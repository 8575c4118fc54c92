import FlowControl.Proofs.Limiter.Surroundings
import FlowControl.Proofs.Routine
import Mathlib.Data.List.Induction

/-!
# Parties that share a store

Any number of parties run programs over one store in memory, question by question
and in any order.  A party may be dropped while it waits for an answer, also when
its question has had its effect already and only the answer is lost; what it held
there is then given up by jobs in the background, which run when they are chosen,
or never.  The store may fail for a while.

The past keeps every answered question with its reading and the store before and
after, the latest first.  `Linked` says that a past explains a store.
-/

namespace FlowControl

/-- A question that was answered: who asked (nobody, if it was a job in the background), the
reading, question and answer, and the store before and after. -/
structure Moment (ι : Type) where
  party : Option ι
  reading : UInt64
  ask : Limiter.Ask
  answer : ask.Answer
  before : Memory
  after : Memory

/-- A question answered from a store in memory. -/
def Moment.of {ι : Type} (party : Option ι) (reading : UInt64) (ask : Limiter.Ask)
    (m : Memory) : Moment ι :=
  ⟨party, reading, ask, (Limiter.answerAt Memory.call reading ask m).1, m,
    (Limiter.answerAt Memory.call reading ask m).2⟩

/-- Was the question answered as a store in memory answers it? -/
def Moment.Answered {ι : Type} (e : Moment ι) : Prop :=
  ∃ party reading ask m, e = Moment.of party reading ask m

/-- Does the past lead from the first store to the second?  Between two questions a store keeps
its entries. -/
def Linked {ι : Type} (m₀ : Memory) : List (Moment ι) → Memory → Prop
  | [], m => m.entries = m₀.entries
  | e :: older, m => m.entries = e.after.entries ∧ e.Answered ∧ Linked m₀ older e.before

theorem Linked.answered {ι : Type} {m₀ m : Memory} {past : List (Moment ι)}
    (h : Linked m₀ past m) : ∀ e ∈ past, e.Answered := by
  induction past generalizing m with
  | nil =>
      intro e he
      cases he
  | cons e older ih => exact List.forall_mem_cons.mpr ⟨h.2.1, ih h.2.2⟩

/-- Is a reading no earlier than any of the past? -/
def Reached {ι : Type} (past : List (Moment ι)) (t : UInt64) : Prop :=
  ∀ e ∈ past, e.reading ≤ t

/-- Do the readings of the past never go back? -/
def Moment.InOrder {ι : Type} : List (Moment ι) → Prop
  | [] => True
  | e :: older => Reached older e.reading ∧ InOrder older

/-- Parties over a shared store: what each has left to do, the jobs in the background, and what
was answered so far, the latest first. -/
structure Fleet (ι α : Type) where
  memory : Memory
  task : ι → Option (Limiter.Program α)
  jobs : List (Limiter.Program Unit)
  past : List (Moment ι)

/-- What can happen next: a party or a job is answered at a reading, a party is dropped while it
waits or just before it would hear the answer, or the store starts or stops failing. -/
inductive Act (ι : Type) where
  | go (i : ι) (reading : UInt64)
  | job (k : Nat) (reading : UInt64)
  | drop (i : ι)
  | lose (i : ι) (reading : UInt64)
  | outage (down : Bool)

/-- The reading at which an act happens, if it reads the clock. -/
def Act.reading? {ι : Type} : Act ι → Option UInt64
  | go _ reading | job _ reading | lose _ reading => some reading
  | drop _ | outage _ => none

/-- Do the acts happen at readings that never go back? -/
def Act.InOrder {ι : Type} (acts : List (Act ι)) : Prop :=
  (acts.filterMap Act.reading?).Pairwise (· ≤ ·)

namespace Fleet

variable {ι α : Type} [DecidableEq ι]

/-- Every party before its first question. -/
def start (m : Memory) (program : ι → Limiter.Program α) : Fleet ι α :=
  ⟨m, fun i => some (program i), [], []⟩

/-- Adds an answered question to the past and goes on from the store it left. -/
def record (f : Fleet ι α) (e : Moment ι) : Fleet ι α :=
  { f with memory := e.after, past := e :: f.past }

/-- Changes what a party has left to do. -/
def setTask (f : Fleet ι α) (i : ι) (p : Option (Limiter.Program α)) : Fleet ι α :=
  { f with task := fun j => if j = i then p else f.task j }

/-- Hands what a dropped party held to the background. -/
def giveUp (f : Fleet ι α) (held : List Guard) : Fleet ι α :=
  { f with jobs := f.jobs ++ held.map Limiter.giveUp }

/-- Adds a party's question to the past and changes what the party has left to do. -/
def goOn (f : Fleet ι α) (i : ι) (e : Moment ι) (p : Option (Limiter.Program α)) :
    Fleet ι α :=
  (f.record e).setTask i p

/-- What an act does; acts of parties that are done or gone do nothing. -/
def step (f : Fleet ι α) : Act ι → Fleet ι α
  | .go i reading =>
    match f.task i with
    | some (.ask ask _ resume) =>
      let e := Moment.of (some i) reading ask f.memory
      f.goOn i e (some (resume e.answer))
    | _ => f
  | .job k reading =>
    match f.jobs[k]? with
    | some (.ask ask _ resume) =>
      let e := Moment.of none reading ask f.memory
      { f.record e with jobs := f.jobs.set k (resume e.answer) }
    | _ => f
  | .drop i =>
    match f.task i with
    | some (.ask _ held _) => (f.setTask i none).giveUp held
    | _ => f
  | .lose i reading =>
    match f.task i with
    | some (.ask ask held _) =>
      (f.goOn i (.of (some i) reading ask f.memory) none).giveUp held
    | _ => f
  | .outage down => { f with memory := { f.memory with unavailable := down } }

/-- The result of a party that is done. -/
def result? (f : Fleet ι α) (i : ι) : Option α :=
  match f.task i with
  | some (.done result) => some result
  | _ => none

/-- What a party holds where it is suspended: it waits for the store, or until a pause is over. -/
def suspended? (f : Fleet ι α) (i : ι) : Option (List Guard) :=
  match f.task i with
  | some (.ask (.store _) held _) | some (.ask (.pause _) held _) => some held
  | _ => none

/-- What acts do one after another. -/
def run (f : Fleet ι α) (acts : List (Act ι)) : Fleet ι α := acts.foldl step f

theorem run_cons (f : Fleet ι α) (a : Act ι) (acts : List (Act ι)) :
    f.run (a :: acts) = (f.step a).run acts := rfl

theorem run_append (f : Fleet ι α) (acts more : List (Act ι)) :
    f.run (acts ++ more) = (f.run acts).run more := List.foldl_append

theorem run_concat (f : Fleet ι α) (acts : List (Act ι)) (a : Act ι) :
    f.run (acts ++ [a]) = (f.run acts).step a := List.foldl_append

/-! ## What an act can do -/

variable {f : Fleet ι α} {a : Act ι} {acts : List (Act ι)}

omit [DecidableEq ι] in
theorem task_of_result? {i : ι} {result : α} (h : f.result? i = some result) :
    f.task i = some (.done result) := by
  unfold result? at h
  split at h
  · next htask => rw [htask, Option.some.inj h]
  · cases h

omit [DecidableEq ι] in
theorem task_of_suspended? {i : ι} {held : List Guard} (h : f.suspended? i = some held) :
    ∃ ask resume, f.task i = some (.ask ask held resume) ∧
      ((∃ c, ask = .store c) ∨ ∃ length, ask = .pause length) := by
  unfold suspended? at h
  split at h
  · next htask =>
    cases h
    exact ⟨_, _, htask, .inl ⟨_, rfl⟩⟩
  · next htask =>
    cases h
    exact ⟨_, _, htask, .inr ⟨_, rfl⟩⟩
  · cases h

theorem step_go_done {i : ι} {reading : UInt64} {result : α}
    (h : f.task i = some (.done result)) : f.step (.go i reading) = f := by
  simp only [step, h]

theorem step_go_ask {i : ι} {reading : UInt64} {ask : Limiter.Ask} {held : List Guard}
    {resume : ask.Answer → Limiter.Program α} (h : f.task i = some (.ask ask held resume)) :
    f.step (.go i reading) = f.goOn i (.of (some i) reading ask f.memory)
      (some (resume (Limiter.answerAt Memory.call reading ask f.memory).1)) := by
  simp only [step, h]
  rfl

theorem step_drop_ask {i : ι} {ask : Limiter.Ask} {held : List Guard}
    {resume : ask.Answer → Limiter.Program α} (h : f.task i = some (.ask ask held resume)) :
    f.step (.drop i) = (f.setTask i none).giveUp held := by
  simp only [step, h]

@[simp] theorem past_step_drop (i : ι) : (f.step (.drop i)).past = f.past := by
  simp only [step]
  split <;> rfl

@[simp] theorem memory_step_drop (i : ι) : (f.step (.drop i)).memory = f.memory := by
  simp only [step]
  split <;> rfl

/-- Does a party wait for the answer to a question, or does a job, if it is nobody's? -/
def Poses (f : Fleet ι α) (ask : Limiter.Ask) : Option ι → Prop
  | some i => ∃ held resume, f.task i = some (.ask ask held resume)
  | none => ∃ held resume, Routine.ask ask held resume ∈ f.jobs

/-- An act answers a question that somebody waits for, at its reading, or none. -/
theorem step_poses (f : Fleet ι α) (a : Act ι) :
    (∃ party reading ask, f.Poses ask party ∧ a.reading? = some reading ∧
      (f.step a).past = Moment.of party reading ask f.memory :: f.past ∧
      (f.step a).memory = (Moment.of party reading ask f.memory).after) ∨
    ((f.step a).past = f.past ∧ (f.step a).memory.entries = f.memory.entries) := by
  cases a with
  | go i reading =>
      simp only [step]
      split
      · next ask held resume htask =>
        exact .inl ⟨some i, reading, ask, ⟨held, resume, htask⟩, rfl, rfl, rfl⟩
      · exact .inr ⟨rfl, rfl⟩
  | job k reading =>
      simp only [step]
      split
      · next ask held resume hjob =>
        exact .inl ⟨none, reading, ask, ⟨held, resume, List.mem_of_getElem? hjob⟩, rfl, rfl, rfl⟩
      · exact .inr ⟨rfl, rfl⟩
  | drop i =>
      simp only [step]
      split
      · exact .inr ⟨rfl, rfl⟩
      · exact .inr ⟨rfl, rfl⟩
  | lose i reading =>
      simp only [step]
      split
      · next ask held resume htask =>
        exact .inl ⟨some i, reading, ask, ⟨held, resume, htask⟩, rfl, rfl, rfl⟩
      · exact .inr ⟨rfl, rfl⟩
  | outage down => exact .inr ⟨rfl, rfl⟩

/-- An act answers one question at its reading, or none. -/
theorem step_cases (f : Fleet ι α) (a : Act ι) :
    (∃ party reading ask, a.reading? = some reading ∧
      (f.step a).past = Moment.of party reading ask f.memory :: f.past ∧
      (f.step a).memory = (Moment.of party reading ask f.memory).after) ∨
    ((f.step a).past = f.past ∧ (f.step a).memory.entries = f.memory.entries) := by
  refine (step_poses f a).imp_left ?_
  rintro ⟨party, reading, ask, -, hstep⟩
  exact ⟨party, reading, ask, hstep⟩

/-- An act keeps the past. -/
theorem past_step (f : Fleet ι α) (a : Act ι) : ∃ newer, (f.step a).past = newer ++ f.past := by
  rcases step_cases f a with ⟨party, reading, ask, -, hpast, -⟩ | ⟨hpast, -⟩
  · exact ⟨[_], hpast⟩
  · exact ⟨[], hpast⟩

/-- An act that one party has no part in: others, jobs and outages. -/
structure Apart (i : ι) (f f' : Fleet ι α) : Prop where
  task : f'.task i = f.task i
  past : (f'.past = f.past ∧ f'.memory.entries = f.memory.entries) ∨
    ∃ party reading ask, party ≠ some i ∧ f'.past = Moment.of party reading ask f.memory :: f.past ∧
      f'.memory = (Moment.of party reading ask f.memory).after

theorem task_setTask_of_ne {i j : ι} (h : i ≠ j) (p : Option (Limiter.Program α)) :
    (f.setTask j p).task i = f.task i := if_neg h

/-- For one party an act answers its question, ends it by dropping it, or is one it has no part
in. -/
theorem step_party_cases (f : Fleet ι α) (a : Act ι) (i : ι) :
    (∃ reading ask held resume, f.task i = some (.ask ask held resume) ∧
      f.step a = f.goOn i (.of (some i) reading ask f.memory)
        (some (resume (Limiter.answerAt Memory.call reading ask f.memory).1))) ∨
    (f.task i ≠ none ∧ (f.step a).task i = none) ∨ f.Apart i (f.step a) := by
  have hidle : f.Apart i f := ⟨rfl, .inl ⟨rfl, rfl⟩⟩
  have hother : ∀ j : ι, ¬ i = j → some j ≠ some i := fun j hj h => hj (Option.some.inj h).symm
  cases a with
  | go j reading =>
      simp only [step]
      split
      · next ask held resume htask =>
        by_cases hj : i = j
        · subst hj
          exact .inl ⟨reading, ask, held, resume, htask, rfl⟩
        · refine .inr (.inr ⟨task_setTask_of_ne hj _, .inr ?_⟩)
          exact ⟨some j, reading, ask, hother j hj, rfl, rfl⟩
      · exact .inr (.inr hidle)
  | job k reading =>
      simp only [step]
      split
      · next ask held resume hjob =>
        exact .inr (.inr ⟨rfl, .inr ⟨none, reading, ask, nofun, rfl, rfl⟩⟩)
      · exact .inr (.inr hidle)
  | drop j =>
      simp only [step]
      split
      · next ask held resume htask =>
        by_cases hj : i = j
        · subst hj
          exact .inr (.inl ⟨by rw [htask]; nofun, if_pos rfl⟩)
        · exact .inr (.inr ⟨task_setTask_of_ne hj _, .inl ⟨rfl, rfl⟩⟩)
      · exact .inr (.inr hidle)
  | lose j reading =>
      simp only [step]
      split
      · next ask held resume htask =>
        by_cases hj : i = j
        · subst hj
          exact .inr (.inl ⟨by rw [htask]; nofun, if_pos rfl⟩)
        · refine .inr (.inr ⟨task_setTask_of_ne hj _, .inr ?_⟩)
          exact ⟨some j, reading, ask, hother j hj, rfl, rfl⟩
      · exact .inr (.inr hidle)
  | outage down => exact .inr (.inr ⟨rfl, .inl ⟨rfl, rfl⟩⟩)

/-- A party that has no part in its own turn is done, or gone. -/
theorem Apart.of_turn {i : ι} {reading : UInt64} (h : f.Apart i (f.step (.go i reading))) :
    f.task i = none ∨ ∃ result, f.task i = some (.done result) := by
  cases htask : f.task i with
  | none => exact .inl rfl
  | some p =>
      cases p with
      | done result => exact .inr ⟨result, rfl⟩
      | ask ask held resume =>
          have hpast := congrArg Fleet.past (step_go_ask htask : f.step (.go i reading) = _)
          rcases h.past with ⟨hsame, -⟩ | ⟨party, reading', ask', hparty, hother, -⟩
          · exact absurd (congrArg List.length (hpast.symm.trans hsame)) (Nat.succ_ne_self _)
          · obtain ⟨hsame, -⟩ := List.cons.inj (hpast.symm.trans hother)
            exact absurd (congrArg Moment.party hsame).symm hparty

/-- A run adds moments to the past that lead from the store at its start to the store at its end.
None of them belongs to a party that was gone before. -/
theorem exists_newer_run (f : Fleet ι α) (acts : List (Act ι)) (i : ι) :
    ∃ newer, (f.run acts).past = newer ++ f.past ∧
      Linked f.memory newer (f.run acts).memory ∧
      (f.task i = none → (f.run acts).task i = none ∧ ∀ e ∈ newer, e.party ≠ some i) := by
  induction acts using List.reverseRecOn with
  | nil => exact ⟨[], rfl, rfl, fun h => ⟨h, fun e he => nomatch he⟩⟩
  | append_singleton acts a ih =>
      obtain ⟨newer, hpast, hlinked, hgone⟩ := ih
      rw [run_concat]
      generalize f.run acts = g at *
      have hentries : (g.step a).memory.entries = g.memory.entries →
          Linked f.memory newer (g.step a).memory := by
        intro hentries
        cases newer with
        | nil => exact hentries.trans hlinked
        | cons e older => exact ⟨hentries.trans hlinked.1, hlinked.2⟩
      rcases step_cases g a with ⟨party, reading, ask, -, hstep, hmemory⟩ | ⟨hstep, hsame⟩
      · refine ⟨Moment.of party reading ask g.memory :: newer, by rw [hstep, hpast]; rfl, ?_, ?_⟩
        · rw [hmemory]
          exact ⟨rfl, ⟨party, reading, ask, g.memory, rfl⟩, hlinked⟩
        · intro hnone
          obtain ⟨hhere, hothers⟩ := hgone hnone
          rcases step_party_cases g a i with ⟨_, _, _, _, htask, -⟩ | ⟨htask, -⟩ | hapart
          · cases hhere.symm.trans htask
          · exact absurd hhere htask
          · refine ⟨hapart.task.trans hhere, List.forall_mem_cons.mpr ⟨?_, hothers⟩⟩
            rcases hapart.past with ⟨hpast', -⟩ | ⟨party', reading', ask', hparty, hpast', -⟩
            · rw [hstep] at hpast'
              exact absurd (congrArg List.length hpast') (Nat.succ_ne_self _)
            · rw [hstep] at hpast'
              rw [(List.cons.inj hpast').1]
              exact hparty
      · refine ⟨newer, hstep.trans hpast, hentries hsame, fun hnone => ?_⟩
        obtain ⟨hhere, hothers⟩ := hgone hnone
        refine ⟨?_, hothers⟩
        rcases step_party_cases g a i with ⟨_, _, _, _, htask, -⟩ | ⟨htask, -⟩ | hapart
        · cases hhere.symm.trans htask
        · exact absurd hhere htask
        · exact hapart.task.trans hhere

theorem mem_past_run {e : Moment ι} (he : e ∈ (f.run acts).past) :
    e ∈ f.past ∨ ∃ a ∈ acts, a.reading? = some e.reading := by
  induction acts generalizing f with
  | nil => exact .inl he
  | cons a acts ih =>
      rcases ih he with hpast | ⟨a', ha', hreading⟩
      · rcases step_cases f a with ⟨party, reading, ask, ha, hstep, _⟩ | ⟨hstep, _⟩
        · rw [hstep] at hpast
          rcases List.mem_cons.mp hpast with rfl | hpast
          · exact .inr ⟨a, List.mem_cons_self, ha⟩
          · exact .inl hpast
        · exact .inl (hstep ▸ hpast)
      · exact .inr ⟨a', List.mem_cons_of_mem _ ha', hreading⟩

/-- The past of a run leads from the first store to the last. -/
theorem linked_run {m₀ : Memory} (h : Linked m₀ f.past f.memory) :
    Linked m₀ (f.run acts).past (f.run acts).memory := by
  induction acts generalizing f with
  | nil => exact h
  | cons a acts ih =>
      refine ih ?_
      rcases step_cases f a with ⟨party, reading, ask, _, hpast, hmemory⟩ | ⟨hpast, hentries⟩
      · rw [hpast, hmemory]
        exact ⟨rfl, ⟨party, reading, ask, f.memory, rfl⟩, h⟩
      · rw [hpast]
        cases hp : f.past with
        | nil =>
            rw [hp] at h
            exact hentries.trans h
        | cons e older =>
            rw [hp] at h
            exact ⟨hentries.trans h.1, h.2⟩

/-- If no act reads an earlier clock than the acts before it, no moment does. -/
theorem inOrder_run (hpast : Moment.InOrder f.past) (hacts : Act.InOrder acts)
    (hreached : ∀ r ∈ acts.filterMap Act.reading?, Reached f.past r) :
    Moment.InOrder (f.run acts).past := by
  induction acts generalizing f with
  | nil => exact hpast
  | cons a acts ih =>
      rcases step_cases f a with ⟨party, reading, ask, ha, hstep, _⟩ | ⟨hstep, _⟩
      · -- The act read the clock: the past grows by its reading, which comes first.
        have hreadings : (a :: acts).filterMap Act.reading? =
            reading :: acts.filterMap Act.reading? := by
          rw [List.filterMap_cons, ha]
        rw [Act.InOrder, hreadings] at hacts
        rw [hreadings] at hreached
        obtain ⟨hlater, hacts⟩ := List.pairwise_cons.mp hacts
        refine ih ?_ hacts ?_
        · rw [hstep]
          exact ⟨hreached reading List.mem_cons_self, hpast⟩
        · intro r hr e he
          rw [hstep] at he
          rcases List.mem_cons.mp he with rfl | he
          · exact hlater r hr
          · exact hreached r (List.mem_cons_of_mem _ hr) e he
      · have hsub : (acts.filterMap Act.reading?).Sublist ((a :: acts).filterMap Act.reading?) :=
          (List.sublist_cons_self a acts).filterMap _
        refine ih (by rw [hstep]; exact hpast) (hacts.sublist hsub) ?_
        intro r hr
        rw [hstep]
        exact hreached r (hsub.subset hr)

/-! ## What is asked -/

/-- Do parties, jobs and past keep to what parties and jobs may ask?  Parties are bound in what
they hold as well. -/
structure Obeys (may : ι → Limiter.Ask → List Guard → Prop) (jobMay : Limiter.Ask → Prop)
    (f : Fleet ι α) : Prop where
  task : ∀ i p, f.task i = some p → p.Asks (may i)
  job : ∀ p ∈ f.jobs, p.Asks fun ask _ => jobMay ask
  party : ∀ e ∈ f.past, ∀ i, e.party = some i → ∃ held, may i e.ask held
  nobody : ∀ e ∈ f.past, e.party = none → jobMay e.ask

/-- May the jobs that give up what parties hold ask their questions? -/
def GivesUp (may : ι → Limiter.Ask → List Guard → Prop) (jobMay : Limiter.Ask → Prop) : Prop :=
  ∀ i ask held, may i ask held → ∀ g ∈ held, (Limiter.giveUp g).Asks fun ask _ => jobMay ask

variable {may : ι → Limiter.Ask → List Guard → Prop} {jobMay : Limiter.Ask → Prop}

omit [DecidableEq ι] in
theorem obeys_start {m : Memory} {program : ι → Limiter.Program α}
    (h : ∀ i, (program i).Asks (may i)) : (start m program).Obeys may jobMay where
  task i p hp := by
    cases hp
    exact h i
  job p hp := by cases hp
  party e he := by cases he
  nobody e he := by cases he

omit [DecidableEq ι] in
theorem Obeys.record (h : f.Obeys may jobMay) {e : Moment ι}
    (hparty : ∀ i, e.party = some i → ∃ held, may i e.ask held)
    (hnobody : e.party = none → jobMay e.ask) : (f.record e).Obeys may jobMay where
  task := h.task
  job := h.job
  party d hd := by
    rcases List.mem_cons.mp hd with rfl | hd
    · exact hparty
    · exact h.party d hd
  nobody d hd := by
    rcases List.mem_cons.mp hd with rfl | hd
    · exact hnobody
    · exact h.nobody d hd

theorem Obeys.setTask (h : f.Obeys may jobMay) {i : ι} {p : Option (Limiter.Program α)}
    (hp : ∀ q, p = some q → q.Asks (may i)) : (f.setTask i p).Obeys may jobMay where
  task j q hq := by
    by_cases hj : j = i
    · subst hj
      simp only [Fleet.setTask, if_true] at hq
      exact hp q hq
    · simp only [Fleet.setTask, hj, if_false] at hq
      exact h.task j q hq
  job := h.job
  party := h.party
  nobody := h.nobody

omit [DecidableEq ι] in
theorem Obeys.giveUp (h : f.Obeys may jobMay) {held : List Guard}
    (hgive : ∀ g ∈ held, (Limiter.giveUp g).Asks fun ask _ => jobMay ask) :
    (f.giveUp held).Obeys may jobMay where
  task := h.task
  job p hp := by
    rcases List.mem_append.mp hp with hp | hp
    · exact h.job p hp
    · obtain ⟨g, hg, rfl⟩ := List.mem_map.mp hp
      exact hgive g hg
  party := h.party
  nobody := h.nobody

omit [DecidableEq ι] in
theorem Obeys.answer (h : f.Obeys may jobMay) {i : ι} {ask : Limiter.Ask} {held : List Guard}
    {resume : ask.Answer → Limiter.Program α} (reading : UInt64)
    (htask : f.task i = some (.ask ask held resume)) :
    (f.record (.of (some i) reading ask f.memory)).Obeys may jobMay := by
  refine h.record ?_ ?_
  · intro j hj
    cases hj
    exact ⟨held, (h.task i _ htask).1⟩
  · intro hj
    cases hj

theorem Obeys.step (h : f.Obeys may jobMay) (hgive : GivesUp may jobMay) (a : Act ι) :
    (f.step a).Obeys may jobMay := by
  cases a with
  | go i reading =>
      simp only [Fleet.step]
      split
      · next ask held resume htask =>
        refine (h.answer reading htask).setTask ?_
        intro q hq
        cases hq
        exact (h.task i _ htask).2 _
      · exact h
  | job k reading =>
      simp only [Fleet.step]
      split
      · next ask held resume hjob =>
        have hp := h.job _ (List.mem_of_getElem? hjob)
        have hrecord : (f.record (.of none reading ask f.memory)).Obeys may jobMay :=
          h.record (fun j hj => by cases hj) (fun _ => hp.1)
        refine ⟨hrecord.task, ?_, hrecord.party, hrecord.nobody⟩
        intro p hmem
        rcases List.mem_or_eq_of_mem_set hmem with hmem | rfl
        · exact h.job p hmem
        · exact hp.2 _
      · exact h
  | drop i =>
      simp only [Fleet.step]
      split
      · next ask held resume htask =>
        exact (h.setTask fun q hq => by cases hq).giveUp (hgive i ask held (h.task i _ htask).1)
      · exact h
  | lose i reading =>
      simp only [Fleet.step]
      split
      · next ask held resume htask =>
        exact ((h.answer reading htask).setTask fun q hq => by cases hq).giveUp
          (hgive i ask held (h.task i _ htask).1)
      · exact h
  | outage down => exact ⟨h.task, h.job, h.party, h.nobody⟩

/-- What every party and every job may ask is all that is ever asked. -/
theorem Obeys.run (h : f.Obeys may jobMay) (hgive : GivesUp may jobMay) (acts : List (Act ι)) :
    (f.run acts).Obeys may jobMay := by
  induction acts generalizing f with
  | nil => exact h
  | cons a acts ih => exact ih (h.step hgive a)

/-- What is asked in a run is what the programs ask, and the jobs that give locks up. -/
theorem asks_of_mem_past_run {P : Option ι → Limiter.Ask → Prop} {m : Memory}
    {program : ι → Limiter.Program α}
    (hprogram : ∀ i, (program i).Asks fun ask _ => P (some i) ask)
    (hjob : ∀ g, (Limiter.giveUp g).Asks fun ask _ => P none ask) (acts : List (Act ι))
    {e : Moment ι} (he : e ∈ ((start m program).run acts).past) : P e.party e.ask := by
  have hobeys : ((start m program).run acts).Obeys (fun i ask _ => P (some i) ask) (P none) :=
    (obeys_start hprogram).run (fun _ _ _ _ g _ => hjob g) acts
  cases hparty : e.party with
  | none => exact hobeys.nobody e he hparty
  | some i =>
      obtain ⟨_, hasked⟩ := hobeys.party e he i hparty
      exact hasked

end Fleet

end FlowControl
