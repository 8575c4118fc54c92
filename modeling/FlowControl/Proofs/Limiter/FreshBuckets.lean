import FlowControl.Proofs.Limiter.OneBucket
import Mathlib.Data.List.Forall2

/-!
# A registry is not noticed

`FreshBuckets` goes through the same acts as a registry at work but has no registry: it
keeps the keys that were asked for, and each operation gets a bucket of its own, made for
it from its key and the configuration that is assigned to the key.  A sweep does nothing
there, and neither do the marks of an operation.

Both machines have the same store and the same results at any time, whatever the acts are
and however operations overlap.  In particular a registry behaves as if nothing were ever
swept.  How a limiter decides depends on its key, its configuration and the store only;
this needs that a key is always asked for with its one configuration, since a handle keeps
the configuration that it was made with.
-/

namespace FlowControl

open Registry (Held Ask Program ofLimiter)

/-- A use of a bucket that was made for it: whether it was begun, and what it has left to do,
unless it was dropped. -/
structure FreshUse where
  isBegun : Bool
  task : Option (Limiter.Program (Except LimitError Unit))

/-- The result of a use, once it has one. -/
def FreshUse.outcome? : FreshUse → Option (Except LimitError Unit)
  | ⟨true, some (.done result)⟩ => some result
  | _ => none

/-- Uses of buckets that were made for them: the keys that were asked for, the uses, each in
order, the store, and the jobs in the background. -/
structure FreshBuckets where
  keys : List LimiterKey
  uses : List FreshUse
  memory : Memory
  jobs : List (Limiter.Program Unit)

namespace FreshBuckets

/-- Nothing asked for yet. -/
def start (m : Memory) : FreshBuckets := ⟨[], [], m, []⟩

/-- What an act does where there is no registry; the first answer to a use is its beginning. -/
def step (config : LimiterKey → LimiterConfig) (d : FreshBuckets) :
    LiveRegistry.Act → FreshBuckets
  | .getOrCreate key _ _ => { d with keys := d.keys ++ [key] }
  | .use k purpose =>
    match d.keys[k]? with
    | some key =>
      { d with uses := d.uses ++ [⟨false, some ((Bucket.mk key (config key)).use purpose)⟩] }
    | none => d
  | .go k reading =>
    match d.uses[k]? with
    | some ⟨false, some p⟩ => { d with uses := d.uses.set k ⟨true, some p⟩ }
    | some ⟨true, some (.ask ask _ resume)⟩ =>
      let (answer, memory) := Limiter.answerAt Memory.call reading ask d.memory
      { d with memory, uses := d.uses.set k ⟨true, some (resume answer)⟩ }
    | _ => d
  | .drop k =>
    match d.uses[k]? with
    | some ⟨false, some _⟩ => { d with uses := d.uses.set k ⟨false, none⟩ }
    | some ⟨true, some (.ask ask held _)⟩ =>
      if (Ask.limiter ask).mayDrop then
        { d with uses := d.uses.set k ⟨true, none⟩, jobs := d.jobs ++ held.map Limiter.giveUp }
      else d
    | _ => d
  | .lose k reading =>
    match d.uses[k]? with
    | some ⟨true, some (.ask (.store call) held _)⟩ =>
      { d with
        memory := (Limiter.answerAt Memory.call reading (.store call) d.memory).2
        uses := d.uses.set k ⟨true, none⟩
        jobs := d.jobs ++ held.map Limiter.giveUp }
    | _ => d
  | .job k reading =>
    match d.jobs[k]? with
    | some (.ask ask _ resume) =>
      let (answer, memory) := Limiter.answerAt Memory.call reading ask d.memory
      { d with memory, jobs := d.jobs.set k (resume answer) }
    | _ => d
  | .outage down => { d with memory := { d.memory with unavailable := down } }
  | .sweep _ | .close => d

/-- What acts do one after another. -/
def run (config : LimiterKey → LimiterConfig) (d : FreshBuckets)
    (acts : List LiveRegistry.Act) : FreshBuckets :=
  acts.foldl (step config) d

end FreshBuckets

/-! ## Operations that have only their marks left -/

namespace Registry

/-- The result of a program that has nothing left to do but to give its marks back. -/
def outcome? {α : Type} : Program α → Option α
  | .done result => some result
  | .ask (.touch _) _ resume => outcome? (resume ())
  | .ask (.leave _) _ resume => outcome? (resume ())
  | _ => none

end Registry

/-- The result of an operation, once the store has done all it was asked to do. -/
def Operation.outcome? (o : Operation) : Option (Except LimitError Unit) :=
  o.task.bind Registry.outcome?

namespace Use

variable {h : Handle} {u : Use}

/-- What an operation on a handle still does when its result is known. -/
def ending (u : Use) (h : Handle) (result : Except LimitError Unit) :
    Program (Except LimitError Unit) :=
  match u with
  | .take _ _ =>
    ((Registry.noteAccess h).holding (Held.busy h)).bind fun _ =>
      (Registry.markFree h).bind fun _ => .done result
  | .reset => (Registry.markFree h).bind fun _ => .done result

/-- What an operation on a handle has left to do when its bucket has a program left to do. -/
def busyWith (u : Use) (h : Handle) (p : Limiter.Program (Except LimitError Unit)) :
    Program (Except LimitError Unit) :=
  ((ofLimiter p).holding (Held.busy h)).bind (u.ending h)

theorem program_eq (u : Use) (h : Handle) :
    u.program h = .ask (.enter h) [] fun _ => u.busyWith h (h.bucket.use u) := by
  cases u with
  | take token n => rfl
  | reset => rfl

theorem outcome?_busyWith_done (result : Except LimitError Unit) :
    Registry.outcome? (u.busyWith h (.done result)) = some result := by
  cases u with
  | take token n => rfl
  | reset => rfl

theorem busyWith_ask (ask : Limiter.Ask) (guards : List Guard)
    (resume : ask.Answer → Limiter.Program (Except LimitError Unit)) :
    u.busyWith h (.ask ask guards resume) =
      .ask (.limiter ask) (guards.map Held.guard ++ [Held.busy h]) fun answer =>
        u.busyWith h (resume answer) := by
  unfold busyWith
  rw [Registry.ofLimiter_ask]
  rfl

end Use

/-! ## An operation beside the use of its fresh bucket -/

/-- Does an operation on a handle stand where the use of a fresh bucket stands? -/
inductive Operation.Mirrors : Operation → FreshUse → Prop
  | waiting (h : Handle) (u : Use) :
      Mirrors ⟨h, false, some (u.program h)⟩ ⟨false, some (h.bucket.use u)⟩
  | running (h : Handle) (u : Use) (ask : Limiter.Ask) (guards : List Guard)
      (resume : ask.Answer → Limiter.Program (Except LimitError Unit)) :
      Mirrors ⟨h, true, some (u.busyWith h (.ask ask guards resume))⟩
        ⟨true, some (.ask ask guards resume)⟩
  | ending (h : Handle) {q : Program (Except LimitError Unit)} {result : Except LimitError Unit}
      (hq : Registry.outcome? q = some result) :
      Mirrors ⟨h, true, some q⟩ ⟨true, some (.done result)⟩
  | dropped (h : Handle) (isBegun : Bool) : Mirrors ⟨h, isBegun, none⟩ ⟨isBegun, none⟩

theorem Operation.mirrors_busyWith (h : Handle) (u : Use)
    (p : Limiter.Program (Except LimitError Unit)) :
    Mirrors ⟨h, true, some (u.busyWith h p)⟩ ⟨true, some p⟩ := by
  cases p with
  | done result => exact .ending h (Use.outcome?_busyWith_done result)
  | ask ask guards resume => exact .running h u ask guards resume

theorem Operation.Mirrors.outcome?_eq {o : Operation} {f : FreshUse} (h : o.Mirrors f) :
    o.outcome? = f.outcome? := by
  cases h with
  | waiting h u =>
      rw [Use.program_eq]
      rfl
  | running h u ask guards resume =>
      rw [Use.busyWith_ask]
      rfl
  | ending h hq => exact hq
  | dropped h isBegun => cases isBegun <;> rfl

section Pairs

variable {α β : Type} {R : α → β → Prop} {l : List α} {l' : List β} {a : α} {b : β} {k : Nat}

theorem getElem?_of_forall₂ (h : List.Forall₂ R l l') (k : Nat) :
    (l[k]? = none ∧ l'[k]? = none) ∨ ∃ a b, l[k]? = some a ∧ l'[k]? = some b ∧ R a b := by
  induction h generalizing k with
  | nil => exact .inl ⟨rfl, rfl⟩
  | @cons a b l l' hab _ ih =>
      cases k with
      | zero => exact .inr ⟨a, b, rfl, rfl, hab⟩
      | succ k => exact ih k

theorem forall₂_set (h : List.Forall₂ R l l') (hab : R a b) (k : Nat) :
    List.Forall₂ R (l.set k a) (l'.set k b) := by
  induction h generalizing k with
  | nil => exact .nil
  | cons hcd hrest ih =>
      cases k with
      | zero => exact .cons hab hrest
      | succ k => exact .cons hcd (ih k)

/-- One side may stay as it is while the other goes on. -/
theorem forall₂_set_left (h : List.Forall₂ R l l') (hb : l'[k]? = some b) (hab : R a b) :
    List.Forall₂ R (l.set k a) l' := by
  obtain ⟨hlt, rfl⟩ := List.getElem?_eq_some_iff.mp hb
  have hset := forall₂_set h hab k
  rwa [List.set_getElem_self] at hset

end Pairs

/-! ## A registry beside fresh buckets -/

namespace LiveRegistry

variable {s : LiveRegistry} {d : FreshBuckets} {config : LimiterKey → LimiterConfig} {a : Act}

/-- Does a registry at work stand where fresh buckets stand, with keys configured as assigned? -/
structure Mirrors (config : LimiterKey → LimiterConfig) (s : LiveRegistry) (d : FreshBuckets) :
    Prop where
  memory : s.memory = d.memory
  jobs : s.jobs = d.jobs
  handles : s.handles.map Handle.bucket = d.keys.map fun key => ⟨key, config key⟩
  operations : List.Forall₂ Operation.Mirrors s.operations d.uses

theorem mirrors_start (config : LimiterKey → LimiterConfig) (m : Memory) :
    (start m).Mirrors config (FreshBuckets.start m) := ⟨rfl, rfl, rfl, .nil⟩

/-- A handle that was given out has the bucket that is assigned to its key. -/
theorem Mirrors.bucket_eq (h : s.Mirrors config d) {handle : Handle} (hmem : handle ∈ s.handles) :
    handle.bucket = ⟨handle.key, config handle.key⟩ := by
  have hbucket : handle.bucket ∈ s.handles.map Handle.bucket := List.mem_map_of_mem hmem
  rw [h.handles] at hbucket
  obtain ⟨key, -, hkey⟩ := List.mem_map.mp hbucket
  rw [Handle.key, ← hkey]

theorem Mirrors.given (h : s.Mirrors config d) (hs : s.Accounted) (hopen : s.registry.isOpen = true)
    (key : LimiterKey) (reading : UInt64) :
    (s.step (.getOrCreate key (config key) reading)).Mirrors config
      (d.step config (.getOrCreate key (config key) reading)) := by
  -- Found or made, the handle has the bucket of its key.
  have hgiven : (s.registry.getOrCreate key (config key) reading).1.bucket =
      ⟨key, config key⟩ := by
    rcases Registry.getOrCreate_cases s.registry key (config key) reading with
      ⟨handle, hfind, hgiven, -⟩ | ⟨-, hgiven, -⟩
    · obtain ⟨hmem, rfl⟩ := Registry.mem_of_find? hfind
      rw [hgiven, h.bucket_eq (hs.registered handle hmem)]
    · rw [hgiven]
      rfl
  simp only [step, hopen, if_true]
  refine ⟨h.memory, h.jobs, ?_, h.operations⟩
  show (s.handles ++ [_]).map Handle.bucket = (d.keys ++ [key]).map _
  rw [List.map_append, List.map_append, h.handles]
  exact congrArg (_ ++ [·]) hgiven

theorem Mirrors.used (h : s.Mirrors config d) (k : Nat) (purpose : Use) :
    (s.step (.use k purpose)).Mirrors config (d.step config (.use k purpose)) := by
  have hget := congrArg (·[k]?) h.handles
  simp only [List.getElem?_map] at hget
  simp only [step, FreshBuckets.step]
  cases hhandle : s.handles[k]? with
  | none =>
      rw [hhandle] at hget
      rw [Option.map_eq_none_iff.mp hget.symm]
      exact h
  | some handle =>
      rw [hhandle] at hget
      obtain ⟨key, hkey, hbucket⟩ := Option.map_eq_some_iff.mp hget.symm
      rw [hkey]
      refine ⟨h.memory, h.jobs, h.handles, List.rel_append h.operations (.cons ?_ .nil)⟩
      show Operation.Mirrors _ ⟨false, some ((Bucket.mk key (config key)).use purpose)⟩
      rw [hbucket]
      exact .waiting handle purpose

theorem Mirrors.go (h : s.Mirrors config d) (k : Nat) (reading : UInt64) :
    (s.step (.go k reading)).Mirrors config (d.step config (.go k reading)) := by
  simp only [step, FreshBuckets.step]
  rcases getElem?_of_forall₂ h.operations k with ⟨ho, hf⟩ | ⟨o, f, ho, hf, hmirrors⟩
  · rw [ho, hf]
    exact h
  · rw [ho, hf]
    cases hmirrors with
    | waiting handle u =>
        rw [Use.program_eq]
        refine ⟨h.memory, h.jobs, h.handles, ?_⟩
        exact forall₂_set h.operations (Operation.mirrors_busyWith handle u _) k
    | running handle u ask guards resume =>
        rw [Use.busyWith_ask]
        dsimp only [answer]
        rw [h.memory]
        exact ⟨rfl, h.jobs, h.handles,
          forall₂_set h.operations (Operation.mirrors_busyWith handle u _) k⟩
    | @ending handle q result hq =>
        cases q with
        | done _ => exact h
        | ask ask held resume =>
            -- Only marks are left, and the fresh use has none.
            cases ask with
            | touch _ | leave _ =>
                exact ⟨h.memory, h.jobs, h.handles,
                  forall₂_set_left h.operations hf (.ending handle hq)⟩
            | _ => cases hq
    | dropped handle isBegun => cases isBegun <;> exact h

theorem Mirrors.drop (h : s.Mirrors config d) (k : Nat) :
    (s.step (.drop k)).Mirrors config (d.step config (.drop k)) := by
  simp only [step, FreshBuckets.step]
  rcases getElem?_of_forall₂ h.operations k with ⟨ho, hf⟩ | ⟨o, f, ho, hf, hmirrors⟩
  · rw [ho, hf]
    exact h
  · rw [ho, hf]
    cases hmirrors with
    | waiting handle u =>
        rw [Use.program_eq]
        exact ⟨h.memory, h.jobs, h.handles, forall₂_set h.operations (.dropped handle false) k⟩
    | running handle u ask guards resume =>
        rw [Use.busyWith_ask]
        dsimp only
        split
        · -- The guards go to the background on both sides; the mark is the registry's own.
          rw [foldl_giveUp]
          exact ⟨h.memory, congrArg (· ++ _) h.jobs, h.handles,
            forall₂_set h.operations (.dropped handle true) k⟩
        · exact h
    | @ending handle q result hq =>
        cases q with
        | done _ => exact h
        | ask ask held resume =>
            cases ask with
            | touch _ | leave _ => exact h
            | _ => cases hq
    | dropped handle isBegun => cases isBegun <;> exact h

theorem Mirrors.lose (h : s.Mirrors config d) (k : Nat) (reading : UInt64) :
    (s.step (.lose k reading)).Mirrors config (d.step config (.lose k reading)) := by
  simp only [step, FreshBuckets.step]
  rcases getElem?_of_forall₂ h.operations k with ⟨ho, hf⟩ | ⟨o, f, ho, hf, hmirrors⟩
  · rw [ho, hf]
    exact h
  · rw [ho, hf]
    cases hmirrors with
    | waiting handle u =>
        rw [Use.program_eq]
        exact h
    | running handle u ask guards resume =>
        rw [Use.busyWith_ask]
        cases ask with
        | store call =>
            dsimp only [answer]
            rw [foldl_giveUp, h.memory]
            exact ⟨rfl, congrArg (· ++ _) h.jobs, h.handles,
              forall₂_set h.operations (.dropped handle true) k⟩
        | _ => exact h
    | @ending handle q result hq =>
        cases q with
        | done _ => exact h
        | ask ask held resume =>
            cases ask with
            | touch _ | leave _ => exact h
            | _ => cases hq
    | dropped handle isBegun => cases isBegun <;> exact h

theorem Mirrors.job (h : s.Mirrors config d) (k : Nat) (reading : UInt64) :
    (s.step (.job k reading)).Mirrors config (d.step config (.job k reading)) := by
  simp only [step, FreshBuckets.step]
  rw [h.jobs, h.memory]
  cases d.jobs[k]? with
  | none => exact h
  | some task =>
      cases task with
      | done _ => exact h
      | ask ask held resume => exact ⟨rfl, rfl, h.handles, h.operations⟩

/-- Any act keeps a registry beside fresh buckets, if it asks for keys as they are configured. -/
theorem Mirrors.step (h : s.Mirrors config d) (hs : s.Accounted) (hopen : s.registry.isOpen = true)
    (hassigned : ∀ key c reading, a = .getOrCreate key c reading → c = config key) :
    (s.step a).Mirrors config (d.step config a) := by
  cases a with
  | getOrCreate key c reading =>
      rw [hassigned key c reading rfl]
      exact h.given hs hopen key reading
  | use k purpose => exact h.used k purpose
  | go k reading => exact h.go k reading
  | drop k => exact h.drop k
  | lose k reading => exact h.lose k reading
  | job k reading => exact h.job k reading
  | sweep reading => exact ⟨h.memory, h.jobs, h.handles, h.operations⟩
  | close => exact ⟨h.memory, h.jobs, h.handles, h.operations⟩
  | outage down => exact ⟨congrArg ({ · with unavailable := down }) h.memory, h.jobs, h.handles,
      h.operations⟩

/-- So do acts one after another, while the registry is there. -/
theorem mirrors_run (config : LimiterKey → LimiterConfig) (m : Memory) {acts : List Act}
    (hassigned : ∀ key c reading, .getOrCreate key c reading ∈ acts → c = config key)
    (hlive : .close ∉ acts) :
    ((start m).run acts).Mirrors config ((FreshBuckets.start m).run config acts) := by
  induction acts using List.reverseRecOn with
  | nil => exact mirrors_start config m
  | append_singleton acts a ih =>
      have hbefore : .close ∉ acts := fun hmem => hlive (List.mem_append_left _ hmem)
      rw [run, FreshBuckets.run, List.foldl_append, List.foldl_append]
      refine (ih ?_ hbefore).step ((accounted_start m).run acts) (isOpen_run m hbefore) ?_
      · exact fun key c reading hmem => hassigned key c reading (List.mem_append_left _ hmem)
      · rintro key c reading rfl
        exact hassigned key c reading (by simp)

theorem Mirrors.outcomes (h : s.Mirrors config d) :
    s.operations.map Operation.outcome? = d.uses.map FreshUse.outcome? := by
  have hall := h.operations
  generalize s.operations = operations at hall ⊢
  generalize d.uses = uses at hall ⊢
  induction hall with
  | nil => rfl
  | cons hmirrors _ ih =>
      rw [List.map_cons, List.map_cons, hmirrors.outcome?_eq, ih]

/-- Is an act something else than a sweep? -/
def Act.isNoSweep : Act → Bool
  | .sweep _ => false
  | _ => true

/-- Fresh buckets do not notice sweeps. -/
theorem freshBuckets_run_filter (config : LimiterKey → LimiterConfig) (d : FreshBuckets)
    (acts : List Act) : d.run config (acts.filter Act.isNoSweep) = d.run config acts := by
  induction acts generalizing d with
  | nil => rfl
  | cons a acts ih =>
      cases a with
      | sweep reading => exact ih d
      | _ => exact ih _

/-- A registry is not noticed: with any acts that ask for each key with the configuration assigned
to it, the store and the results of the operations are at any time those of buckets that are made
anew for each operation.  They are also those of the acts without their sweeps. -/
theorem registry_unnoticed (config : LimiterKey → LimiterConfig) (m : Memory) (acts : List Act)
    (hassigned : ∀ key c reading, .getOrCreate key c reading ∈ acts → c = config key)
    (hlive : .close ∉ acts) :
    let s := (start m).run acts
    let d := (FreshBuckets.start m).run config acts
    let unswept := (start m).run (acts.filter Act.isNoSweep)
    (s.memory = d.memory ∧
      s.operations.map Operation.outcome? = d.uses.map FreshUse.outcome?) ∧
    s.memory = unswept.memory ∧
      s.operations.map Operation.outcome? = unswept.operations.map Operation.outcome? := by
  intro s d unswept
  have hswept : s.Mirrors config d := mirrors_run config m hassigned hlive
  have hunswept : unswept.Mirrors config d := by
    have hmirrors : unswept.Mirrors config
        ((FreshBuckets.start m).run config (acts.filter Act.isNoSweep)) :=
      mirrors_run config m
        (fun key c reading hmem => hassigned key c reading (List.mem_of_mem_filter hmem))
        (fun hmem => hlive (List.mem_of_mem_filter hmem))
    rwa [freshBuckets_run_filter] at hmirrors
  refine ⟨⟨hswept.memory, hswept.outcomes⟩, ?_, ?_⟩
  · exact hswept.memory.trans hunswept.memory.symm
  · exact hswept.outcomes.trans hunswept.outcomes.symm

/-- A limiter is swept between two takes on its handle, and the second one finds what the first one
left of the tokens. -/
theorem registry_unnoticed_swept :
    let key : LimiterKey := ⟨"svc", "caller", "GET", "/movies"⟩
    let acts := [.getOrCreate key .standard 0, .use 0 (.take "first" 2)] ++
      List.replicate 9 (.go 0 0) ++ [.sweep 3001, .use 0 (.take "second" 2)] ++
      List.replicate 10 (.go 1 3001)
    (∀ k c reading, .getOrCreate k c reading ∈ acts → c = LimiterConfig.standard) ∧
      .close ∉ acts ∧
      ((start .empty).run (acts.take 12)).registry.registered = [] ∧
      ((start .empty).run acts).operations.map Operation.outcome? =
        [some (.ok ()), some (.error (.exceeded (.ofSecs 3)))] := by
  intro key acts
  have hassigned : ∀ k c reading, .getOrCreate k c reading ∈ acts → c = LimiterConfig.standard := by
    intro k c reading hmem
    have hfirst : k = key ∧ c = LimiterConfig.standard ∧ reading = 0 := by
      simpa [acts] using hmem
    exact hfirst.2.1
  have hlive : .close ∉ acts := by simp [acts]
  have hfresh : ((FreshBuckets.start .empty).run (fun _ => .standard) acts).uses.map
      FreshUse.outcome? = [some (.ok ()), some (.error (.exceeded (.ofSecs 3)))] := by
    decide +kernel
  refine ⟨hassigned, hlive, by decide +kernel, ?_⟩
  exact (registry_unnoticed (fun _ => .standard) .empty acts hassigned hlive).1.2.trans hfresh

end LiveRegistry

end FlowControl
