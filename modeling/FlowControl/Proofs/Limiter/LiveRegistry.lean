import FlowControl.Limiter.Registered
import FlowControl.Proofs.Limiter.Registry
import FlowControl.Proofs.Limiter.Visits

/-!
# A registry at work

Handles are asked for at any time and kept for any length of time; takes and resets are
begun on them, go on question by question in any order, and may be dropped wherever they
wait, also when the store has done its part and only the answer is lost.  Sweeps run at
any time, the registry may go away, and the store may fail for a while.

Every act comes with its own reading, and nothing is assumed about their order, so a
reading that was taken earlier than it is used is covered as well.

An operation runs from its mark in the registry to the end of the mark.  `Effect` lists
what each act can do to the handles, the operations and the registry.
-/

namespace FlowControl

/-- Where an operation on a handle stands: it has not begun, it runs, or it has ended or was
dropped. -/
inductive UseStage where
  | waiting
  | running
  | ended
  deriving DecidableEq, Repr

namespace Registry

variable {α β : Type} {h : Handle}

/-- May an operation be dropped where it asks this? -/
def Ask.mayDrop : Ask → Bool
  | .enter _ | .limiter (.store _) | .limiter (.pause _) => true
  | _ => false

/-- Does a program ask as an operation on a handle does, which marks the handle busy once, and
gives the mark back once at the end? -/
def Follows (h : Handle) : UseStage → Program α → Prop
  | .waiting, .ask (.enter h') held resume => h' = h ∧ held = [] ∧ Follows h .running (resume ())
  | .running, .ask (.limiter _) held resume =>
    (∃ guards : List Guard, held = guards.map .guard ++ [.busy h]) ∧
      ∀ answer, Follows h .running (resume answer)
  | .running, .ask (.touch h') held resume =>
    h' = h ∧ held = [.busy h] ∧ Follows h .running (resume ())
  | .running, .ask (.leave h') held resume =>
    h' = h ∧ held = [.busy h] ∧ Follows h .ended (resume ())
  | .ended, .done _ => True
  | _, _ => False

/-- A question of a limiter is asked as it is; the guards that are held there are held. -/
theorem ofLimiter_ask (ask : Limiter.Ask) (guards : List Guard)
    (resume : ask.Answer → Limiter.Program α) :
    ofLimiter (.ask ask guards resume) =
      .ask (.limiter ask) (guards.map .guard) fun answer => ofLimiter (resume answer) :=
  congrArg (Routine.bind · fun answer => ofLimiter (resume answer))
    (Routine.foldl_holding_ask (I := Limiter.interface) (J := interface) Held.guard guards
      (.limiter ask) [])

/-- Work on the store may come before a program that keeps the handle busy. -/
theorem follows_ofLimiter (p : Limiter.Program α) {next : α → Program β}
    (hnext : ∀ a, Follows h .running (next a)) :
    Follows h .running (((ofLimiter p).holding (Held.busy h)).bind next) := by
  induction p with
  | done a => exact hnext a
  | ask ask guards resume ih =>
      rw [ofLimiter_ask]
      exact ⟨⟨guards, rfl⟩, fun answer => ih answer⟩

/-- Ending an operation with a result. -/
theorem follows_markFree (result : α) :
    Follows h .running ((markFree h).bind fun _ => .done result) :=
  ⟨rfl, rfl, trivial⟩

end Registry

namespace Handle

theorem follows_take (h : Handle) (token : String) (n : UInt64) :
    Registry.Follows h .waiting (h.take token n) := by
  refine ⟨rfl, rfl, Registry.follows_ofLimiter _ fun result => ?_⟩
  exact ⟨rfl, rfl, Registry.follows_markFree result⟩

theorem follows_reset (h : Handle) : Registry.Follows h .waiting h.reset :=
  ⟨rfl, rfl, Registry.follows_ofLimiter _ fun result => Registry.follows_markFree result⟩

end Handle

/-- What a use of a bucket asks of the registry when it is made through a handle. -/
def Use.program (u : Use) (h : Handle) : Registry.Program (Except LimitError Unit) :=
  match u with
  | .take token n => h.take token n
  | .reset => h.reset

theorem Use.follows_program (u : Use) (h : Handle) : Registry.Follows h .waiting (u.program h) := by
  cases u with
  | take token n => exact h.follows_take token n
  | reset => exact h.follows_reset

/-- An operation on a handle: whether it was begun, and what it has left to do, unless it was
dropped. -/
structure Operation where
  handle : Handle
  isBegun : Bool
  task : Option (Registry.Program (Except LimitError Unit))

/-- Where an operation stands. -/
def Operation.stage (o : Operation) : UseStage :=
  match o.task with
  | some (.ask ..) => if o.isBegun then .running else .waiting
  | _ => .ended

/-- Does what is left to do ask as operations do in the stage? -/
def Operation.Follows (o : Operation) : Prop :=
  ∀ p, o.task = some p → Registry.Follows o.handle o.stage p

namespace Operation

variable {h : Handle} {p : Registry.Program (Except LimitError Unit)}

/-- What is still to mark its handle busy is an operation that waits. -/
theorem ofWaiting (hp : Registry.Follows h .waiting p) :
    (⟨h, false, some p⟩ : Operation).stage = .waiting ∧
      (⟨h, false, some p⟩ : Operation).Follows := by
  cases p with
  | done result => exact hp.elim
  | ask ask held resume => exact ⟨rfl, by rintro _ ⟨⟩; exact hp⟩

/-- What keeps the handle busy is an operation that runs. -/
theorem ofRunning (hp : Registry.Follows h .running p) :
    (⟨h, true, some p⟩ : Operation).stage = .running ∧
      (⟨h, true, some p⟩ : Operation).Follows := by
  have hstage : (⟨h, true, some p⟩ : Operation).stage = .running := by
    cases p with
    | done result => exact hp.elim
    | ask ask held resume => rfl
  refine ⟨hstage, ?_⟩
  rintro _ ⟨⟩
  rw [hstage]
  exact hp

/-- What has given its mark back is an operation that has ended. -/
theorem ofEnded (hp : Registry.Follows h .ended p) :
    (⟨h, true, some p⟩ : Operation).stage = .ended ∧
      (⟨h, true, some p⟩ : Operation).Follows := by
  cases p with
  | done result => exact ⟨rfl, by rintro _ ⟨⟩; exact hp⟩
  | ask ask held resume => exact hp.elim

/-- An operation that was dropped has ended. -/
theorem ofDropped (h : Handle) (isBegun : Bool) :
    (⟨h, isBegun, none⟩ : Operation).stage = .ended ∧
      (⟨h, isBegun, none⟩ : Operation).Follows :=
  ⟨rfl, nofun⟩

end Operation

/-- A registry at work: the handles that were given out, the operations that were asked for, each
in order, the shared store, and the jobs in the background.  `unmatched` counts the marks that
were given back when there was none. -/
structure LiveRegistry where
  registry : Registry
  handles : List Handle
  operations : List Operation
  unmatched : Nat
  memory : Memory
  jobs : List (Limiter.Program Unit)

namespace LiveRegistry

/-- What can happen next: a handle is asked for, a handle is used, an operation or a job goes on, an
operation is dropped where it waits or just before it would hear from the store, a sweep, the end
of the registry, or that the store starts or stops failing. -/
inductive Act where
  | getOrCreate (key : LimiterKey) (config : LimiterConfig) (reading : UInt64)
  | use (k : Nat) (purpose : Use)
  | go (k : Nat) (reading : UInt64)
  | drop (k : Nat)
  | lose (k : Nat) (reading : UInt64)
  | job (k : Nat) (reading : UInt64)
  | sweep (reading : UInt64)
  | close
  | outage (down : Bool)

/-- A registry without limiters, over a store. -/
def start (m : Memory) : LiveRegistry := ⟨.empty, [], [], 0, m, []⟩

/-- Gives the mark of a busy bucket back. -/
def leave (s : LiveRegistry) (h : Handle) : LiveRegistry :=
  { s with
    registry := s.registry.leave h
    unmatched := if (s.registry.usage h).inFlight = 0 then s.unmatched + 1 else s.unmatched }

/-- Answers a question at a reading. -/
def answer (s : LiveRegistry) (reading : UInt64) :
    (ask : Registry.Ask) → ask.Answer × LiveRegistry
  | .limiter ask =>
    let (answer, memory) := Limiter.answerAt Memory.call reading ask s.memory
    (answer, { s with memory })
  | .enter h => ((), { s with registry := s.registry.enter h reading })
  | .touch h => ((), { s with registry := s.registry.touch h reading })
  | .leave h => ((), s.leave h)

/-- Gives up what a dropped operation held. -/
def giveUp (s : LiveRegistry) : Registry.Held → LiveRegistry
  | .guard guard => { s with jobs := s.jobs ++ [Limiter.giveUp guard] }
  | .busy h => s.leave h

/-- Changes an operation. -/
def setOperation (s : LiveRegistry) (k : Nat) (o : Operation) : LiveRegistry :=
  { s with operations := s.operations.set k o }

/-- What an act does; acts of operations that have ended do nothing. -/
def step (s : LiveRegistry) : Act → LiveRegistry
  | .getOrCreate key config reading =>
    if s.registry.isOpen then
      let (h, registry, _) := s.registry.getOrCreate key config reading
      { s with registry, handles := s.handles ++ [h] }
    else s
  | .use k purpose =>
    match s.handles[k]? with
    | some h => { s with operations := s.operations ++ [⟨h, false, some (purpose.program h)⟩] }
    | none => s
  | .go k reading =>
    match s.operations[k]? with
    | some ⟨h, _, some (.ask ask _ resume)⟩ =>
      let (answer, s) := s.answer reading ask
      s.setOperation k ⟨h, true, some (resume answer)⟩
    | _ => s
  | .drop k =>
    match s.operations[k]? with
    | some ⟨h, isBegun, some (.ask ask held _)⟩ =>
      if ask.mayDrop then held.foldl giveUp (s.setOperation k ⟨h, isBegun, none⟩) else s
    | _ => s
  | .lose k reading =>
    match s.operations[k]? with
    | some ⟨h, isBegun, some (.ask (.limiter (.store call)) held _)⟩ =>
      held.foldl giveUp
        ((s.answer reading (.limiter (.store call))).2.setOperation k ⟨h, isBegun, none⟩)
    | _ => s
  | .job k reading =>
    match s.jobs[k]? with
    | some (.ask ask _ resume) =>
      let (answer, memory) := Limiter.answerAt Memory.call reading ask s.memory
      { s with memory, jobs := s.jobs.set k (resume answer) }
    | _ => s
  | .sweep reading => { s with registry := (s.registry.sweep reading).2.1 }
  | .close => { s with registry := s.registry.close }
  | .outage down => { s with memory := { s.memory with unavailable := down } }

/-- What acts do one after another. -/
def run (s : LiveRegistry) (acts : List Act) : LiveRegistry := acts.foldl step s

/-- The number of operations that run on a handle. -/
def running (s : LiveRegistry) (h : Handle) : Nat :=
  s.operations.countP fun o => o.stage == .running && o.handle == h

/-- The handle on which an act begins an operation. -/
def begins? (s : LiveRegistry) : Act → Option Handle
  | .go k _ => (s.operations[k]?.filter fun o => o.stage == .waiting).map Operation.handle
  | _ => none

/-! ## What an act can do -/

/-- What an act can do; store and background may have changed besides. -/
inductive Effect (s : LiveRegistry) : Act → LiveRegistry → Prop
  | nothing (a : Act) (m : Memory) (jobs : List (Limiter.Program Unit)) :
      Effect s a { s with memory := m, jobs := jobs }
  | given (key : LimiterKey) (config : LimiterConfig) (reading : UInt64) :
      Effect s (.getOrCreate key config reading)
        { s with
          registry := (s.registry.getOrCreate key config reading).2.1
          handles := s.handles ++ [(s.registry.getOrCreate key config reading).1] }
  | used (k : Nat) (purpose : Use) {h : Handle} (hmem : h ∈ s.handles) :
      Effect s (.use k purpose)
        { s with operations := s.operations ++ [⟨h, false, some (purpose.program h)⟩] }
  | moved (a : Act) (m : Memory) {k : Nat} {o o' : Operation} (ho : s.operations[k]? = some o)
      (hhandle : o'.handle = o.handle) (hstage : o'.stage = .running ↔ o.stage = .running)
      (hfollows : o'.Follows) :
      Effect s a { s with memory := m, operations := s.operations.set k o' }
  | begun {k : Nat} (reading : UInt64) {o o' : Operation} (ho : s.operations[k]? = some o)
      (hwaiting : o.stage = .waiting) (hhandle : o'.handle = o.handle)
      (hstage : o'.stage = .running)
      (hfollows : o'.Follows) :
      Effect s (.go k reading)
        { s with
          registry := s.registry.enter o.handle reading
          operations := s.operations.set k o' }
  | touched {k : Nat} (reading : UInt64) {o o' : Operation} (ho : s.operations[k]? = some o)
      (hhandle : o'.handle = o.handle) (hstage : o'.stage = .running ↔ o.stage = .running)
      (hfollows : o'.Follows) :
      Effect s (.go k reading)
        { s with
          registry := s.registry.touch o.handle reading
          operations := s.operations.set k o' }
  | finished (a : Act) (m : Memory) (jobs : List (Limiter.Program Unit)) {k : Nat}
      {o o' : Operation} (ho : s.operations[k]? = some o) (hrunning : o.stage = .running)
      (hhandle : o'.handle = o.handle) (hended : o'.stage = .ended)
      (hfollows : o'.Follows) :
      Effect s a
        { s.leave o.handle with memory := m, jobs := jobs, operations := s.operations.set k o' }
  | swept (reading : UInt64) :
      Effect s (.sweep reading) { s with registry := (s.registry.sweep reading).2.1 }
  | closed : Effect s .close { s with registry := s.registry.close }

variable {s : LiveRegistry} {k : Nat} {o : Operation} {reading : UInt64}

theorem foldl_giveUp_guards (s : LiveRegistry) (guards : List Guard) :
    (guards.map Registry.Held.guard).foldl giveUp s =
      { s with jobs := s.jobs ++ guards.map Limiter.giveUp } := by
  induction guards generalizing s with
  | nil => rw [List.map_nil, List.map_nil, List.append_nil]; rfl
  | cons g guards ih =>
      rw [List.map_cons, List.map_cons, List.foldl_cons, ih, List.append_cons]
      rfl

/-- An operation that is dropped gives its mark back once. -/
theorem foldl_giveUp (s : LiveRegistry) (guards : List Guard) (h : Handle) :
    (guards.map Registry.Held.guard ++ [Registry.Held.busy h]).foldl giveUp s =
      { s.leave h with jobs := s.jobs ++ guards.map Limiter.giveUp } := by
  rw [List.foldl_append, foldl_giveUp_guards]
  rfl

/-- An operation that waits begins by its mark in the registry. -/
theorem step_go_of_waiting (hfollows : o.Follows) (ho : s.operations[k]? = some o)
    (hwaiting : o.stage = .waiting) (reading : UInt64) :
    ∃ o' : Operation, o'.handle = o.handle ∧ o'.stage = .running ∧ o'.Follows ∧
      s.step (.go k reading) = { s with
        registry := s.registry.enter o.handle reading
        operations := s.operations.set k o' } := by
  obtain ⟨h, isBegun, task⟩ := o
  cases task with
  | none => cases hwaiting
  | some p =>
      cases p with
      | done result => cases hwaiting
      | ask ask held resume =>
          have hp := hfollows _ rfl
          rw [hwaiting] at hp
          cases ask with
          | enter h' =>
              obtain ⟨hsame, -, hnext⟩ := hp
              obtain rfl : h' = h := hsame
              obtain ⟨hstage, hfollows'⟩ := Operation.ofRunning hnext
              refine ⟨⟨h', true, some (resume ())⟩, rfl, hstage, hfollows', ?_⟩
              simp only [step, ho]
              rfl
          | _ => exact hp.elim

theorem begins?_eq_some_iff {a : Act} {h : Handle} :
    s.begins? a = some h ↔ ∃ k reading o, a = .go k reading ∧ s.operations[k]? = some o ∧
      o.stage = .waiting ∧ o.handle = h := by
  constructor
  · intro hbegins
    cases a with
    | go k reading =>
        obtain ⟨o, ho, hhandle⟩ := Option.map_eq_some_iff.mp hbegins
        obtain ⟨ho, hwaiting⟩ := Option.filter_eq_some_iff.mp ho
        exact ⟨k, reading, o, rfl, ho, eq_of_beq hwaiting, hhandle⟩
    | _ => cases hbegins
  · rintro ⟨k, reading, o, rfl, ho, hwaiting, rfl⟩
    simp [begins?, ho, hwaiting]

/-- An answer to an operation does one of these, if operations ask as they do. -/
theorem effect_go (hfollow : ∀ o ∈ s.operations, o.Follows) (k : Nat) (reading : UInt64) :
    Effect s (.go k reading) (s.step (.go k reading)) := by
  by_cases hbegins : ∃ o, s.operations[k]? = some o ∧ o.stage = .waiting
  · obtain ⟨o, ho, hwaiting⟩ := hbegins
    obtain ⟨o', hhandle, hstage, hfollows, hstep⟩ :=
      step_go_of_waiting (hfollow o (List.mem_of_getElem? ho)) ho hwaiting reading
    rw [hstep]
    exact .begun reading ho hwaiting hhandle hstage hfollows
  simp only [step]
  split
  · next h isBegun ask held resume ho =>
    have hp := hfollow _ (List.mem_of_getElem? ho) _ rfl
    -- What has begun has its mark, so it does not ask for one again.
    cases isBegun with
    | false => exact absurd ⟨_, ho, rfl⟩ hbegins
    | true =>
        cases ask with
        | limiter ask =>
            obtain ⟨-, hnext⟩ := hp
            obtain ⟨hstage, hfollows⟩ := Operation.ofRunning (hnext _)
            exact .moved _ _ ho rfl (iff_of_true hstage rfl) hfollows
        | touch h' =>
            obtain ⟨rfl, -, hnext⟩ := hp
            obtain ⟨hstage, hfollows⟩ := Operation.ofRunning hnext
            exact .touched reading ho rfl (iff_of_true hstage rfl) hfollows
        | leave h' =>
            obtain ⟨rfl, -, hnext⟩ := hp
            obtain ⟨hstage, hfollows⟩ := Operation.ofEnded hnext
            exact .finished _ s.memory s.jobs ho rfl rfl hstage hfollows
        | enter h' => exact hp.elim
  · exact .nothing _ s.memory s.jobs

/-- Dropping an operation that waits, or that runs, does one of these. -/
theorem effect_drop (hfollow : ∀ o ∈ s.operations, o.Follows) (k : Nat) :
    Effect s (.drop k) (s.step (.drop k)) := by
  simp only [step]
  split
  · next h isBegun ask held resume ho =>
    have hp := hfollow _ (List.mem_of_getElem? ho) _ rfl
    split
    · next hmay =>
      obtain ⟨hstage, hfollows⟩ := Operation.ofDropped h isBegun
      cases isBegun with
      | false =>
          cases ask with
          | enter h' =>
              -- Nothing is held yet, so there is no mark to give back.
              obtain ⟨rfl, rfl, -⟩ := hp
              exact .moved _ s.memory ho rfl (iff_of_false nofun nofun) hfollows
          | _ => exact hp.elim
      | true =>
          cases ask with
          | limiter ask =>
              obtain ⟨⟨guards, hheld⟩, -⟩ := hp
              obtain rfl : held = guards.map Registry.Held.guard ++ [Registry.Held.busy h] := hheld
              rw [foldl_giveUp]
              exact .finished _ s.memory _ ho rfl rfl hstage hfollows
          | enter h' => exact hp.elim
          | touch h' | leave h' => cases hmay
    · exact .nothing _ s.memory s.jobs
  · exact .nothing _ s.memory s.jobs

/-- So does losing an answer of the store. -/
theorem effect_lose (hfollow : ∀ o ∈ s.operations, o.Follows) (k : Nat) (reading : UInt64) :
    Effect s (.lose k reading) (s.step (.lose k reading)) := by
  simp only [step]
  split
  · next h isBegun call held resume ho =>
    have hp := hfollow _ (List.mem_of_getElem? ho) _ rfl
    cases isBegun with
    | false => exact hp.elim
    | true =>
        -- The store has done its part; that is a change of the store like any other.
        obtain ⟨⟨guards, hheld⟩, -⟩ := hp
        obtain rfl : held = guards.map Registry.Held.guard ++ [Registry.Held.busy h] := hheld
        obtain ⟨hstage, hfollows⟩ := Operation.ofDropped h true
        rw [foldl_giveUp]
        exact .finished _ _ _ ho rfl rfl hstage hfollows
  · exact .nothing _ s.memory s.jobs

/-- Every act does one of these, if operations ask as they do. -/
theorem effect_step (hfollow : ∀ o ∈ s.operations, o.Follows) (a : Act) :
    Effect s a (s.step a) := by
  cases a with
  | getOrCreate key config reading =>
      simp only [step]
      split
      · exact .given key config reading
      · exact .nothing _ s.memory s.jobs
  | use k purpose =>
      simp only [step]
      split
      · next h hget => exact .used k purpose (List.mem_of_getElem? hget)
      · exact .nothing _ s.memory s.jobs
  | go k reading => exact effect_go hfollow k reading
  | drop k => exact effect_drop hfollow k
  | lose k reading => exact effect_lose hfollow k reading
  | job k reading =>
      simp only [step]
      split
      · exact .nothing _ _ _
      · exact .nothing _ s.memory s.jobs
  | sweep reading => exact .swept reading
  | close => exact .closed
  | outage down => exact .nothing _ _ s.jobs

end LiveRegistry

end FlowControl
