import FlowControl.Proofs.Limiter.SerialPlay
import FlowControl.Proofs.Limiter.Visits

/-!
# Takes and resets in the order of what they store

Takes and resets of one bucket are interleaved question by question over a store that
answers.  If nothing is stored between what a take has read and what it stores, then every
result and the stored state are those of the same uses made one after another, each at
its own readings, in the order in which they stored.  A take that reads a text that is no
state stores nothing; it has its place where it read.

Locks play no part here: what keeps others from storing is the subject of another module.
-/

namespace FlowControl

open Limiter

/-- A use in its place: whose it is, and the readings at which it read the clock, read the state
and stored. -/
structure Visit (ι : Type) where
  party : ι
  now : UInt64
  loaded : UInt64
  saved : UInt64
  deriving DecidableEq, Repr

/-- Questions that read the clock. -/
def Limiter.isClock : Ask → Bool
  | .now => true
  | _ => false

/-- Questions that read the store. -/
def Limiter.isLoad : Ask → Bool
  | .store (.get _) => true
  | _ => false

/-- The reading of a party's last question of a kind. -/
def lastReading {ι : Type} [DecidableEq ι] (i : ι) (kind : Ask → Bool) :
    List (Moment ι) → UInt64
  | [] => 0
  | e :: older =>
    if e.party = some i ∧ kind e.ask = true then e.reading else lastReading i kind older

namespace Bucket

/-! ## Uses one after another -/

/-- What a use finds stored; a reset does not look. -/
def look (b : Bucket) (u : Use) (loaded : UInt64) (m : Memory) :
    Except LimitError (Option TokenState) :=
  match u with
  | .take .. => b.reads (m.live? b.key.stateKey loaded)
  | .reset => .ok none

/-- A use between others: its result, and the store it leaves. -/
def visit (b : Bucket) (u : Use) (now loaded saved : UInt64) (m : Memory) :
    Except LimitError Unit × Memory :=
  match b.look u loaded m with
  | .error error => (.error error, m)
  | .ok state =>
    ((b.settle now state u).1, m.put b.key.stateKey
      ⟨(b.settle now state u).2.encode, Memory.expiry saved b.config.stateTtl⟩)

variable {ι : Type} [DecidableEq ι]

/-- Uses one after another: their results, and the store they leave. -/
def play (b : Bucket) (purpose : ι → Use) :
    List (Visit ι) → Memory → List (ι × Except LimitError Unit) × Memory
  | [], m => ([], m)
  | v :: vs, m =>
    let (result, m) := b.visit (purpose v.party) v.now v.loaded v.saved m
    let (results, m) := b.play purpose vs m
    ((v.party, result) :: results, m)

/-- Does a moment store a state, or read a text that is no state? -/
def decides (b : Bucket) (e : Moment ι) : Bool :=
  match e.ask with
  | .store (.set key _ _) => key == b.key.stateKey
  | .store (.get _) => !(b.reads (e.before.live? b.key.stateKey e.reading)).isOk
  | _ => false

/-- The uses of a past in the order in which they stored, or found that they could not. -/
def visits (b : Bucket) : List (Moment ι) → List (Visit ι)
  | [] => []
  | e :: older =>
    match e.party, b.decides e with
    | some i, true => b.visits older ++
        [⟨i, lastReading i isClock older, lastReading i isLoad (e :: older), e.reading⟩]
    | _, _ => b.visits older

/-- Has nothing been stored since the party last read the state? -/
def Fresh (b : Bucket) (i : ι) : List (Moment ι) → Prop
  | [] => True
  | e :: older => (e.party = some i ∧ isLoad e.ask = true) ∨
      (¬ e.Saves b.key.stateKey ∧ b.Fresh i older)

/-- Was nothing stored between what a take has read and what it stored? -/
def Undisturbed (b : Bucket) (purpose : ι → Use) : List (Moment ι) → Prop
  | [] => True
  | e :: older => (∀ i, e.party = some i → purpose i ≠ .reset → e.Saves b.key.stateKey →
      b.Fresh i older) ∧ b.Undisturbed purpose older

/-! ## Histories -/

/-- What has happened to uses of a bucket: the past of the store, how far each use has come, and
the store.  Readings do not go back. -/
inductive History (b : Bucket) (purpose : ι → Use) (m₀ : Memory) :
    List (Moment ι) → (ι → VisitStage) → Memory → Prop where
  | start : History b purpose m₀ [] (fun i => (purpose i).first) m₀
  | moved {past : List (Moment ι)} {stages : ι → VisitStage} {m : Memory} {i : ι} {r : UInt64}
      {ask : Ask} {stage : VisitStage} (h : History b purpose m₀ past stages m)
      (hreached : Reached past r)
      (hmoves : Moves b (purpose i) (Moment.of (some i) r ask m) (stages i) stage) :
      History b purpose m₀ (Moment.of (some i) r ask m :: past)
        (fun j => if j = i then stage else stages j) (answerAt Memory.call r ask m).2

variable {b : Bucket} {purpose : ι → Use} {m₀ m : Memory} {past : List (Moment ι)}
  {stages : ι → VisitStage} {f : Fleet ι (Except LimitError Unit)} {e : Moment ι} {i j : ι}
  {u : Use} {stage stage' : VisitStage} {r t : UInt64} {ask : Ask}

theorem unavailable_answerAt (hup : m.unavailable = false) (r : UInt64) (ask : Ask) :
    (answerAt Memory.call r ask m).2.unavailable = false := by
  cases ask with
  | store c => exact (Memory.unavailable_call m r c).trans hup
  | _ => exact hup

theorem History.up (h : History b purpose m₀ past stages m) (hup : m₀.unavailable = false) :
    m.unavailable = false := by
  induction h with
  | start => exact hup
  | moved h hreached hmoves ih => exact unavailable_answerAt ih _ _

/-- The uses of a fleet go on with its history. -/
theorem history_run (hup : m₀.unavailable = false) (schedule : List (ι × UInt64))
    (horder : schedule.Pairwise fun x y => x.2 ≤ y.2)
    (hreached : ∀ x ∈ schedule, Reached f.past x.2)
    (h : History b purpose m₀ f.past stages f.memory)
    (htasks : ∀ i, ∃ p, f.task i = some p ∧ b.Visits (purpose i) (stages i) p) :
    let f' := f.run (schedule.map fun x => .go x.1 x.2)
    ∃ stages, History b purpose m₀ f'.past stages f'.memory ∧
      ∀ i, ∃ p, f'.task i = some p ∧ b.Visits (purpose i) (stages i) p := by
  induction schedule generalizing f stages with
  | nil => exact ⟨stages, h, htasks⟩
  | cons x schedule ih =>
      obtain ⟨i, r⟩ := x
      obtain ⟨hlater, horder⟩ := List.pairwise_cons.mp horder
      rw [List.map_cons, Fleet.run_cons]
      obtain ⟨p, htask, hp⟩ := htasks i
      cases p with
      | done result =>
          rw [Fleet.step_go_done htask]
          exact ih horder (fun x hx => hreached x (List.mem_cons_of_mem _ hx)) h htasks
      | ask ask held resume =>
          obtain ⟨stage, hmoves, hnext⟩ := hp.moves (h.up hup) i r
          rw [Fleet.step_go_ask htask]
          refine ih horder ?_ (h.moved (hreached (i, r) List.mem_cons_self) hmoves) fun j => ?_
          · intro x hx
            exact reached_cons.mpr ⟨hlater x hx, hreached x (List.mem_cons_of_mem _ hx)⟩
          · by_cases hj : j = i
            · subst hj
              exact ⟨_, if_pos rfl, by rw [if_pos rfl]; exact hnext⟩
            · obtain ⟨p, hp⟩ := htasks j
              refine ⟨p, (if_neg hj).trans hp.1, ?_⟩
              rw [if_neg hj]
              exact hp.2

/-! ## What a moment adds -/

theorem lastReading_of_other {kind : Ask → Bool} (hparty : e.party = some i) (hne : j ≠ i) :
    lastReading j kind (e :: past) = lastReading j kind past :=
  if_neg fun h => hne (Option.some.inj (h.1.symm.trans hparty))

theorem lastReading_of_not {kind : Ask → Bool} (hkind : kind e.ask = false) :
    lastReading i kind (e :: past) = lastReading i kind past :=
  if_neg fun h => Bool.false_ne_true (hkind.symm.trans h.2)

theorem lastReading_self {kind : Ask → Bool} (hparty : e.party = some i)
    (hkind : kind e.ask = true) : lastReading i kind (e :: past) = e.reading :=
  if_pos ⟨hparty, hkind⟩

theorem visits_of_not_decides (hdecides : b.decides e = false) :
    b.visits (e :: past) = b.visits past := by
  rw [visits]
  split
  · next h => exact absurd (hdecides.symm.trans h) Bool.false_ne_true
  · rfl

theorem visits_of_decides (hparty : e.party = some i) (hdecides : b.decides e = true) :
    b.visits (e :: past) = b.visits past ++
      [⟨i, lastReading i isClock past, lastReading i isLoad (e :: past), e.reading⟩] := by
  rw [visits]
  simp only [hparty, hdecides]

omit [DecidableEq ι] in
theorem play_concat (vs : List (Visit ι)) (v : Visit ι) (m : Memory) :
    let before := b.play purpose vs m
    let last := b.visit (purpose v.party) v.now v.loaded v.saved before.2
    b.play purpose (vs ++ [v]) m = (before.1 ++ [(v.party, last.1)], last.2) := by
  induction vs generalizing m with
  | nil => rfl
  | cons w vs ih => simp only [List.cons_append, play, ih]

omit [DecidableEq ι] in
/-- What does not store leaves the state as it is shown. -/
theorem Moves.live?_of_not_saves (hmoves : Moves b u (Moment.of (some i) r ask m) stage stage')
    (hup : m.unavailable = false)
    (hsaves : ¬ (Moment.of (some i) r ask m).Saves b.key.stateKey) (ht : r ≤ t) :
    (answerAt Memory.call r ask m).2.live? b.key.stateKey t = m.live? b.key.stateKey t := by
  have hother : ∀ c : StoreCall, c.key = b.key.lockKey →
      (answerAt Memory.call r (.store c) m).2.live? b.key.stateKey t =
        m.live? b.key.stateKey t := by
    intro c hkey
    refine Memory.live?_congr ?_
    show (m.call r c).2.find? b.key.stateKey = _
    rw [Memory.call_of_available hup]
    exact Memory.find?_answer_of_ne c (hkey ▸ b.key.lockKey_ne_stateKey)
  cases hmoves with
  | waits hu hask hgrant =>
      rcases hask with ⟨length, rfl⟩ | ⟨event, rfl⟩ | rfl
      · rfl
      · rfl
      · exact hother _ rfl
  | enters hu hask hgrant =>
      obtain rfl : ask = _ := hask
      exact hother _ rfl
  | notes hask | clocks hask =>
      obtain rfl : ask = _ := hask
      rfl
  | loads hu hask now =>
      obtain rfl : ask = _ := hask
      show (m.call r _).2.live? _ t = _
      rw [Memory.call_of_available hup]
      exact Memory.live?_purge ht
  | saves now state hask => exact absurd ⟨_, _, hask⟩ hsaves
  | frees hu hask result =>
      obtain rfl : ask = _ := hask
      exact hother _ rfl
  | clears hu hask result =>
      obtain rfl : ask = _ := hask
      exact hother _ rfl

/-! ## Beside serial play -/

/-- The results of the uses of a past made one after another, and the store they leave. -/
def played (b : Bucket) (purpose : ι → Use) (m₀ : Memory) (past : List (Moment ι)) :
    List (ι × Except LimitError Unit) × Memory :=
  b.play purpose (b.visits past) m₀

/-- Has the party no place among the uses yet? -/
def Unplaced (b : Bucket) (past : List (Moment ι)) (i : ι) : Prop :=
  i ∉ (b.visits past).map Visit.party

/-- What is known of a use in a stage: where it stands beside serial play. -/
def Known (b : Bucket) (purpose : ι → Use) (m₀ : Memory) (past : List (Moment ι)) (i : ι) :
    VisitStage → Prop
  | .outside => (∀ e ∈ past, e.party = some i → e.grant? = none) ∧ b.Unplaced past i
  | .entered => b.Unplaced past i
  | .clocked now => b.Unplaced past i ∧ lastReading i isClock past = now
  | .loaded now state => (b.Unplaced past i ∧ lastReading i isClock past = now) ∧
      ((purpose i ≠ .reset → b.Fresh i past) →
        b.look (purpose i) (lastReading i isLoad past) (b.played purpose m₀ past).2 = .ok state)
  | .settled result => (i, result) ∈ (b.played purpose m₀ past).1

/-- The history stands where serial play of its uses leads. -/
structure Beside (b : Bucket) (purpose : ι → Use) (m₀ : Memory) (past : List (Moment ι))
    (stages : ι → VisitStage) (m : Memory) : Prop where
  nodup : ((b.visits past).map Visit.party).Nodup
  known : ∀ i, b.Known purpose m₀ past i (stages i)
  shows : ∀ t, Reached past t →
    m.live? b.key.stateKey t = (b.played purpose m₀ past).2.live? b.key.stateKey t

/-- How serial play goes on with a moment of a party: others keep their places and results, and the
store changes only if the moment stores. -/
structure Adds (b : Bucket) (purpose : ι → Use) (m₀ : Memory) (i : ι) (e : Moment ι)
    (past : List (Moment ι)) : Prop where
  results : ∀ x ∈ (b.played purpose m₀ past).1, x ∈ (b.played purpose m₀ (e :: past)).1
  unplaced : ∀ j, j ≠ i → b.Unplaced past j → b.Unplaced (e :: past) j
  memory : ¬ e.Saves b.key.stateKey →
    (b.played purpose m₀ (e :: past)).2 = (b.played purpose m₀ past).2

theorem adds_of_not_decides (hdecides : b.decides e = false) : Adds b purpose m₀ i e past := by
  have hvisits : b.visits (e :: past) = b.visits past := visits_of_not_decides hdecides
  refine ⟨?_, ?_, fun _ => ?_⟩
  · unfold played
    rw [hvisits]
    exact fun _ hx => hx
  · unfold Unplaced
    rw [hvisits]
    exact fun _ _ hj => hj
  · unfold played
    rw [hvisits]

/-- What is known of the others stays so. -/
theorem Known.others (h : b.Known purpose m₀ past j stage) (hadds : Adds b purpose m₀ i e past)
    (hparty : e.party = some i) (hne : j ≠ i) : b.Known purpose m₀ (e :: past) j stage := by
  cases stage with
  | outside =>
      refine ⟨fun d hd hj => ?_, hadds.unplaced j hne h.2⟩
      rcases List.mem_cons.mp hd with rfl | hd
      · exact absurd (Option.some.inj (hj.symm.trans hparty)) hne
      · exact h.1 d hd hj
  | entered => exact hadds.unplaced j hne h
  | clocked now => exact ⟨hadds.unplaced j hne h.1, (lastReading_of_other hparty hne).trans h.2⟩
  | loaded now state =>
      obtain ⟨⟨hplace, hnow⟩, hlook⟩ := h
      refine ⟨⟨hadds.unplaced j hne hplace, (lastReading_of_other hparty hne).trans hnow⟩, ?_⟩
      intro hfresh
      rw [lastReading_of_other hparty hne]
      by_cases hreset : purpose j = .reset
      · have hbefore := hlook fun hne => absurd hreset hne
        rw [hreset] at hbefore ⊢
        exact hbefore
      · -- The other stored nothing, or what was read would not be fresh.
        obtain ⟨hself, -⟩ | ⟨hsaves, hfresh⟩ := hfresh hreset
        · exact absurd (Option.some.inj (hself.symm.trans hparty)) hne
        · rw [hadds.memory hsaves]
          exact hlook fun _ => hfresh
  | settled result => exact hadds.results _ h

/-- What is known of all parties, when what is known of the one that moves is. -/
theorem Beside.known_cons (h : Beside b purpose m₀ past stages m)
    (hadds : Adds b purpose m₀ i e past) (hparty : e.party = some i)
    (hknown : b.Known purpose m₀ (e :: past) i stage) (j : ι) :
    b.Known purpose m₀ (e :: past) j (if j = i then stage else stages j) := by
  by_cases hj : j = i
  · subst hj
    rw [if_pos rfl]
    exact hknown
  · rw [if_neg hj]
    exact (h.known j).others hadds hparty hj

/-- A moment that decides nothing and stores nothing is not noticed. -/
theorem Beside.passes (h : Beside b purpose m₀ past stages m)
    (hmoves : Moves b (purpose i) (Moment.of (some i) r ask m) (stages i) stage)
    (hup : m.unavailable = false) (hdecides : b.decides (Moment.of (some i) r ask m) = false)
    (hknown : b.Known purpose m₀ (Moment.of (some i) r ask m :: past) i stage) :
    Beside b purpose m₀ (Moment.of (some i) r ask m :: past)
      (fun j => if j = i then stage else stages j) (answerAt Memory.call r ask m).2 := by
  have hadds : Adds b purpose m₀ i (Moment.of (some i) r ask m) past :=
    adds_of_not_decides hdecides
  have hsaves : ¬ (Moment.of (some i) r ask m).Saves b.key.stateKey := by
    rintro ⟨text, ttl, hask⟩
    simp [decides, hask] at hdecides
  refine ⟨?_, h.known_cons hadds rfl hknown, fun t ht => ?_⟩
  · rw [visits_of_not_decides hdecides]
    exact h.nodup
  · obtain ⟨hr, ht⟩ := reached_cons.mp ht
    rw [hadds.memory hsaves, hmoves.live?_of_not_saves hup hsaves hr]
    exact h.shows t ht

/-- A moment that decides gives its party the next place. -/
theorem played_of_decides (purpose : ι → Use) (m₀ : Memory) (hparty : e.party = some i)
    (hdecides : b.decides e = true) :
    let last := b.visit (purpose i) (lastReading i isClock past)
      (lastReading i isLoad (e :: past)) e.reading (b.played purpose m₀ past).2
    b.played purpose m₀ (e :: past) =
      ((b.played purpose m₀ past).1 ++ [(i, last.1)], last.2) := by
  unfold played
  rw [visits_of_decides hparty hdecides, play_concat]

theorem Beside.decides (h : Beside b purpose m₀ past stages m)
    (hparty : e.party = some i) (hdecides : b.decides e = true) (hplace : b.Unplaced past i)
    {result : Except LimitError Unit} {m' after : Memory}
    (hvisit : b.visit (purpose i) (lastReading i isClock past)
      (lastReading i isLoad (e :: past)) e.reading (b.played purpose m₀ past).2 = (result, m'))
    (hmemory : ¬ e.Saves b.key.stateKey → m' = (b.played purpose m₀ past).2)
    (hshows : ∀ t, Reached (e :: past) t →
      after.live? b.key.stateKey t = m'.live? b.key.stateKey t) :
    Beside b purpose m₀ (e :: past) (fun j => if j = i then .settled result else stages j)
      after := by
  have hplayed : b.played purpose m₀ (e :: past) =
      ((b.played purpose m₀ past).1 ++ [(i, result)], m') := by
    rw [played_of_decides purpose m₀ hparty hdecides, hvisit]
  have hparties :
      (b.visits (e :: past)).map Visit.party = (b.visits past).map Visit.party ++ [i] := by
    rw [visits_of_decides hparty hdecides, List.map_append]
    rfl
  have hadds : Adds b purpose m₀ i e past := by
    refine ⟨?_, ?_, ?_⟩
    · rw [hplayed]
      exact fun x hx => List.mem_append_left _ hx
    · unfold Unplaced
      rw [hparties]
      intro j hj hbefore hmem
      rcases List.mem_append.mp hmem with hmem | hmem
      · exact hbefore hmem
      · exact hj (List.mem_singleton.mp hmem)
    · rw [hplayed]
      exact hmemory
  refine ⟨?_, h.known_cons hadds hparty ?_, ?_⟩
  · rw [hparties]
    refine List.nodup_append.mpr ⟨h.nodup, by simp, ?_⟩
    rintro j hj _ hi rfl
    exact hplace (List.mem_singleton.mp hi ▸ hj)
  · show (i, result) ∈ (b.played purpose m₀ (e :: past)).1
    rw [hplayed]
    exact List.mem_append_right _ List.mem_cons_self
  · rw [hplayed]
    exact hshows

theorem Unplaced.passes (h : b.Unplaced past i) (hdecides : b.decides e = false) :
    b.Unplaced (e :: past) i := by
  unfold Unplaced
  rw [visits_of_not_decides hdecides]
  exact h

/-- A question that neither reads nor stores tells a use nothing. -/
theorem Known.passes (h : b.Known purpose m₀ past i stage) (hdecides : b.decides e = false)
    (hgrant : e.grant? = none) (hclock : isClock e.ask = false) (hload : isLoad e.ask = false) :
    b.Known purpose m₀ (e :: past) i stage := by
  have hadds : Adds b purpose m₀ i e past := adds_of_not_decides hdecides
  cases stage with
  | outside => exact ⟨List.forall_mem_cons.mpr ⟨fun _ => hgrant, h.1⟩, h.2.passes hdecides⟩
  | entered => exact Unplaced.passes h hdecides
  | clocked now => exact ⟨h.1.passes hdecides, (lastReading_of_not hclock).trans h.2⟩
  | loaded now state =>
      obtain ⟨⟨hplace, hnow⟩, hlook⟩ := h
      refine ⟨⟨hplace.passes hdecides, (lastReading_of_not hclock).trans hnow⟩, fun hfresh => ?_⟩
      have hvisits : b.visits (e :: past) = b.visits past := visits_of_not_decides hdecides
      rw [lastReading_of_not hload, played, hvisits]
      refine hlook fun hreset => ?_
      obtain ⟨-, hself⟩ | ⟨-, hfresh⟩ := hfresh hreset
      · exact absurd (hload.symm.trans hself) Bool.false_ne_true
      · exact hfresh
  | settled result => exact hadds.results _ h

/-- A take that reads the state sees what serial play shows. -/
theorem Beside.loads (h : Beside b purpose m₀ past stages m) (hup : m.unavailable = false)
    (hreached : Reached past r) {now : UInt64} (hstage : stages i = .clocked now)
    (hu : purpose i ≠ .reset) :
    let e := Moment.of (some i) r (.store (.get b.key.stateKey)) m
    let read := b.reads (m.live? b.key.stateKey r)
    Beside b purpose m₀ (e :: past) (fun j => if j = i then .ofRead now read else stages j)
      (answerAt Memory.call r (.store (.get b.key.stateKey)) m).2 := by
  intro e read
  have hmoves : Moves b (purpose i) e (stages i) (.ofRead now read) := hstage ▸ .loads hu rfl now
  obtain ⟨hplace, hnow⟩ : b.Unplaced past i ∧ lastReading i isClock past = now := by
    have hknown := h.known i
    rw [hstage] at hknown
    exact hknown
  have hlook : b.look (purpose i) r (b.played purpose m₀ past).2 = read := by
    cases hpurpose : purpose i with
    | take token n =>
        show b.reads _ = _
        rw [← h.shows r hreached]
    | reset => exact absurd hpurpose hu
  have hself : lastReading i isLoad (e :: past) = r := lastReading_self rfl rfl
  have hsaves : ¬ e.Saves b.key.stateKey := nofun
  -- A text that is no state ends the take at once: this is its place among the uses.
  cases hread : read with
  | ok state =>
      have hdecides : b.decides e = false := by
        show (!(read).isOk) = false
        rw [hread]
        rfl
      rw [hread] at hmoves hlook
      refine h.passes hmoves hup hdecides ⟨⟨hplace.passes hdecides, ?_⟩, fun _ => ?_⟩
      · exact (lastReading_of_not rfl).trans hnow
      · rw [hself, (adds_of_not_decides (i := i) hdecides).memory hsaves]
        exact hlook
  | error error =>
      have hdecides : b.decides e = true := by
        show (!(read).isOk) = true
        rw [hread]
        rfl
      have hvisit : b.visit (purpose i) (lastReading i isClock past)
          (lastReading i isLoad (e :: past)) e.reading (b.played purpose m₀ past).2 =
          (.error error, (b.played purpose m₀ past).2) := by
        rw [hself, visit, hlook, hread]
      refine h.decides rfl hdecides hplace hvisit (fun _ => rfl) fun t ht => ?_
      · obtain ⟨hr, ht⟩ := reached_cons.mp ht
        rw [hmoves.live?_of_not_saves hup hsaves hr]
        exact h.shows t ht

/-- A use that stores, stores what serial play stores, if nothing was stored since it read. -/
theorem Beside.saves (h : Beside b purpose m₀ past stages m) (hup : m.unavailable = false)
    {now : UInt64} {state : Option TokenState} (hstage : stages i = .loaded now state)
    (hfresh : purpose i ≠ .reset → b.Fresh i past) :
    let settled := b.settle now state (purpose i)
    let ask := Ask.store (.set b.key.stateKey settled.2.encode b.config.stateTtl)
    Beside b purpose m₀ (Moment.of (some i) r ask m :: past)
      (fun j => if j = i then .settled settled.1 else stages j)
      (answerAt Memory.call r ask m).2 := by
  intro settled ask
  obtain ⟨⟨hplace, hnow⟩, hlook⟩ : (b.Unplaced past i ∧ lastReading i isClock past = now) ∧
      ((purpose i ≠ .reset → b.Fresh i past) →
        b.look (purpose i) (lastReading i isLoad past) (b.played purpose m₀ past).2 =
          .ok state) := by
    have hknown := h.known i
    rw [hstage] at hknown
    exact hknown
  have hdecides : b.decides (Moment.of (some i) r ask m) = true := beq_self_eq_true b.key.stateKey
  have hload : lastReading i isLoad (Moment.of (some i) r ask m :: past) =
      lastReading i isLoad past := lastReading_of_not rfl
  have hvisit : b.visit (purpose i) (lastReading i isClock past)
      (lastReading i isLoad (Moment.of (some i) r ask m :: past)) r (b.played purpose m₀ past).2 =
      (settled.1, (b.played purpose m₀ past).2.put b.key.stateKey
        ⟨settled.2.encode, Memory.expiry r b.config.stateTtl⟩) := by
    rw [hload, visit, hlook hfresh, hnow]
  refine h.decides rfl hdecides hplace hvisit (fun hsaves => absurd ⟨_, _, rfl⟩ hsaves)
    fun t _ => ?_
  refine Memory.live?_congr ?_
  show (m.call r _).2.find? _ = _
  rw [Memory.call_of_available hup]
  exact (Memory.find?_put_self _).trans (Memory.find?_put_self _).symm

/-- If nothing was stored between what a take has read and what it stores, the history goes on
beside serial play. -/
theorem Beside.step (h : Beside b purpose m₀ past stages m) (hup : m.unavailable = false)
    (hreached : Reached past r)
    (hmoves : Moves b (purpose i) (Moment.of (some i) r ask m) (stages i) stage)
    (hundisturbed : b.Undisturbed purpose (Moment.of (some i) r ask m :: past)) :
    Beside b purpose m₀ (Moment.of (some i) r ask m :: past)
      (fun j => if j = i then stage else stages j) (answerAt Memory.call r ask m).2 := by
  have hmoves' := hmoves
  have hknown := h.known i
  generalize hstage : stages i = before at hmoves' hknown
  cases hmoves' with
  | waits hu hask hgrant =>
      have hdecides : b.decides (Moment.of (some i) r ask m) = false := by
        rcases hask with ⟨length, rfl⟩ | ⟨event, rfl⟩ | rfl <;> rfl
      refine h.passes hmoves hup hdecides ⟨?_, Unplaced.passes hknown.2 hdecides⟩
      exact List.forall_mem_cons.mpr ⟨fun _ => hgrant, hknown.1⟩
  | enters hu hask hgrant =>
      obtain rfl : ask = _ := hask
      exact h.passes hmoves hup rfl (Unplaced.passes hknown.2 rfl)
  | notes hask =>
      obtain rfl : ask = _ := hask
      exact h.passes hmoves hup rfl (Known.passes hknown rfl rfl rfl rfl)
  | frees hu hask result =>
      obtain rfl : ask = _ := hask
      exact h.passes hmoves hup rfl ((adds_of_not_decides (i := i) rfl).results _ hknown)
  | clears hu hask result =>
      obtain rfl : ask = _ := hask
      exact h.passes hmoves hup rfl ((adds_of_not_decides (i := i) rfl).results _ hknown)
  | clocks hask =>
      obtain rfl : ask = _ := hask
      have hplace : b.Unplaced (Moment.of (some i) r .now m :: past) i := Unplaced.passes hknown rfl
      have hnow : lastReading i isClock (Moment.of (some i) r .now m :: past) = r :=
        lastReading_self rfl rfl
      refine h.passes hmoves hup rfl ?_
      cases hpurpose : purpose i with
      | take token n => exact ⟨hplace, hnow⟩
      | reset =>
          -- A reset does not look, so it knows what it stores from here on.
          refine ⟨⟨hplace, hnow⟩, fun _ => ?_⟩
          rw [hpurpose]
          rfl
  | loads hu hask now =>
      obtain rfl : ask = _ := hask
      exact h.loads hup hreached hstage hu
  | saves now state hask =>
      obtain rfl : ask = _ := hask
      exact h.saves hup hstage fun hu => hundisturbed.1 i rfl hu ⟨_, _, rfl⟩

theorem beside_start (b : Bucket) (purpose : ι → Use) (m₀ : Memory) :
    Beside b purpose m₀ [] (fun i => (purpose i).first) m₀ where
  nodup := List.nodup_nil
  known i := by
    cases hpurpose : purpose i with
    | take token n => exact ⟨fun e he => absurd he List.not_mem_nil, List.not_mem_nil⟩
    | reset => exact List.not_mem_nil
  shows _ _ := rfl

/-- A history in which no take was disturbed stands beside serial play. -/
theorem History.beside (h : History b purpose m₀ past stages m) (hup : m₀.unavailable = false)
    (hundisturbed : b.Undisturbed purpose past) : Beside b purpose m₀ past stages m := by
  induction h with
  | start => exact beside_start b purpose m₀
  | moved h hreached hmoves ih =>
      exact (ih hundisturbed.2).step (h.up hup) hreached hmoves hundisturbed

end Bucket

end FlowControl
