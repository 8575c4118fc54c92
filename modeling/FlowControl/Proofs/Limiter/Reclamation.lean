import FlowControl.Proofs.Limiter.Chronicle

/-!
# When a registry removes limiters

A registry sweeps at the multiples of a period.  A limiter with nothing running on it stays
until the first sweep that comes later than its last access by more than its patience, and
is gone right after that sweep, until its key is looked up again.  So the visits alone tell
the registered keys at every moment, and how many there are.

The clock of a registry counts milliseconds in a word; what is said here holds as long as it
can show the time.  Once the sweeps have been stopped, nothing goes away any more.
-/

namespace FlowControl

/-- The keys of a condition are registered and no others, and they are as many as the registry
counts. -/
structure Registry.HoldsExactly (r : Registry) (expected : LimiterKey → Prop) : Prop where
  isRegistered : ∀ key, (r.find? key).isSome ↔ expected key
  counted : ∃ keys : List LimiterKey,
    keys.Nodup ∧ (∀ key, key ∈ keys ↔ expected key) ∧ r.size = keys.length

namespace Registry.HoldsExactly

variable {r : Registry} {expected expected' : LimiterKey → Prop}

theorem of_keys (hkeys : (r.registered.map Handle.key).Nodup)
    (hexpected : ∀ key, (∃ h ∈ r.registered, h.key = key) ↔ expected key) :
    r.HoldsExactly expected where
  isRegistered key := by
    rw [← hexpected, Registry.find?, List.find?_isSome]
    simp
  counted := by
    refine ⟨r.registered.map Handle.key, hkeys, fun key => ?_, (List.length_map _).symm⟩
    rw [← hexpected, List.mem_map]

theorem congr (hr : r.HoldsExactly expected) (hsame : ∀ key, expected key ↔ expected' key) :
    r.HoldsExactly expected' := by
  rwa [← show expected = expected' from funext fun key => propext (hsame key)]

end Registry.HoldsExactly

namespace Scenario

variable {α : Type} {rules : LimitRules} {h : Handle} {period : Nat} {swept : Bool}
  {stays : LimiterKey → Option Stay} {busy : Option Handle}
  {t met : Timeline (Gate.interface α) (LimitWorld α)} {c : Chronicle α} {m : Moment α}
  {key : LimiterKey} {config : LimiterConfig}

/-! ## Visits to a timeline -/

namespace Tells

/-- The registered keys and their number, as the accesses tell. -/
theorem holdsExactly (ht : Tells period stays busy swept t) (hperiod : 0 < period)
    (hfits : t.now ≤ Word.maxNat) :
    t.world.registry.HoldsExactly fun key =>
      (∃ h, busy = some h ∧ h.key = key) ∨
        ∃ stay, stays key = some stay ∧ Ahead (stay.due period) t.now swept := by
  obtain ⟨wake, -, hawaits, hreflects⟩ := ht
  refine .of_keys (hreflects hfits).keys fun key => ?_
  rw [(hreflects hfits).registered_iff]
  refine or_congr_right (exists_congr fun stay => and_congr_right fun _ => ?_)
  exact (hawaits.ahead_iff (stay.dvd_due period) (stay.due_pos hperiod)).symm

/-- A lookup renews the time of its key. -/
theorem lookup (ht : Tells period (stayOf period c.visits) none c.swept c.scene.timeline)
    (hperiod : 0 < period) (name : String) (key : LimiterKey) (config : LimiterConfig) :
    Tells period (stayOf period (c.visit key config c.scene.now :: c.visits)) none c.swept
        (c.scene.getOrCreate name key config).2.timeline ∧
      (c.scene.now ≤ Word.maxNat → (c.scene.getOrCreate name key config).1 ∈
        (c.scene.getOrCreate name key config).2.world.registry.registered) := by
  obtain ⟨wake, hqueue, hawaits, hreflects⟩ := ht
  have hthere : (fun stay : Stay => decide (Ahead (stay.due period) c.scene.now c.swept)) =
      fun stay : Stay => decide (wake ≤ stay.due period) := by
    refine funext fun stay => decide_eq_decide.mpr ?_
    exact hawaits.ahead_iff (stay.dvd_due period) (stay.due_pos hperiod)
  have hself := stayOf_cons_self period (c.visit key config c.scene.now) c.visits
  have hfound := fun hfits => (hreflects hfits).lookup hperiod hawaits.dvd hawaits.le_add hfits key
    config (fun _ => c.stayOf_visit_of_ne config c.scene.now)
    (hself.trans (by rw [← hthere]; rfl))
  exact ⟨⟨wake, hqueue, hawaits, fun hfits => (hfound hfits).1⟩, fun hfits => (hfound hfits).2⟩

/-- The stages of a take, after a lookup at the same instant. -/
theorem takeStages (hrules : rules.SweepsEvery period) (hkey : h.key = key)
    (hnow : t.now = c.scene.now)
    (ht : Tells period (stayOf period (c.visit key config c.scene.now :: c.visits)) none c.swept t)
    (hmem : t.now ≤ Word.maxNat → h ∈ t.world.registry.registered) :
    TakeStages rules h (· = t)
      (fun v => c.scene.now ≤ v.now ∧
        Tells period (stayOf period (c.visit key config c.scene.now :: c.visits)) (some h)
          (c.sweptAt v.now) v)
      (fun v => c.scene.now ≤ v.now ∧
        (v.now ≤ Word.maxNat → (v.world.registry.usage h).lastAccess.toNat = v.now) ∧
        Tells period (stayOf period (c.visit key config c.scene.now :: c.visits)) (some h)
          (c.sweptAt v.now) v)
      (fun v => Tells period (stayOf period (c.visit key config v.now :: c.visits)) none
        (c.sweptAt v.now) v) where
  enter v hv := by
    subst hv
    obtain ⟨wake, hqueue, hawaits, hreflects⟩ := ht
    refine ⟨Nat.le_of_eq hnow.symm, wake, hqueue, ?_, fun hfits => ?_⟩
    · show Awaits _ (c.sweptAt v.now) _ _
      rwa [hnow, c.sweptAt_now, ← hnow]
    · exact (hreflects hfits).enter hfits (hmem hfits)
  steady := Tells.steady hrules c.scene.now
  touch v hv := by
    obtain ⟨hle, wake, hqueue, hawaits, hreflects⟩ := hv
    exact ⟨hle, fun hfits => ((hreflects hfits).touch hfits).2,
      wake, hqueue, hawaits, fun hfits => ((hreflects hfits).touch hfits).1⟩
  leave v hv := by
    obtain ⟨hle, hlast, wake, hqueue, hawaits, hreflects⟩ := hv
    refine ⟨wake, hqueue, hawaits, fun hfits => ?_⟩
    refine (hreflects hfits).leave hrules.pos hawaits.dvd hawaits.le_add (hlast hfits)
      (fun other hne => ?_) ?_
    · rw [hkey] at hne
      exact (c.stayOf_visit_of_ne config v.now hne).trans
        (c.stayOf_visit_of_ne config c.scene.now hne).symm
    · rw [hkey]
      exact c.stayOf_visit key config v.now c.scene.now

end Tells

/-! ## Histories keep what the visits tell -/

/-- A chronicle under sweeps whose visits tell what is registered. -/
structure Chronicle.Sound (rules : LimitRules) (period : Nat) (c : Chronicle α) : Prop where
  rules : c.scene.rules = rules
  tells : Tells period (stayOf period c.visits) none c.swept c.scene.timeline

namespace Chronicle.Sound

theorem start {lockConfig : LockConfig} {clock : HandClock} {seed : UInt64} {scene : LimitScene α}
    (hrules : rules.SweepsEvery period)
    (hbuilt : (LimitScene.initial rules lockConfig clock seed).withSweeps = .ok scene) :
    (Chronicle.start scene).Sound rules period := by
  unfold LimitScene.withSweeps at hbuilt
  split at hbuilt
  · cases hbuilt
  split at hbuilt
  · cases hbuilt
  cases hbuilt
  have hfirst : rules.nextSweep 0 = period := by
    rw [hrules.nextSweep, Nat.zero_div, Nat.zero_add, Nat.one_mul]
  refine ⟨rfl, period, ?_, .start hrules.pos, fun _ => Registry.reflects_empty ..⟩
  exact congrArg (fun wake => [Timeline.Item.alarm wake]) hfirst

theorem surroundings (hc : c.Sound rules period) :
    c.scene.surroundings = rules.surroundings α := by
  rw [LimitScene.surroundings, hc.rules]

/-- The stages of a take that begins now. -/
theorem takeStages (hc : c.Sound rules period) (hrules : rules.SweepsEvery period) (name : String)
    (key : LimiterKey) (config : LimiterConfig) (n : UInt64) :
    TakeStages rules (c.scene.getOrCreate name key config).1
      (· = (c.taking name key config n).2)
      (fun v => c.scene.now ≤ v.now ∧
        Tells period (stayOf period (c.visit key config c.scene.now :: c.visits))
          (some (c.scene.getOrCreate name key config).1) (c.sweptAt v.now) v)
      (fun v => c.scene.now ≤ v.now ∧
        (v.now ≤ Word.maxNat → (v.world.registry.usage
          (c.scene.getOrCreate name key config).1).lastAccess.toNat = v.now) ∧
        Tells period (stayOf period (c.visit key config c.scene.now :: c.visits))
          (some (c.scene.getOrCreate name key config).1) (c.sweptAt v.now) v)
      (fun v => Tells period (stayOf period (c.visit key config v.now :: c.visits)) none
        (c.sweptAt v.now) v) := by
  obtain ⟨hfound, hmem⟩ := hc.tells.lookup hrules.pos name key config
  exact Tells.takeStages hrules (Registry.key_getOrCreate ..) rfl (hfound.world rfl) hmem

theorem play (hc : c.Sound rules period) (hrules : rules.SweepsEvery period) (act : Act α) :
    (c.play act).Sound rules period := by
  refine ⟨?_, ?_⟩
  · cases act <;> exact hc.rules
  cases act with
  | lookup name key config =>
    show Tells _ (stayOf period (c.visit key config c.scene.now :: c.visits)) none
      (c.sweptAt c.scene.now) _
    rw [c.sweptAt_now]
    exact (hc.tells.lookup hrules.pos name key config).1
  | take name key config n =>
    have hafter := (hc.takeStages hrules name key config n).run rfl
      (c.scene.getOrCreate name key config).2.freshToken.1 n
    rw [← hc.surroundings] at hafter
    exact hafter
  | sleep millis =>
    show Tells _ _ none (c.sweptAt (c.scene.timeline.sleep _ millis).now)
      (c.scene.timeline.sleep c.scene.surroundings millis)
    rw [hc.surroundings]
    refine ((Tells.steady hrules c.scene.now).sleep millis ⟨Nat.le_refl _, ?_⟩).2
    show Tells _ _ none (c.sweptAt c.scene.now) _
    rw [c.sweptAt_now]
    exact hc.tells
  | letGo =>
    show Tells _ _ none true (c.scene.timeline.settle c.scene.surroundings)
    rw [hc.surroundings]
    exact hc.tells.settle hrules
  | elsewhere change unseen => exact hc.tells.world (unseen _)

theorem playAll (hc : c.Sound rules period) (hrules : rules.SweepsEvery period)
    (acts : List (Act α)) : (c.playAll acts).Sound rules period := by
  induction acts generalizing c with
  | nil => exact hc
  | cons act acts ih => exact ih (hc.play hrules act)

end Chronicle.Sound

/-! ## What holds at every moment -/

/-- The visits of a moment tell what is registered.  A take that runs may have been noted already,
or be over; its limiter is registered in any case. -/
def Moment.Told (period : Nat) (m : Moment α) : Prop :=
  ∃ stays busy, Tells period stays busy m.swept m.timeline ∧
    (∀ key, m.busy ≠ some key → stays key = stayOf period m.visits key) ∧
    (∀ h, busy = some h → m.busy = some h.key) ∧
    ∀ key, m.busy = some key → busy = none →
      ∃ stay, stays key = some stay ∧ stay.last = m.timeline.now

namespace Moment.Told

theorem settled (hm : m.Told period) (hrules : rules.SweepsEvery period) :
    (m.settled (rules.surroundings α)).Told period := by
  obtain ⟨stays, busy, htells, hother, hbusy, hover⟩ := hm
  exact ⟨stays, busy, htells.settle hrules, hother, hbusy, hover⟩

/-- The registered keys and their number. -/
theorem holdsExactly (hm : m.Told period) (hperiod : 0 < period)
    (hfits : m.timeline.now ≤ Word.maxNat) :
    m.timeline.world.registry.HoldsExactly fun key =>
      m.busy = some key ∨ ∃ stay, stayOf period m.visits key = some stay ∧
        Ahead (stay.due period) m.timeline.now m.swept := by
  obtain ⟨stays, busy, htells, hother, hbusy, hover⟩ := hm
  refine (htells.holdsExactly hperiod hfits).congr fun key => ?_
  by_cases hkey : m.busy = some key
  · refine iff_of_true ?_ (.inl hkey)
    cases busy with
    | some h => exact .inl ⟨h, rfl, Option.some.inj ((hbusy h rfl).symm.trans hkey)⟩
    | none =>
      obtain ⟨stay, hstay, hlast⟩ := hover key hkey rfl
      have hdue := stay.lt_due hperiod
      exact .inr ⟨stay, hstay, .inl (by omega)⟩
  · rw [hother key hkey]
    refine or_congr_left (iff_of_false ?_ hkey)
    rintro ⟨h, hheld, rfl⟩
    exact hkey (hbusy h hheld)

end Moment.Told

namespace Chronicle.Sound

/-- A moment while a take runs is told by the visits. -/
theorem told_during (hc : c.Sound rules period) (hrules : rules.SweepsEvery period)
    {name : String} {n : UInt64}
    (hmeets : Timeline.Meets c.scene.surroundings (c.taking name key config n).1
      (c.taking name key config n).2 met) :
    Moment.Told period
      ⟨met, c.sweptAt met.now, c.visit key config c.scene.now :: c.visits, some key⟩ := by
  have hkey : (c.scene.getOrCreate name key config).1.key = key := Registry.key_getOrCreate ..
  have hother : ∀ finish other, some key ≠ some other →
      stayOf period (c.visit key config finish :: c.visits) other =
        stayOf period (c.visit key config c.scene.now :: c.visits) other := by
    intro finish other hne
    have hne : other ≠ key := fun hsame => hne (congrArg some hsame.symm)
    rw [c.stayOf_visit_of_ne config finish hne, c.stayOf_visit_of_ne config _ hne]
  -- Between two acts nobody is busy, and the visit has just ended.
  have hover : Tells period (stayOf period (c.visit key config met.now :: c.visits)) none
      (c.sweptAt met.now) met → Moment.Told period
        ⟨met, c.sweptAt met.now, c.visit key config c.scene.now :: c.visits, some key⟩ := by
    intro htells
    refine ⟨_, none, htells, hother met.now, nofun, ?_⟩
    rintro _ ⟨⟩ -
    exact ⟨_, stayOf_cons_self period (c.visit key config met.now) c.visits, rfl⟩
  have hbusy : Tells period (stayOf period (c.visit key config c.scene.now :: c.visits))
      (some (c.scene.getOrCreate name key config).1) (c.sweptAt met.now) met →
        Moment.Told period
          ⟨met, c.sweptAt met.now, c.visit key config c.scene.now :: c.visits, some key⟩ := by
    intro htells
    refine ⟨_, some _, htells, fun _ _ => rfl, ?_, nofun⟩
    rintro _ ⟨⟩
    rw [hkey]
  rw [hc.surroundings] at hmeets
  rcases (hc.takeStages hrules name key config n).meets rfl hmeets with
    rfl | ⟨-, htells⟩ | ⟨-, -, htells⟩ | htells
  · refine hover ?_
    show Tells _ (stayOf period (c.visit key config c.scene.now :: c.visits)) none
      (c.sweptAt c.scene.now) _
    rw [c.sweptAt_now]
    exact (hc.tells.lookup hrules.pos name key config).1.world rfl
  · exact hbusy htells
  · exact hbusy htells
  · exact hover htells

/-- The visits tell every moment of a history. -/
theorem told (hc : c.Sound rules period) (hrules : rules.SweepsEvery period)
    (hreaches : c.Reaches m) : m.Told period := by
  induction hreaches with
  | between c => exact ⟨_, none, hc.tells, fun _ _ => rfl, nofun, nofun⟩
  | during hmeets => exact hc.told_during hrules hmeets
  | settled _ ih =>
    rw [hc.surroundings]
    exact (ih hc).settled hrules
  | later act _ ih => exact ih (hc.play hrules act)

end Chronicle.Sound

/-! ## After the sweeps have stopped -/

/-- No sweep is to come, and what was registered still is. -/
def Unswept (held : List Handle) (t : Timeline (Gate.interface α) (LimitWorld α)) : Prop :=
  t.queue = [] ∧ held <+: t.world.registry.registered

namespace Unswept

variable {held : List Handle}

theorem settle {S : Surroundings (Gate.interface α) (LimitWorld α)} (ht : Unswept held t) :
    Unswept held (t.settle S) := by
  rwa [Timeline.settle_of_idle ht.1]

theorem steady (rules : LimitRules) (held : List Handle) :
    Steady rules (Unswept (α := α) held) where
  world _ _ hw ht := ⟨ht.1, hw ▸ ht.2⟩
  passTo _ _ hlater ht :=
    Timeline.passTo_keeps (Unswept held) (Unswept held) (fun _ ht => ht.settle)
      (fun _ _ ht _ _ => ht) hlater ht

theorem takeStages (rules : LimitRules) (h : Handle) (held : List Handle) :
    TakeStages rules h (Unswept (α := α) held) (Unswept held) (Unswept held) (Unswept held) where
  enter t ht := by
    refine ⟨ht.1, ht.2.trans ?_⟩
    show _ <+: (t.world.registry.register h).registered
    rcases Registry.register_cases t.world.registry h with hsame | ⟨-, -, hadded⟩
    · exact hsame.symm ▸ List.prefix_rfl
    · exact hadded.symm ▸ List.prefix_append ..
  steady := steady rules held
  touch _ ht := ht
  leave _ ht := ht

theorem lookup (ht : Unswept held c.scene.timeline) (name : String) (key : LimiterKey)
    (config : LimiterConfig) :
    Unswept held (c.scene.getOrCreate name key config).2.timeline := by
  refine ⟨ht.1, ht.2.trans ?_⟩
  show _ <+: (c.scene.world.registry.getOrCreate key config (Word.clamp c.scene.now)).2.1.registered
  rcases Registry.getOrCreate_cases c.scene.world.registry key config (Word.clamp c.scene.now) with
    ⟨h, -, -, hafter⟩ | ⟨-, -, hafter⟩
  · exact hafter.symm ▸ List.prefix_rfl
  · exact hafter.symm ▸ List.prefix_append ..

theorem play (ht : Unswept held c.scene.timeline) (act : Act α) :
    Unswept held (c.play act).scene.timeline := by
  cases act with
  | lookup name key config => exact ht.lookup name key config
  | take name key config n =>
    have hbefore : Unswept held (c.taking name key config n).2 := ht.lookup name key config
    rw [Chronicle.timeline_play_take]
    exact (takeStages c.scene.rules _ held).run hbefore _ n
  | sleep millis => exact (steady c.scene.rules held).sleep millis ht
  | letGo => exact ht.settle
  | elsewhere change unseen => exact (steady c.scene.rules held).world _ _ (unseen _) ht

theorem reaches (ht : Unswept held c.scene.timeline) (hreaches : c.Reaches m) :
    Unswept held m.timeline := by
  induction hreaches with
  | between => exact ht
  | @during c name key config n met hmeets =>
    have hbefore : Unswept held (c.taking name key config n).2 := ht.lookup name key config
    have hstages := takeStages (α := α) c.scene.rules
      (c.scene.getOrCreate name key config).1 held
    rcases hstages.meets hbefore hmeets with hmet | hmet | hmet | hmet <;> exact hmet
  | settled _ ih => exact (ih ht).settle
  | later act _ ih => exact ih (ht.play act)

end Unswept

/-- Where sweeps are to come, stopping them leaves none. -/
theorem Tells.unswept (ht : Tells period stays busy swept c.scene.timeline) :
    Unswept c.scene.world.registry.registered c.stopped.scene.timeline := by
  obtain ⟨wake, hqueue, -, -⟩ := ht
  have hsweeping : c.scene.isSweeping = true := by
    rw [LimitScene.isSweeping, hqueue]
    rfl
  rw [Chronicle.stopped, LimitScene.stopSweeps, if_pos hsweeping]
  refine ⟨?_, List.prefix_rfl⟩
  show c.scene.timeline.silence.queue = []
  rw [Timeline.silence, hqueue]
  rfl

/-! ## What a registry holds at any time -/

/-- A registry sweeps at the multiples of a period.  At every moment that its clock can show, the
registered keys are those of the take that runs and those whose first sweep later than the last
access by more than the patience is still ahead; the registry counts as many.  Once the sweeps
have been stopped, nothing that is registered goes away. -/
theorem registered_until_due {lockConfig : LockConfig} {clock : HandClock} {seed : UInt64}
    {scene : LimitScene α} (hrules : rules.SweepsEvery period)
    (hbuilt : (LimitScene.initial rules lockConfig clock seed).withSweeps = .ok scene) :
    (∀ m, (Chronicle.start scene).Reaches m → m.timeline.now ≤ Word.maxNat →
      m.timeline.world.registry.HoldsExactly fun key =>
        m.busy = some key ∨ ∃ stay, stayOf period m.visits key = some stay ∧
          Ahead (stay.due period) m.timeline.now m.swept) ∧
    ∀ acts m, ((Chronicle.start scene).playAll acts).stopped.Reaches m →
      ((Chronicle.start scene).playAll acts).scene.world.registry.registered <+:
        m.timeline.world.registry.registered := by
  have hstart := Chronicle.Sound.start hrules hbuilt
  constructor
  · intro m hreaches hfits
    exact (hstart.told hrules hreaches).holdsExactly hrules.pos hfits
  · intro acts m hreaches
    exact ((hstart.playAll hrules acts).tells.unswept.reaches hreaches).2

/-- Sweeps once a second. -/
def everySecond : LimitRules where
  manual := false
  bucketClock := none
  sleeping := .real
  hasBackground := true
  sweepInterval := .ofMillis 1000

/-- A scene whose registry sweeps once a second. -/
def sweptScene : LimitScene Unit :=
  { (LimitScene.initial everySecond .standard ⟨0⟩ 0 : LimitScene Unit) with
    timeline := ⟨0, .initial ⟨0⟩, [.alarm 1000]⟩ }

/-- A limiter that may be idle for three seconds was looked up four seconds ago, when the
registry was built. -/
def fourSecondsOld (key : LimiterKey) : Chronicle Unit :=
  (Chronicle.start sweptScene).playAll [.lookup "a" key .standard, .sleep 4000]

/-- The sweep after three seconds has let the limiter be; the one after four removes it. -/
theorem registered_until_due_four_seconds :
    everySecond.SweepsEvery 1000 ∧
      (LimitScene.initial everySecond .standard ⟨0⟩ 0).withSweeps = .ok sweptScene ∧
      (fourSecondsOld ⟨"svc", "a", "GET", "/"⟩).scene.now ≤ Word.maxNat ∧
      (fourSecondsOld ⟨"svc", "a", "GET", "/"⟩).scene.world.registry.HoldsExactly
        (· = ⟨"svc", "a", "GET", "/"⟩) ∧
      (fourSecondsOld ⟨"svc", "a", "GET", "/"⟩).scene.background.world.registry.HoldsExactly
        fun _ => False := by
  generalize hkey : (⟨"svc", "a", "GET", "/"⟩ : LimiterKey) = key
  have hrules : everySecond.SweepsEvery 1000 := ⟨rfl, by decide, by decide⟩
  have hbuilt : (LimitScene.initial (α := Unit) everySecond .standard ⟨0⟩ 0).withSweeps =
      .ok sweptScene := rfl
  have hnow : (fourSecondsOld key).scene.now = 4000 := Timeline.now_passTo ..
  have hfits : (fourSecondsOld key).scene.now ≤ Word.maxNat := by
    rw [hnow]
    decide
  have hbefore : (Chronicle.start sweptScene).Reaches
      ⟨(fourSecondsOld key).scene.timeline, (fourSecondsOld key).swept,
        (fourSecondsOld key).visits, none⟩ :=
    .later (.lookup "a" key .standard) (.later (.sleep 4000) (.between _))
  have hall := (registered_until_due hrules hbuilt).1
  have hvisits : ∀ other, stayOf 1000 (fourSecondsOld key).visits other =
      if key = other then some ⟨3000, 0⟩ else none := fun other => rfl
  refine ⟨hrules, hbuilt, hfits, (hall _ hbefore hfits).congr fun other => ?_,
    (hall _ hbefore.settled hfits).congr fun other => ?_⟩
  · rw [hvisits, show (Chronicle.scene _).timeline.now = 4000 from hnow]
    split
    · next hsame => exact iff_of_true (.inr ⟨_, rfl, .inr ⟨rfl, rfl⟩⟩) hsame.symm
    · next hne => exact iff_of_false (by rintro (h | ⟨_, h, -⟩) <;> cases h) (Ne.symm hne)
  · refine iff_of_false ?_ id
    rintro (hnone | ⟨stay, hstay, hahead⟩)
    · cases hnone
    replace hstay : stayOf 1000 (fourSecondsOld key).visits other = some stay := hstay
    replace hahead : Ahead (stay.due 1000) (fourSecondsOld key).scene.now true := hahead
    rw [hvisits] at hstay
    split at hstay
    · cases hstay
      rw [hnow] at hahead
      exact absurd hahead (by decide)
    · cases hstay

end Scenario

end FlowControl
