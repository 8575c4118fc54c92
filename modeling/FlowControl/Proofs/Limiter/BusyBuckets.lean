import FlowControl.Proofs.Limiter.LiveRegistry

/-!
# Busy buckets are counted

`Accounted` holds of a registry at work at any time: every bucket counts the operations
that run on it, no mark is given back that is not there, and registered handles have
different keys.  From it, what a sweep takes away is what nothing runs on and what has
been idle for longer than its interval, and the last access never goes back.

A sweep is one act here: it looks at all its limiters at once.
-/

namespace FlowControl.LiveRegistry

variable {s : LiveRegistry} {a : Act} {k : Nat} {o o' : Operation} {h : Handle} {reading : UInt64}

/-! ## Counting operations that run -/

theorem countP_set_add {α : Type} {l : List α} {p : α → Bool} {x y : α} (hx : l[k]? = some x) :
    (l.set k y).countP p + (if p x then 1 else 0) = l.countP p + if p y then 1 else 0 := by
  obtain ⟨hlt, rfl⟩ := List.getElem?_eq_some_iff.mp hx
  rw [List.countP_set hlt]
  by_cases hp : p l[k] = true
  · have hpositive : 0 < l.countP p := List.countP_pos_iff.mpr ⟨l[k], List.getElem_mem hlt, hp⟩
    simp only [hp, if_true]
    omega
  · simp [hp]

theorem running_set_of_iff (ho : s.operations[k]? = some o) (hhandle : o'.handle = o.handle)
    (hsame : o'.stage = .running ↔ o.stage = .running) (h : Handle) :
    (s.setOperation k o').running h = s.running h := by
  have hcount := countP_set_add (p := fun o => o.stage == .running && o.handle == h) (y := o') ho
  have hbool : (o'.stage == .running) = (o.stage == .running) := by
    rw [Bool.eq_iff_iff, beq_iff_eq, beq_iff_eq]
    exact hsame
  simp only [hhandle, hbool] at hcount
  exact Nat.add_right_cancel hcount

theorem running_set_begun (ho : s.operations[k]? = some o) (hhandle : o'.handle = o.handle)
    (hwaiting : o.stage = .waiting) (hrunning : o'.stage = .running) (h : Handle) :
    (s.setOperation k o').running h = s.running h + if o.handle = h then 1 else 0 := by
  have hcount := countP_set_add (p := fun o => o.stage == .running && o.handle == h) (y := o') ho
  simpa [running, setOperation, hhandle, hwaiting, hrunning] using hcount

theorem running_set_ended (ho : s.operations[k]? = some o) (hhandle : o'.handle = o.handle)
    (hrunning : o.stage = .running) (hended : o'.stage = .ended) (h : Handle) :
    (s.setOperation k o').running h + (if o.handle = h then 1 else 0) = s.running h := by
  have hcount := countP_set_add (p := fun o => o.stage == .running && o.handle == h) (y := o') ho
  simpa [running, setOperation, hhandle, hrunning, hended] using hcount

theorem running_pos (hmem : o ∈ s.operations) (hrunning : o.stage = .running) :
    0 < s.running o.handle :=
  List.countP_pos_iff.mpr ⟨o, hmem, by simp [hrunning]⟩

/-! ## The books -/

/-- The books of a registry agree with the operations: each works on a handle that was given out,
handles that were given out are told by their numbers, and usages count what runs. -/
structure Accounted (s : LiveRegistry) : Prop where
  follows : ∀ o ∈ s.operations, o.Follows
  used : ∀ o ∈ s.operations, o.handle ∈ s.handles
  issued : ∀ h ∈ s.handles, h.id < s.registry.usages.length
  unique : ∀ h ∈ s.handles, ∀ h' ∈ s.handles, h.id = h'.id → h = h'
  registered : ∀ h ∈ s.registry.registered, h ∈ s.handles
  distinct : (s.registry.registered.map Handle.key).Nodup
  counted : ∀ h ∈ s.handles, (s.registry.usage h).inFlight = s.running h
  matched : s.unmatched = 0

theorem accounted_start (m : Memory) : (start m).Accounted :=
  ⟨nofun, nofun, nofun, nofun, nofun, List.nodup_nil, nofun, rfl⟩

/-- An operation that is replaced by one on its own handle keeps the operations in order. -/
theorem Accounted.set (hs : s.Accounted) (ho : s.operations[k]? = some o)
    (hhandle : o'.handle = o.handle) (hfollows : o'.Follows) :
    ∀ d ∈ s.operations.set k o', d.Follows ∧ d.handle ∈ s.handles := by
  intro d hd
  rcases List.mem_or_eq_of_mem_set hd with hd | rfl
  · exact ⟨hs.follows d hd, hs.used d hd⟩
  · exact ⟨hfollows, hhandle ▸ hs.used o (List.mem_of_getElem? ho)⟩

/-- A bucket on which an operation runs is busy. -/
theorem Accounted.busy (hs : s.Accounted) (hmem : o ∈ s.operations)
    (hrunning : o.stage = .running) : 0 < (s.registry.usage o.handle).inFlight := by
  rw [hs.counted o.handle (hs.used o hmem)]
  exact running_pos hmem hrunning

/-- Nothing runs on a handle that was not given out. -/
theorem Accounted.running_eq_zero (hs : s.Accounted) (hnew : h ∉ s.handles) : s.running h = 0 := by
  refine List.countP_eq_zero.mpr fun o ho hrunning => hnew ?_
  obtain ⟨-, hhandle⟩ := Bool.and_eq_true_iff.mp hrunning
  exact eq_of_beq hhandle ▸ hs.used o ho

/-- A handle that is given out again is no news. -/
theorem mem_of_mem_given {handles : List Handle} {d : Handle} (hh : h ∈ handles)
    (hd : d ∈ handles ++ [h]) : d ∈ handles := by
  rcases List.mem_append.mp hd with hd | hd
  · exact hd
  · exact List.mem_singleton.mp hd ▸ hh

/-- A new handle is one that nothing uses. -/
theorem Accounted.created (hs : s.Accounted) {bucket : Bucket}
    (hfree : s.registry.find? bucket.key = none) (reading : UInt64) :
    Accounted { s with
      registry := (s.registry.create bucket reading).2
      handles := s.handles ++ [(s.registry.create bucket reading).1] } := by
  have hold : ∀ d ∈ s.handles, d.id ≠ s.registry.usages.length :=
    fun d hd => Nat.ne_of_lt (hs.issued d hd)
  have hmem : ∀ {d}, d ∈ s.handles ++ [(s.registry.create bucket reading).1] →
      d ∈ s.handles ∨ d = (s.registry.create bucket reading).1 := fun hd =>
    (List.mem_append.mp hd).imp_right List.mem_singleton.mp
  refine ⟨hs.follows, fun o ho => List.mem_append_left _ (hs.used o ho), ?_, ?_, ?_,
    Registry.nodup_keys_concat hs.distinct hfree, ?_, hs.matched⟩
  · intro d hd
    show d.id < (s.registry.usages ++ [_]).length
    rw [List.length_append]
    rcases hmem hd with hd | rfl
    · exact Nat.lt_add_right 1 (hs.issued d hd)
    · exact Nat.lt_succ_self _
  · intro d hd d' hd' hid
    -- The new number is larger than every number that was given out.
    rcases hmem hd with hd | rfl <;> rcases hmem hd' with hd' | rfl
    · exact hs.unique d hd d' hd' hid
    · exact absurd hid (hold d hd)
    · exact absurd hid.symm (hold d' hd')
    · rfl
  · intro d hd
    rcases List.mem_append.mp hd with hd | hd
    · exact List.mem_append_left _ (hs.registered d hd)
    · exact List.mem_append_right _ hd
  · intro d hd
    rcases hmem hd with hd | rfl
    · rw [Registry.usage_create_of_issued bucket (hs.issued d hd)]
      exact hs.counted d hd
    · rw [Registry.usage_create_self]
      refine (hs.running_eq_zero fun hd => ?_).symm
      exact hold _ hd rfl

/-- A handle that is asked for is the registered one, or a new one. -/
theorem Accounted.given (hs : s.Accounted) (key : LimiterKey) (config : LimiterConfig)
    (reading : UInt64) :
    Accounted { s with
      registry := (s.registry.getOrCreate key config reading).2.1
      handles := s.handles ++ [(s.registry.getOrCreate key config reading).1] } := by
  rcases Registry.getOrCreate_cases s.registry key config reading with
    ⟨h, hfind, hgiven, hregistry⟩ | ⟨hfree, hgiven, hregistry⟩
  · rw [hgiven, hregistry]
    have hh : h ∈ s.handles := hs.registered h (Registry.mem_of_find? hfind).1
    refine ⟨hs.follows, fun o ho => List.mem_append_left _ (hs.used o ho), ?_, ?_,
      fun d hd => List.mem_append_left _ (hs.registered d hd), hs.distinct, ?_, hs.matched⟩
    · intro d hd
      rw [Registry.touch, Registry.length_usages_modify]
      exact hs.issued d (mem_of_mem_given hh hd)
    · exact fun d hd d' hd' => hs.unique d (mem_of_mem_given hh hd) d' (mem_of_mem_given hh hd')
    · intro d hd
      rw [Registry.inFlight_usage_touch]
      exact hs.counted d (mem_of_mem_given hh hd)
  · rw [hgiven, hregistry]
    exact hs.created hfree reading

/-- An operation that has not begun does not run. -/
theorem Accounted.use (hs : s.Accounted) (hmem : h ∈ s.handles) (purpose : Use) :
    Accounted { s with
      operations := s.operations ++ [⟨h, false, some (purpose.program h)⟩] } := by
  obtain ⟨hwaiting, hfollows⟩ := Operation.ofWaiting (purpose.follows_program h)
  have hnew : ∀ {d}, d ∈ s.operations ++ [⟨h, false, some (purpose.program h)⟩] →
      d ∈ s.operations ∨ d = ⟨h, false, some (purpose.program h)⟩ := fun hd =>
    (List.mem_append.mp hd).imp_right List.mem_singleton.mp
  refine ⟨?_, ?_, hs.issued, hs.unique, hs.registered, hs.distinct, ?_, hs.matched⟩
  · intro d hd
    rcases hnew hd with hd | rfl
    · exact hs.follows d hd
    · exact hfollows
  · intro d hd
    rcases hnew hd with hd | rfl
    · exact hs.used d hd
    · exact hmem
  · intro d hd
    rw [hs.counted d hd]
    simp [running, List.countP_append, hwaiting]

theorem Accounted.moved (hs : s.Accounted) (m : Memory) (ho : s.operations[k]? = some o)
    (hhandle : o'.handle = o.handle) (hstage : o'.stage = .running ↔ o.stage = .running)
    (hfollows : o'.Follows) :
    Accounted { s with memory := m, operations := s.operations.set k o' } where
  follows d hd := (hs.set ho hhandle hfollows d hd).1
  used d hd := (hs.set ho hhandle hfollows d hd).2
  issued := hs.issued
  unique := hs.unique
  registered := hs.registered
  distinct := hs.distinct
  counted h hh := (hs.counted h hh).trans (running_set_of_iff ho hhandle hstage h).symm
  matched := hs.matched

theorem Accounted.begun (hs : s.Accounted) (reading : UInt64) (ho : s.operations[k]? = some o)
    (hwaiting : o.stage = .waiting) (hhandle : o'.handle = o.handle)
    (hstage : o'.stage = .running) (hfollows : o'.Follows) :
    Accounted { s with
      registry := s.registry.enter o.handle reading
      operations := s.operations.set k o' } := by
  have hused := hs.used o (List.mem_of_getElem? ho)
  have hissued : o.handle.id < (s.registry.register o.handle).usages.length := by
    rw [Registry.usages_register]
    exact hs.issued _ hused
  refine ⟨fun d hd => (hs.set ho hhandle hfollows d hd).1,
    fun d hd => (hs.set ho hhandle hfollows d hd).2, ?_, hs.unique, ?_, ?_, ?_, hs.matched⟩
  · intro h hh
    rw [Registry.length_usages_enter]
    exact hs.issued h hh
  · intro h hh
    rcases Registry.mem_registered_register hh with hh | rfl
    · exact hs.registered h hh
    · exact hused
  · exact Registry.nodup_keys_register hs.distinct o.handle
  · intro h hh
    refine Eq.trans ?_ (running_set_begun ho hhandle hwaiting hstage h).symm
    rw [← hs.counted h hh]
    -- Handles are told by their numbers, so the mark counts for this handle only.
    by_cases hsame : o.handle = h
    · subst hsame
      rw [Registry.enter, Registry.usage_modify_self hissued, Registry.usage_register, if_pos rfl]
      rfl
    · have hne : h.id ≠ o.handle.id := fun hid => hsame (hs.unique h hh _ hused hid).symm
      rw [Registry.enter, Registry.usage_modify_of_ne hne, Registry.usage_register, if_neg hsame]
      rfl

theorem Accounted.touched (hs : s.Accounted) (reading : UInt64) (ho : s.operations[k]? = some o)
    (hhandle : o'.handle = o.handle) (hstage : o'.stage = .running ↔ o.stage = .running)
    (hfollows : o'.Follows) :
    Accounted { s with
      registry := s.registry.touch o.handle reading
      operations := s.operations.set k o' } := by
  have hused := hs.used o (List.mem_of_getElem? ho)
  refine ⟨fun d hd => (hs.set ho hhandle hfollows d hd).1,
    fun d hd => (hs.set ho hhandle hfollows d hd).2, ?_, hs.unique, hs.registered, hs.distinct, ?_,
    hs.matched⟩
  · intro h hh
    rw [Registry.touch, Registry.length_usages_modify]
    exact hs.issued h hh
  · intro h hh
    refine Eq.trans ?_ (running_set_of_iff ho hhandle hstage h).symm
    rw [← hs.counted h hh]
    exact Registry.inFlight_usage_touch ..

theorem Accounted.finished (hs : s.Accounted) (m : Memory) (jobs : List (Limiter.Program Unit))
    (ho : s.operations[k]? = some o) (hrunning : o.stage = .running)
    (hhandle : o'.handle = o.handle) (hended : o'.stage = .ended) (hfollows : o'.Follows) :
    Accounted
      { s.leave o.handle with memory := m, jobs := jobs, operations := s.operations.set k o' } := by
  have hmem := List.mem_of_getElem? ho
  have hused := hs.used o hmem
  have hbusy := hs.busy hmem hrunning
  refine ⟨fun d hd => (hs.set ho hhandle hfollows d hd).1,
    fun d hd => (hs.set ho hhandle hfollows d hd).2, ?_, hs.unique, hs.registered, hs.distinct, ?_,
    (if_neg (Nat.ne_of_gt hbusy)).trans hs.matched⟩
  · intro h hh
    show h.id < (s.registry.modify _ _).usages.length
    rw [Registry.length_usages_modify]
    exact hs.issued h hh
  · intro h hh
    -- The equation has sums on both sides: the count is not zero, so subtraction undoes it.
    have hcount := running_set_ended ho hhandle hrunning hended h
    rw [← hs.counted h hh] at hcount
    refine Eq.trans (b := (s.setOperation k o').running h) ?_ rfl
    show ((s.registry.modify o.handle Usage.leave).usage h).inFlight = _
    by_cases hsame : o.handle = h
    · subst hsame
      rw [Registry.usage_modify_self (hs.issued _ hused), Usage.inFlight_leave, ← hcount,
        if_pos rfl]
      exact Nat.add_sub_cancel ..
    · have hne : h.id ≠ o.handle.id := fun hid => hsame (hs.unique h hh _ hused hid).symm
      rw [Registry.usage_modify_of_ne hne, ← hcount, if_neg hsame]
      rfl

theorem Accounted.sweep (hs : s.Accounted) (reading : UInt64) :
    Accounted { s with registry := (s.registry.sweep reading).2.1 } where
  follows := hs.follows
  used := hs.used
  issued := hs.issued
  unique := hs.unique
  registered h hh := hs.registered h (List.mem_of_mem_filter hh)
  distinct := hs.distinct.sublist ((List.filter_sublist).map _)
  counted := hs.counted
  matched := hs.matched

theorem Accounted.close (hs : s.Accounted) :
    Accounted { s with registry := s.registry.close } where
  follows := hs.follows
  used := hs.used
  issued := hs.issued
  unique := hs.unique
  registered := nofun
  distinct := List.nodup_nil
  counted := hs.counted
  matched := hs.matched

theorem Accounted.step (hs : s.Accounted) (a : Act) : (s.step a).Accounted := by
  have heffect := effect_step hs.follows a
  generalize s.step a = s' at heffect ⊢
  cases heffect with
  | nothing =>
      exact ⟨hs.follows, hs.used, hs.issued, hs.unique, hs.registered, hs.distinct, hs.counted,
        hs.matched⟩
  | given key config reading => exact hs.given key config reading
  | used k purpose hmem => exact hs.use hmem purpose
  | moved _ m ho hhandle hstage hfollows => exact hs.moved m ho hhandle hstage hfollows
  | begun reading ho hwaiting hhandle hstage hfollows =>
      exact hs.begun reading ho hwaiting hhandle hstage hfollows
  | touched reading ho hhandle hstage hfollows =>
      exact hs.touched reading ho hhandle hstage hfollows
  | finished _ m jobs ho hrunning hhandle hended hfollows =>
      exact hs.finished m jobs ho hrunning hhandle hended hfollows
  | swept reading => exact hs.sweep reading
  | closed => exact hs.close

theorem Accounted.run (hs : s.Accounted) (acts : List Act) : (s.run acts).Accounted := by
  induction acts generalizing s with
  | nil => exact hs
  | cons a acts ih => exact ih (hs.step a)

/-! ## Accesses -/

/-- No act takes an access back. -/
theorem Accounted.lastAccess_le_step (hs : s.Accounted) (a : Act) (hh : h ∈ s.handles) :
    (s.registry.usage h).lastAccess ≤ ((s.step a).registry.usage h).lastAccess := by
  have heffect := effect_step hs.follows a
  generalize s.step a = s' at heffect ⊢
  cases heffect with
  | nothing | used | moved | swept | closed => exact UInt64.le_refl _
  | given key config reading =>
      rcases Registry.getOrCreate_cases s.registry key config reading with
        ⟨d, -, -, hregistry⟩ | ⟨-, -, hregistry⟩
      · show _ ≤ ((s.registry.getOrCreate key config reading).2.1.usage h).lastAccess
        rw [hregistry]
        exact Registry.lastAccess_le_usage_modify (fun u => (u.le_lastAccess_touch reading).1) ..
      · show _ ≤ ((s.registry.getOrCreate key config reading).2.1.usage h).lastAccess
        rw [hregistry, Registry.usage_create_of_issued _ (hs.issued h hh)]
        exact UInt64.le_refl _
  | @begun k reading o =>
      have hchange : ∀ u : Usage, u.lastAccess ≤ (u.enter reading).lastAccess :=
        fun u => (u.le_lastAccess_touch reading).1
      have hle :=
        Registry.lastAccess_le_usage_modify hchange (s.registry.register o.handle) o.handle h
      rwa [Registry.usage_register] at hle
  | touched reading ho =>
      exact Registry.lastAccess_le_usage_modify (fun u => (u.le_lastAccess_touch reading).1) ..
  | finished =>
      have hchange : ∀ u : Usage, u.lastAccess ≤ u.leave.lastAccess := fun u => UInt64.le_refl _
      exact Registry.lastAccess_le_usage_modify hchange ..

/-! ## Sweeps -/

/-- Does nothing run on a handle, and was its last access longer ago than its interval? -/
def isIdle (s : LiveRegistry) (reading : UInt64) (h : Handle) : Bool :=
  decide (s.running h = 0 ∧
    h.patience.toNat < reading.toNat - (s.registry.usage h).lastAccess.toNat)

/-- What a registry finds idle is what nothing runs on. -/
theorem Accounted.registry_isIdle (hs : s.Accounted) (reading : UInt64) (hh : h ∈ s.handles) :
    s.registry.isIdle reading h = s.isIdle reading h := by
  rw [Bool.eq_iff_iff, isIdle, decide_eq_true_iff, ← hs.counted h hh]
  exact Usage.isIdle_iff ..

/-- A sweep removes the limiters that are idle and keeps all else of the registry. -/
theorem Accounted.registry_sweep (hs : s.Accounted) (reading : UInt64) :
    (s.registry.sweep reading).1 = (s.registry.registered.filter (s.isIdle reading)).length ∧
      (s.registry.sweep reading).2.1 = { s.registry with
        registered := s.registry.registered.filter fun h => !s.isIdle reading h } := by
  have hsame : ∀ h ∈ s.registry.registered, s.registry.isIdle reading h = s.isIdle reading h :=
    fun h hh => hs.registry_isIdle reading (hs.registered h hh)
  constructor
  · exact congrArg List.length (List.filter_congr hsame)
  · have hkept : s.registry.registered.filter (fun h => !s.registry.isIdle reading h) =
        s.registry.registered.filter fun h => !s.isIdle reading h :=
      List.filter_congr fun h hh => congrArg Bool.not (hsame h hh)
    exact congrArg (fun kept => { s.registry with registered := kept }) hkept

/-- Whatever happens to a registry: each bucket counts the operations that run on it, and never
less than none; its last access never goes back; a sweep removes the registered limiters that
nothing runs on and that are idle for longer than their interval, tells how many they are, and
changes nothing else; another sweep at its reading removes nothing. -/
theorem busy_buckets_counted (m : Memory) (acts : List Act) :
    let s := (start m).run acts
    (∀ h ∈ s.handles, (s.registry.usage h).inFlight = s.running h) ∧
      s.unmatched = 0 ∧
      (∀ a, ∀ h ∈ s.handles,
        (s.registry.usage h).lastAccess ≤ ((s.step a).registry.usage h).lastAccess) ∧
      ∀ reading, (s.registry.sweep reading).1 =
          (s.registry.registered.filter (s.isIdle reading)).length ∧
        s.step (.sweep reading) = { s with
          registry := { s.registry with
            registered := s.registry.registered.filter fun h => !s.isIdle reading h } } ∧
        ((s.step (.sweep reading)).registry.sweep reading).1 = 0 ∧
        (s.step (.sweep reading)).step (.sweep reading) = s.step (.sweep reading) := by
  intro s
  have hs : s.Accounted := (accounted_start m).run acts
  refine ⟨hs.counted, hs.matched, fun a h hh => hs.lastAccess_le_step a hh, fun reading => ?_⟩
  obtain ⟨hremoved, hkept⟩ := hs.registry_sweep reading
  obtain ⟨hnone, hsame⟩ := Registry.sweep_sweep s.registry reading
  refine ⟨hremoved, ?_, hnone, ?_⟩
  · show { s with registry := (s.registry.sweep reading).2.1 } = _
    rw [hkept]
  · show { s.step (.sweep reading) with
      registry := ((s.registry.sweep reading).2.1.sweep reading).2.1 } = _
    rw [hsame]
    rfl

end FlowControl.LiveRegistry
