import FlowControl.Proofs.Limiter.BusyBuckets
import Mathlib.Data.List.Induction

/-!
# One bucket for each key, or two

A handle outlives its place in the registry.  If another handle has taken the key by the
time the first one is used again, the first one is displaced: an operation on it marks
its own bucket busy, which is not the registered one, and the key has two live buckets.
Sweeps then do not see the operation.

As long as no operation is begun on a displaced handle this does not happen, and it
happens as soon as one is.  The registry has to be there; once it is gone there is nothing
to be registered in.
-/

namespace FlowControl

namespace Registry

variable {r : Registry} {h : Handle}

/-- Is another handle registered for the key of this one? -/
def IsDisplaced (r : Registry) (h : Handle) : Prop := ∃ h', r.find? h.key = some h' ∧ h' ≠ h

/-- A handle takes its place in an open registry, or has it, unless it is displaced. -/
theorem mem_register (hopen : r.isOpen = true) (hfree : ¬ r.IsDisplaced h) :
    h ∈ (r.register h).registered := by
  cases hfind : r.find? h.key with
  | none => simp [register, hopen, hfind]
  | some h' =>
      obtain rfl : h' = h := Classical.byContradiction fun hne => hfree ⟨h', hfind, hne⟩
      exact registered_subset_register r h' (mem_of_find? hfind).1

/-- A displaced handle does not get its place back. -/
theorem not_mem_register (hdistinct : (r.registered.map Handle.key).Nodup)
    (hdisplaced : r.IsDisplaced h) : h ∉ (r.register h).registered := by
  obtain ⟨h', hfind, hne⟩ := hdisplaced
  obtain ⟨hmem', hkey'⟩ := mem_of_find? hfind
  intro hmem
  exact hne (List.inj_on_of_nodup_map (nodup_keys_register hdistinct h)
    (registered_subset_register r h hmem') hmem hkey')

theorem isOpen_register (r : Registry) (h : Handle) : (r.register h).isOpen = r.isOpen := by
  unfold register
  split <;> rfl

theorem isOpen_getOrCreate (r : Registry) (key : LimiterKey) (config : LimiterConfig)
    (now : UInt64) : (r.getOrCreate key config now).2.1.isOpen = r.isOpen := by
  rcases getOrCreate_cases r key config now with ⟨h, -, -, hregistry⟩ | ⟨-, -, hregistry⟩
  · rw [hregistry]; rfl
  · rw [hregistry]; rfl

end Registry

namespace LiveRegistry

variable {s : LiveRegistry} {a : Act} {o o' : Operation} {h : Handle} {k : Nat}

/-- Is the bucket that each running operation has marked busy the registered one of its key? -/
def OneBucket (s : LiveRegistry) : Prop :=
  ∀ o ∈ s.operations, o.stage = .running → s.registry.find? o.handle.key = some o.handle

theorem Accounted.oneBucket_iff (hs : s.Accounted) :
    s.OneBucket ↔ ∀ o ∈ s.operations, o.stage = .running → o.handle ∈ s.registry.registered :=
  forall₃_congr fun _ _ _ =>
    (Registry.find?_eq_some_iff hs.distinct).trans (and_iff_left rfl)

theorem Accounted.isOpen_step (hs : s.Accounted) (hlive : a ≠ .close) :
    (s.step a).registry.isOpen = s.registry.isOpen := by
  have heffect := effect_step hs.follows a
  generalize s.step a = s' at heffect ⊢
  cases heffect with
  | nothing | used | moved | touched | finished | swept => rfl
  | given key config reading => exact Registry.isOpen_getOrCreate ..
  | begun reading => exact Registry.isOpen_register ..
  | closed => exact absurd rfl hlive

/-- A sweep leaves the bucket of a running operation where it is. -/
theorem Accounted.mem_sweep (hs : s.Accounted) (hmem : o ∈ s.operations)
    (hrunning : o.stage = .running) (hregistered : o.handle ∈ s.registry.registered)
    (reading : UInt64) : o.handle ∈ (s.registry.sweep reading).2.1.registered := by
  have hbusy : s.running o.handle ≠ 0 := Nat.ne_of_gt (running_pos hmem hrunning)
  rw [(hs.registry_sweep reading).2]
  exact List.mem_filter.mpr ⟨hregistered, by simp [isIdle, hbusy]⟩

/-- Replacing an operation asks for the place of the new one only. -/
theorem registered_set {operations : List Operation} {registered : List Handle}
    (hold : ∀ o ∈ operations, o.stage = .running → o.handle ∈ registered)
    (hnew : o'.stage = .running → o'.handle ∈ registered) :
    ∀ o ∈ operations.set k o', o.stage = .running → o.handle ∈ registered := by
  intro o ho
  rcases List.mem_or_eq_of_mem_set ho with ho | rfl
  · exact hold o ho
  · exact hnew

/-- Nothing is unregistered by giving a handle out. -/
theorem registered_subset_getOrCreate (r : Registry) (key : LimiterKey) (config : LimiterConfig)
    (reading : UInt64) :
    r.registered ⊆ (r.getOrCreate key config reading).2.1.registered := by
  rcases Registry.getOrCreate_cases r key config reading with
    ⟨h, -, -, hregistry⟩ | ⟨-, -, hregistry⟩
  · rw [hregistry]
    exact List.Subset.refl _
  · rw [hregistry]
    exact List.subset_append_left ..

/-- If the operation that an act begins, if it does, is not on a displaced handle, each key still
has one bucket. -/
theorem OneBucket.step (hone : s.OneBucket) (hs : s.Accounted) (hopen : s.registry.isOpen = true)
    (hlive : a ≠ .close) (hfree : ∀ h, s.begins? a = some h → ¬ s.registry.IsDisplaced h) :
    (s.step a).OneBucket := by
  rw [(hs.step a).oneBucket_iff]
  rw [hs.oneBucket_iff] at hone
  have heffect := effect_step hs.follows a
  generalize s.step a = s' at heffect ⊢
  cases heffect with
  | nothing => exact hone
  | given key config reading =>
      exact fun o ho hrunning => registered_subset_getOrCreate _ _ _ _ (hone o ho hrunning)
  | @used k purpose h hmem =>
      intro o ho hrunning
      rcases List.mem_append.mp ho with ho | ho
      · exact hone o ho hrunning
      · -- What was just asked for has not begun.
        obtain rfl := List.mem_singleton.mp ho
        rw [(Operation.ofWaiting (purpose.follows_program h)).1] at hrunning
        cases hrunning
  | moved _ m ho hhandle hstage | touched reading ho hhandle hstage =>
      refine registered_set hone fun hrunning => ?_
      rw [hhandle]
      exact hone _ (List.mem_of_getElem? ho) (hstage.mp hrunning)
  | @begun k reading o o' ho hwaiting hhandle hstage =>
      have hbegins := begins?_eq_some_iff.mpr ⟨k, reading, o, rfl, ho, hwaiting, rfl⟩
      refine registered_set ?_ fun _ => ?_
      · exact fun d hd hrunning => Registry.registered_subset_register _ _ (hone d hd hrunning)
      · rw [hhandle]
        exact Registry.mem_register hopen (hfree _ hbegins)
  | finished _ m jobs ho hrunning hhandle hended =>
      exact registered_set hone fun hrunning => by rw [hended] at hrunning; cases hrunning
  | swept reading =>
      exact fun o ho hrunning => hs.mem_sweep ho hrunning (hone o ho hrunning) reading
  | closed => exact absurd rfl hlive

/-- An operation that begins runs, has accessed its bucket, and has the place of its key in an open
registry just if its handle is not displaced. -/
theorem Accounted.begins (hs : s.Accounted) (hopen : s.registry.isOpen = true) {reading : UInt64}
    (hbegins : s.begins? (.go k reading) = some h) :
    let t := s.step (.go k reading)
    (∃ o ∈ t.operations, o.stage = .running ∧ o.handle = h) ∧
      reading ≤ (t.registry.usage h).lastAccess ∧
      (t.registry.find? h.key = some h ↔ ¬ s.registry.IsDisplaced h) := by
  obtain ⟨k, reading, o, ⟨⟩, ho, hwaiting, rfl⟩ := begins?_eq_some_iff.mp hbegins
  have hmem := List.mem_of_getElem? ho
  obtain ⟨o', hhandle, hstage, -, hstep⟩ :=
    step_go_of_waiting (hs.follows o hmem) ho hwaiting reading
  refine ⟨⟨o', ?_, hstage, hhandle⟩, ?_, ?_⟩
  · rw [hstep]
    exact List.mem_set (List.getElem?_eq_some_iff.mp ho).1 o'
  · have hissued : o.handle.id < (s.registry.register o.handle).usages.length := by
      rw [Registry.usages_register]
      exact hs.issued _ (hs.used o hmem)
    rw [hstep]
    show reading ≤ (((s.registry.register o.handle).modify _ _).usage o.handle).lastAccess
    rw [Registry.usage_modify_self hissued]
    exact (Usage.le_lastAccess_touch _ reading).2
  · rw [Registry.find?_eq_some_iff (hs.step (.go k reading)).distinct, and_iff_left rfl, hstep]
    constructor
    · exact fun hmem hdisplaced => Registry.not_mem_register hs.distinct hdisplaced hmem
    · exact Registry.mem_register hopen

/-- The registry stays until it is closed. -/
theorem isOpen_run (m : Memory) {acts : List Act} (hlive : .close ∉ acts) :
    ((start m).run acts).registry.isOpen = true := by
  induction acts using List.reverseRecOn with
  | nil => rfl
  | append_singleton acts a ih =>
      rw [run, List.foldl_append]
      have hs : ((start m).run acts).Accounted := (accounted_start m).run acts
      refine (hs.isOpen_step fun ha => ?_).trans (ih fun hmem => ?_)
      · exact hlive (by simp [ha])
      · exact hlive (List.mem_append_left _ hmem)

theorem oneBucket_start (m : Memory) : (start m).OneBucket := nofun

/-- While a registry is there, each key has one bucket at all times if and only if no operation is
begun on a displaced handle.  An operation that begins accesses the bucket of its own handle, which
is the registered one just if the handle is not displaced; sweeps keep a registered bucket on which
an operation runs. -/
theorem one_bucket_iff_none_displaced (m : Memory) (acts : List Act) (hlive : .close ∉ acts) :
    ((∀ before, before <+: acts → ((start m).run before).OneBucket) ↔
      ∀ before a h, before ++ [a] <+: acts → ((start m).run before).begins? a = some h →
        ¬ ((start m).run before).registry.IsDisplaced h) ∧
    let s := (start m).run acts
    (∀ k reading h, s.begins? (.go k reading) = some h →
      let t := s.step (.go k reading)
      reading ≤ (t.registry.usage h).lastAccess ∧
        (t.registry.find? h.key = some h ↔ ¬ s.registry.IsDisplaced h)) ∧
    ∀ o ∈ s.operations, o.stage = .running → s.registry.find? o.handle.key = some o.handle →
      ∀ reading, (s.step (.sweep reading)).registry.find? o.handle.key = some o.handle := by
  have haccounted : ∀ acts, ((start m).run acts).Accounted := (accounted_start m).run
  refine ⟨⟨?_, ?_⟩, ?_, ?_⟩
  · intro hone before a h hbefore hbegins
    obtain ⟨k, reading, -, rfl, -⟩ := begins?_eq_some_iff.mp hbegins
    have hopen := isOpen_run m fun hmem => hlive
      (((List.prefix_append before [_]).trans hbefore).subset hmem)
    obtain ⟨⟨o, ho, hrunning, rfl⟩, -, hplace⟩ := (haccounted before).begins hopen hbegins
    -- After the act the operation runs, so its handle must have the place of its key.
    have hafter := hone _ hbefore
    rw [run, List.foldl_append] at hafter
    exact hplace.mp (hafter o ho hrunning)
  · intro hfree before
    -- On the last act, since the claim is about every beginning of the acts.
    induction before using List.reverseRecOn with
    | nil => exact fun _ => oneBucket_start m
    | append_singleton before a ih =>
        intro hacts
        have hbefore : before <+: acts := (List.prefix_append before [a]).trans hacts
        have hopen := isOpen_run m fun hmem => hlive (hbefore.subset hmem)
        have ha : a ≠ .close := by
          rintro rfl
          exact hlive (hacts.subset (by simp))
        rw [run, List.foldl_append]
        exact (ih hbefore).step (haccounted before) hopen ha (hfree before a · hacts)
  · intro k reading h hbegins
    exact ((haccounted acts).begins (isOpen_run m hlive) hbegins).2
  · intro o ho hrunning hplace reading
    have hs := haccounted acts
    refine (Registry.find?_eq_some_iff (hs.step (.sweep reading)).distinct).mpr ⟨?_, rfl⟩
    exact hs.mem_sweep ho hrunning (Registry.mem_of_find? hplace).1 reading

/-- Without a displaced handle: a take of a handle that takes its place again. -/
theorem one_bucket_iff_none_displaced_again :
    let key : LimiterKey := ⟨"svc", "caller", "GET", "/movies"⟩
    let acts := [.getOrCreate key .standard 0, .sweep 3001, .use 0 (.take "t" 1)]
    Act.close ∉ acts ∧
      ((start .empty).run acts).begins? (.go 0 3001) = some ⟨0, ⟨key, .standard⟩⟩ ∧
      (((start .empty).run acts).step (.go 0 3001)).registry.find? key =
        some ⟨0, ⟨key, .standard⟩⟩ := by
  intro key acts
  have hlive : Act.close ∉ acts := by simp [acts]
  have hbegins : ((start .empty).run acts).begins? (.go 0 3001) = some ⟨0, ⟨key, .standard⟩⟩ := by
    rfl
  have hfree : ¬ ((start .empty).run acts).registry.IsDisplaced ⟨0, ⟨key, .standard⟩⟩ := by
    rintro ⟨h', hfind, -⟩
    have hnone : ((start .empty).run acts).registry.find? key = none := by decide
    exact absurd (hnone.symm.trans hfind) nofun
  refine ⟨hlive, hbegins, ?_⟩
  exact ((one_bucket_iff_none_displaced .empty acts hlive).2.1 0 3001 _ hbegins).2.mpr hfree

/-- A handle is kept after its limiter was swept, another one is made for its key, and the first
one takes when the other is idle again. -/
def displacedTake : List Act :=
  let key : LimiterKey := ⟨"svc", "caller", "GET", "/movies"⟩
  [.getOrCreate key .standard 0, .sweep 3001, .getOrCreate key .standard 3001,
    .use 0 (.take "t" 1), .go 0 6002]

/-- The take of a displaced handle runs beside the registered bucket of its key, which is swept
while it runs. -/
theorem displacedTake_two_buckets :
    let s := (start .empty).run displacedTake
    ∃ o ∈ s.operations, o.stage = .running ∧
      (∃ h, s.registry.find? o.handle.key = some h ∧ h ≠ o.handle) ∧
      (s.step (.sweep 6002)).registry.find? o.handle.key = none := by
  decide +kernel

end LiveRegistry

end FlowControl
