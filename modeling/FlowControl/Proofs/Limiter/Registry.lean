import FlowControl.Limiter.Registry
import Mathlib.Data.List.Nodup

/-!
# What each operation of a registry changes

Buckets are told apart by their numbers, and only the usage of the one that is meant
changes.  The last access never goes back.  Registered handles have different keys if they
had before, so the handle of a key is the registered one with that key.
-/

namespace FlowControl

namespace Usage

theorem inFlight_touch (u : Usage) (now : UInt64) : (u.touch now).inFlight = u.inFlight := rfl

@[simp] theorem inFlight_leave (u : Usage) : u.leave.inFlight = u.inFlight - 1 := rfl

theorem lastAccess_touch (u : Usage) (now : UInt64) :
    (u.touch now).lastAccess = if u.lastAccess ≤ now then now else u.lastAccess := rfl

theorem le_lastAccess_touch (u : Usage) (now : UInt64) :
    u.lastAccess ≤ (u.touch now).lastAccess ∧ now ≤ (u.touch now).lastAccess := by
  rw [lastAccess_touch]
  split
  · next hle => exact ⟨hle, UInt64.le_refl now⟩
  · next hlt => exact ⟨UInt64.le_refl _, UInt64.le_of_lt (UInt64.not_le.mp hlt)⟩

/-- A bucket is idle if nothing runs and its last access is more than its patience ago. -/
theorem isIdle_iff (u : Usage) (patience now : UInt64) :
    u.isIdle patience now = true ↔
      u.inFlight = 0 ∧ patience.toNat < now.toNat - u.lastAccess.toNat := by
  simp [isIdle, UInt64.lt_iff_toNat_lt]

end Usage

namespace Registry

variable {r : Registry} {h h' : Handle} {key : LimiterKey} {config : LimiterConfig}
  {now : UInt64} {change : Usage → Usage}

/-! ## Usages -/

theorem usage_modify_self (hissued : h.id < r.usages.length) :
    (r.modify h change).usage h = change (r.usage h) := by
  simp [usage, modify, hissued]

theorem usage_modify_of_ne (hne : h'.id ≠ h.id) : (r.modify h change).usage h' = r.usage h' := by
  simp [usage, modify, hne.symm]

/-- A change of one bucket's usage is noticed at that bucket, or nowhere. -/
theorem usage_modify_cases (r : Registry) (h h' : Handle) (change : Usage → Usage) :
    (r.modify h change).usage h' = r.usage h' ∨
      (r.modify h change).usage h' = change (r.usage h') := by
  by_cases hid : h'.id = h.id
  · by_cases hissued : h'.id < r.usages.length
    · refine .inr ?_
      simp [usage, modify, ← hid, hissued]
    · refine .inl ?_
      simp [usage, modify, ← hid, hissued]
  · exact .inl (usage_modify_of_ne hid)

theorem inFlight_usage_touch (r : Registry) (h h' : Handle) (now : UInt64) :
    ((r.touch h now).usage h').inFlight = (r.usage h').inFlight := by
  rcases usage_modify_cases r h h' (·.touch now) with hsame | hchanged
  · exact congrArg Usage.inFlight hsame
  · exact (congrArg Usage.inFlight hchanged).trans (Usage.inFlight_touch ..)

/-- A change that does not take an access back takes back none of any bucket. -/
theorem lastAccess_le_usage_modify (hchange : ∀ u, u.lastAccess ≤ (change u).lastAccess)
    (r : Registry) (h h' : Handle) :
    (r.usage h').lastAccess ≤ ((r.modify h change).usage h').lastAccess := by
  rcases usage_modify_cases r h h' change with hsame | hchanged
  · rw [hsame]
    exact UInt64.le_refl _
  · rw [hchanged]
    exact hchange _

@[simp] theorem length_usages_modify (r : Registry) (h : Handle) (change : Usage → Usage) :
    (r.modify h change).usages.length = r.usages.length := by
  simp [modify]

@[simp] theorem usages_register (r : Registry) (h : Handle) :
    (r.register h).usages = r.usages := by
  unfold register
  split <;> rfl

theorem usage_register (r : Registry) (h h' : Handle) : (r.register h).usage h' = r.usage h' := by
  simp [usage]

theorem length_usages_enter (r : Registry) (h : Handle) (now : UInt64) :
    (r.enter h now).usages.length = r.usages.length := by
  simp [enter]

/-- A bucket that was made is not used yet, apart from having been accessed. -/
theorem usage_create_self (r : Registry) (bucket : Bucket) (now : UInt64) :
    (r.create bucket now).2.usage (r.create bucket now).1 = ⟨now, 0⟩ := by
  simp [create, usage]

theorem usage_create_of_issued (bucket : Bucket) (hissued : h.id < r.usages.length) :
    (r.create bucket now).2.usage h = r.usage h := by
  simp [create, usage, List.getElem?_append_left hissued]

/-! ## Registered handles -/

theorem mem_of_find? (hfind : r.find? key = some h) : h ∈ r.registered ∧ h.key = key :=
  ⟨List.mem_of_find?_eq_some hfind, by simpa using List.find?_some hfind⟩

/-- If keys differ, the handle of a key is the registered one that has it. -/
theorem find?_eq_some_iff (hdistinct : (r.registered.map Handle.key).Nodup) :
    r.find? key = some h ↔ h ∈ r.registered ∧ h.key = key := by
  refine ⟨mem_of_find?, fun ⟨hmem, hkey⟩ => ?_⟩
  -- Something is found, and it has the same key.
  have hsome : (r.find? key).isSome = true := List.find?_isSome.mpr ⟨h, hmem, by simp [hkey]⟩
  obtain ⟨h', hfind⟩ := Option.isSome_iff_exists.mp hsome
  obtain ⟨hmem', hkey'⟩ := mem_of_find? hfind
  rw [hfind, List.inj_on_of_nodup_map hdistinct hmem' hmem (hkey'.trans hkey.symm)]

theorem key_ne_of_find?_none (hfree : r.find? key = none) (hmem : h ∈ r.registered) :
    h.key ≠ key := by
  intro hkey
  exact List.find?_eq_none.mp hfree h hmem (by simp [hkey])

/-- Registering changes nothing, or adds the handle of a free key. -/
theorem register_cases (r : Registry) (h : Handle) :
    r.register h = r ∨ r.isOpen = true ∧ r.find? h.key = none ∧
      r.register h = { r with registered := r.registered ++ [h] } := by
  unfold register
  split
  · next hfree =>
    obtain ⟨hopen, hnone⟩ := Bool.and_eq_true_iff.mp hfree
    exact .inr ⟨hopen, Option.isNone_iff_eq_none.mp hnone, rfl⟩
  · exact .inl rfl

theorem mem_registered_register (hmem : h' ∈ (r.register h).registered) :
    h' ∈ r.registered ∨ h' = h := by
  rcases register_cases r h with hsame | ⟨-, -, hadded⟩
  · exact .inl (hsame ▸ hmem)
  · rw [hadded] at hmem
    exact (List.mem_append.mp hmem).imp_right List.mem_singleton.mp

/-- What is registered stays so when another handle registers. -/
theorem registered_subset_register (r : Registry) (h : Handle) :
    r.registered ⊆ (r.register h).registered := by
  rcases register_cases r h with hsame | ⟨-, -, hadded⟩
  · rw [hsame]
    exact List.Subset.refl _
  · rw [hadded]
    exact List.subset_append_left ..

/-- A free key is added to keys that differ. -/
theorem nodup_keys_concat (hdistinct : (r.registered.map Handle.key).Nodup)
    (hfree : r.find? h.key = none) : ((r.registered ++ [h]).map Handle.key).Nodup := by
  rw [List.map_append]
  refine List.nodup_append.mpr ⟨hdistinct, List.nodup_singleton _, ?_⟩
  rintro _ hmem _ hlast rfl
  obtain ⟨h', hmem, hkey⟩ := List.mem_map.mp hmem
  exact key_ne_of_find?_none hfree hmem (hkey.trans (List.mem_singleton.mp hlast))

theorem nodup_keys_register (hdistinct : (r.registered.map Handle.key).Nodup) (h : Handle) :
    ((r.register h).registered.map Handle.key).Nodup := by
  rcases register_cases r h with hsame | ⟨-, hfree, hadded⟩
  · rwa [hsame]
  · rw [hadded]
    exact nodup_keys_concat hdistinct hfree

/-- A handle is asked for: the registered one is accessed, or one is made for a free key. -/
theorem getOrCreate_cases (r : Registry) (key : LimiterKey) (config : LimiterConfig)
    (now : UInt64) :
    (∃ h, r.find? key = some h ∧ (r.getOrCreate key config now).1 = h ∧
      (r.getOrCreate key config now).2.1 = r.touch h now) ∨
    (r.find? key = none ∧
      (r.getOrCreate key config now).1 = (r.create ⟨key, config⟩ now).1 ∧
      (r.getOrCreate key config now).2.1 = (r.create ⟨key, config⟩ now).2) := by
  unfold getOrCreate
  split
  · next h hfind => exact .inl ⟨h, hfind, rfl, rfl⟩
  · next hfree => exact .inr ⟨hfree, rfl, rfl⟩

/-- A registry gives a limiter of the key that is asked for. -/
theorem key_getOrCreate (r : Registry) (key : LimiterKey) (config : LimiterConfig)
    (now : UInt64) : (r.getOrCreate key config now).1.key = key := by
  rcases getOrCreate_cases r key config now with ⟨h, hfind, hgiven, -⟩ | ⟨-, hgiven, -⟩
  · rw [hgiven]
    exact (mem_of_find? hfind).2
  · rw [hgiven]
    rfl

/-! ## Sweeps -/

theorem registered_sweep (r : Registry) (now : UInt64) :
    (r.sweep now).2.1.registered = r.registered.filter fun h => !r.isIdle now h := rfl

/-- What a sweep leaves is not idle, so another one at that reading finds nothing. -/
theorem sweep_sweep (r : Registry) (now : UInt64) :
    ((r.sweep now).2.1.sweep now).1 = 0 ∧
      ((r.sweep now).2.1.sweep now).2.1 = (r.sweep now).2.1 := by
  have hidle : (r.sweep now).2.1.isIdle now = r.isIdle now := rfl
  have hnone : (r.sweep now).2.1.registered.filter (r.isIdle now) = [] := by
    rw [registered_sweep, List.filter_filter]
    simp
  have hall : (r.sweep now).2.1.registered.filter (fun h => !r.isIdle now h) =
      (r.sweep now).2.1.registered := by
    rw [registered_sweep, List.filter_filter]
    simp
  constructor
  · show ((r.sweep now).2.1.registered.filter ((r.sweep now).2.1.isIdle now)).length = 0
    rw [hidle, hnone]
    rfl
  · show { (r.sweep now).2.1 with
      registered :=
        (r.sweep now).2.1.registered.filter fun h => !(r.sweep now).2.1.isIdle now h } = _
    rw [hidle, hall]

end Registry

end FlowControl
