import FlowControl.Proofs.Limiter.Registry
import Mathlib.Order.Bounds.Defs

/-!
# What a registry holds between two sweeps

A limiter that nobody uses stays until the first sweep that comes later than its last access
by more than its patience; sweeps come at the multiples of a period.  If the last accesses
are known for every key, and the next sweep, the registry is known: it holds the limiters
that are due then or later, and the one that is busy.

Lookups, the marks of a take, and sweeps keep it so.
-/

namespace FlowControl

/-- Different multiples of a period are at least that period apart. -/
theorem add_le_of_dvd_of_lt {period a b : Nat} (ha : period ∣ a) (hb : period ∣ b)
    (hlt : a < b) : a + period ≤ b := by
  have hgap := Nat.le_of_dvd (Nat.sub_pos_of_lt hlt) (Nat.dvd_sub hb ha)
  omega

/-- How long a limiter may be idle, and when it was last accessed. -/
structure Stay where
  patience : Nat
  last : Nat
  deriving DecidableEq, Repr

namespace Stay

variable {period : Nat}

/-- The first sweep that comes later than the last access by more than the patience. -/
def due (period : Nat) (s : Stay) : Nat := ((s.last + s.patience) / period + 1) * period

/-- The time of a key after an access: a limiter that is still there keeps its patience, and
one that is made gets its own. -/
def renewed (older : Option Stay) (isThere : Stay → Bool) (patience now : Nat) : Stay :=
  ⟨((older.filter isThere).map Stay.patience).getD patience, now⟩

theorem dvd_due (period : Nat) (s : Stay) : period ∣ s.due period := Nat.dvd_mul_left ..

theorem lt_due (hperiod : 0 < period) (s : Stay) : s.last + s.patience < s.due period := by
  unfold due
  rw [Nat.succ_mul]
  exact Nat.lt_div_mul_add hperiod

theorem due_le_add (period : Nat) (s : Stay) :
    s.due period ≤ s.last + s.patience + period := by
  unfold due
  rw [Nat.succ_mul]
  exact Nat.add_le_add_right (Nat.div_mul_le_self ..) _

theorem due_pos (hperiod : 0 < period) (s : Stay) : 0 < s.due period :=
  Nat.lt_of_le_of_lt (Nat.zero_le _) (s.lt_due hperiod)

/-- Of the multiples of the period it is the first that comes later. -/
theorem isLeast_due (hperiod : 0 < period) (s : Stay) :
    IsLeast {tick | period ∣ tick ∧ s.last + s.patience < tick} (s.due period) := by
  refine ⟨⟨s.dvd_due period, s.lt_due hperiod⟩, fun tick ⟨htick, hlate⟩ => ?_⟩
  refine Nat.le_of_not_lt fun hlt => ?_
  have hgap := add_le_of_dvd_of_lt htick (s.dvd_due period) hlt
  have hbound := s.due_le_add period
  omega

/-- Being idle for exactly the patience is not too long. -/
example : Stay.due 1000 ⟨3000, 0⟩ = 4000 := rfl

/-- A sweep leaves a limiter to the next one exactly if the limiter has not been idle for longer
than its patience. -/
theorem add_le_due_iff {wake : Nat} (hperiod : 0 < period) (s : Stay) (hwake : period ∣ wake) :
    wake + period ≤ s.due period ↔ wake ≤ s.last + s.patience := by
  constructor
  · intro hnext
    have hbound := s.due_le_add period
    omega
  · intro hearly
    exact add_le_of_dvd_of_lt hwake (s.dvd_due period)
      (Nat.lt_of_le_of_lt hearly (s.lt_due hperiod))

/-- What is accessed now is not due before the next sweep. -/
theorem le_due_of_now {wake now : Nat} (hperiod : 0 < period) (hwake : period ∣ wake)
    (hnext : wake ≤ now + period) (patience : Nat) :
    wake ≤ Stay.due period ⟨patience, now⟩ := by
  have hlt : now + patience < _ := Stay.lt_due hperiod ⟨patience, now⟩
  refine Nat.le_of_not_lt fun hbefore => ?_
  have hgap := add_le_of_dvd_of_lt (dvd_due period ⟨patience, now⟩) hwake hbefore
  omega

end Stay

namespace Registry

variable {period wake now : Nat} {stays stays' : LimiterKey → Option Stay}
  {busy busy' : Option Handle} {r : Registry} {h : Handle}

/-- A registered limiter is as the accesses of its key tell: it is busy, or due when they say. -/
def IsTold (period : Nat) (stays : LimiterKey → Option Stay) (busy : Option Handle)
    (wake now : Nat) (r : Registry) (h : Handle) : Prop :=
  ∃ stay, stays h.key = some stay ∧ stay.patience = h.patience.toNat ∧
    (r.usage h).lastAccess.toNat ≤ now ∧
    if busy = some h then (r.usage h).inFlight = 1
    else (r.usage h).inFlight = 0 ∧ (r.usage h).lastAccess.toNat = stay.last ∧
      wake ≤ stay.due period

/-- A registry holds what the accesses tell, before the sweep at an instant. -/
structure Reflects (period : Nat) (stays : LimiterKey → Option Stay) (busy : Option Handle)
    (wake now : Nat) (r : Registry) : Prop where
  keys : (r.registered.map Handle.key).Nodup
  ids : (r.registered.map Handle.id).Nodup
  issued : ∀ h ∈ r.registered, h.id < r.usages.length
  told : ∀ h ∈ r.registered, r.IsTold period stays busy wake now h
  present : ∀ key stay, stays key = some stay → wake ≤ stay.due period →
    ∃ h ∈ r.registered, h.key = key
  held : ∀ h, busy = some h → h ∈ r.registered

theorem reflects_empty (period wake now : Nat) :
    Reflects period (fun _ => none) none wake now .empty where
  keys := List.nodup_nil
  ids := List.nodup_nil
  issued _ hmem := absurd hmem List.not_mem_nil
  told _ hmem := absurd hmem List.not_mem_nil
  present _ _ hstay _ := absurd hstay nofun
  held _ hbusy := absurd hbusy nofun

namespace Reflects

/-- The keys that are registered. -/
theorem registered_iff (hr : r.Reflects period stays busy wake now) (key : LimiterKey) :
    (∃ h ∈ r.registered, h.key = key) ↔
      (∃ h, busy = some h ∧ h.key = key) ∨
        ∃ stay, stays key = some stay ∧ wake ≤ stay.due period := by
  constructor
  · rintro ⟨h, hmem, rfl⟩
    obtain ⟨stay, hstay, -, -, hstate⟩ := hr.told h hmem
    by_cases hbusy : busy = some h
    · exact .inl ⟨h, hbusy, rfl⟩
    · rw [if_neg hbusy] at hstate
      exact .inr ⟨stay, hstay, hstate.2.2⟩
  · rintro (⟨h, hbusy, hkey⟩ | ⟨stay, hstay, hdue⟩)
    · exact ⟨h, hr.held h hbusy, hkey⟩
    · exact hr.present key stay hstay hdue

theorem later {now' : Nat} (hr : r.Reflects period stays busy wake now) (hle : now ≤ now') :
    r.Reflects period stays busy wake now' where
  keys := hr.keys
  ids := hr.ids
  issued := hr.issued
  told h hmem := by
    obtain ⟨stay, hstay, hpatience, hpast, hstate⟩ := hr.told h hmem
    exact ⟨stay, hstay, hpatience, Nat.le_trans hpast hle, hstate⟩
  present := hr.present
  held := hr.held

/-- The usage of one limiter changes, and with it what its key's accesses tell. -/
theorem modify (hr : r.Reflects period stays busy wake now) (hmem : h ∈ r.registered)
    {change : Usage → Usage} (hstays : ∀ key, key ≠ h.key → stays' key = stays key)
    (hbusy : ∀ h', h' ≠ h → (busy' = some h' ↔ busy = some h'))
    (htold : (r.modify h change).IsTold period stays' busy' wake now h) :
    (r.modify h change).Reflects period stays' busy' wake now where
  keys := hr.keys
  ids := hr.ids
  issued h' hmem' := by
    rw [length_usages_modify]
    exact hr.issued h' hmem'
  told h' hmem' := by
    by_cases hsame : h' = h
    · rwa [hsame]
    have hkey : h'.key ≠ h.key := fun hkey =>
      hsame (List.inj_on_of_nodup_map hr.keys hmem' hmem hkey)
    have hid : h'.id ≠ h.id := fun hid =>
      hsame (List.inj_on_of_nodup_map hr.ids hmem' hmem hid)
    obtain ⟨stay, hstay, hpatience, hpast, hstate⟩ := hr.told h' hmem'
    refine ⟨stay, (hstays _ hkey).trans hstay, hpatience, ?_, ?_⟩
    · rwa [usage_modify_of_ne hid]
    · rwa [usage_modify_of_ne hid, if_congr (hbusy h' hsame) rfl rfl]
  present key stay hstay hdue := by
    by_cases hkey : key = h.key
    · exact ⟨h, hmem, hkey.symm⟩
    · rw [hstays key hkey] at hstay
      exact hr.present key stay hstay hdue
  held h' hbusy' := by
    by_cases hsame : h' = h
    · rwa [hsame]
    · exact hr.held h' ((hbusy h' hsame).mp hbusy')

/-! ## Sweeps -/

/-- A sweep removes the limiters that were due at it, and no busy one. -/
theorem sweep (hr : r.Reflects period stays busy wake wake) (hperiod : 0 < period)
    (hwake : period ∣ wake) (hfits : wake ≤ Word.maxNat) :
    (r.sweep (Word.clamp wake)).2.1.Reflects period stays busy (wake + period) wake := by
  have hclock : (Word.clamp wake).toNat = wake := by
    rw [Word.toNat_clamp]
    exact Nat.min_eq_left hfits
  -- A free limiter stays exactly if it is not due before the next sweep.
  have hkept : ∀ h ∈ r.registered, ∀ stay, stays h.key = some stay →
      stay.patience = h.patience.toNat → busy ≠ some h →
        (r.isIdle (Word.clamp wake) h = false ↔ wake + period ≤ stay.due period) := by
    intro h hmem stay hstay hpatience hfree
    obtain ⟨stay', hstay', -, hpast, hstate⟩ := hr.told h hmem
    rw [if_neg hfree] at hstate
    obtain ⟨hnone, hlast, -⟩ := hstate
    have hsame : stay' = stay := Option.some.inj (hstay'.symm.trans hstay)
    rw [stay.add_le_due_iff hperiod hwake, ← Bool.not_eq_true, isIdle, Usage.isIdle_iff, hclock,
      ← hpatience, hlast, hsame]
    rw [hlast, hsame] at hpast
    omega
  have hbusy : ∀ h, busy = some h → r.isIdle (Word.clamp wake) h = false := by
    intro h hbusy
    obtain ⟨stay, -, -, -, hstate⟩ := hr.told h (hr.held h hbusy)
    rw [if_pos hbusy] at hstate
    rw [← Bool.not_eq_true, isIdle, Usage.isIdle_iff]
    omega
  have hmem : ∀ h, h ∈ (r.sweep (Word.clamp wake)).2.1.registered ↔
      h ∈ r.registered ∧ r.isIdle (Word.clamp wake) h = false := by
    intro h
    rw [registered_sweep, List.mem_filter, Bool.not_eq_true']
  have hsub : (r.sweep (Word.clamp wake)).2.1.registered.Sublist r.registered :=
    List.filter_sublist
  exact {
    keys := hr.keys.sublist (hsub.map _)
    ids := hr.ids.sublist (hsub.map _)
    issued := fun h hleft => hr.issued h ((hmem h).mp hleft).1
    told := fun h hleft => by
      obtain ⟨hin, hidle⟩ := (hmem h).mp hleft
      obtain ⟨stay, hstay, hpatience, hpast, hstate⟩ := hr.told h hin
      refine ⟨stay, hstay, hpatience, hpast, ?_⟩
      by_cases hfree : busy = some h
      · rw [if_pos hfree] at hstate ⊢
        exact hstate
      · rw [if_neg hfree] at hstate ⊢
        exact ⟨hstate.1, hstate.2.1, (hkept h hin stay hstay hpatience hfree).mp hidle⟩
    present := fun key stay hstay hdue => by
      obtain ⟨h, hin, rfl⟩ := hr.present key stay hstay (Nat.le_of_add_right_le hdue)
      refine ⟨h, (hmem h).mpr ⟨hin, ?_⟩, rfl⟩
      by_cases hfree : busy = some h
      · exact hbusy h hfree
      · obtain ⟨stay', hstay', hpatience, -, -⟩ := hr.told h hin
        rw [Option.some.inj (hstay.symm.trans hstay')] at hdue
        exact (hkept h hin stay' hstay' hpatience hfree).mpr hdue
    held := fun h hheld => (hmem h).mpr ⟨hr.held h hheld, hbusy h hheld⟩ }

/-! ## Accesses -/

theorem lastAccess_touch (hpast : (r.usage h).lastAccess.toNat ≤ now) (hfits : now ≤ Word.maxNat) :
    ((r.usage h).touch (Word.clamp now)).lastAccess.toNat = now := by
  have hclock : (Word.clamp now).toNat = now := by
    rw [Word.toNat_clamp]
    exact Nat.min_eq_left hfits
  rw [Usage.lastAccess_touch, if_pos (by rwa [UInt64.le_iff_toNat_le, hclock]), hclock]

/-- A limiter that was made now is the one of a free key. -/
theorem create (hr : r.Reflects period stays none wake now) (hperiod : 0 < period)
    (hwake : period ∣ wake) (hnext : wake ≤ now + period) (hfits : now ≤ Word.maxNat)
    {bucket : Bucket} (hfree : r.find? bucket.key = none)
    (hstays : ∀ key, key ≠ bucket.key → stays' key = stays key)
    (hself : stays' bucket.key = some ⟨bucket.config.intervalMillis.toNat, now⟩) :
    (r.create bucket (Word.clamp now)).2.Reflects period stays' none wake now where
  keys := nodup_keys_concat (h := (r.create bucket (Word.clamp now)).1) hr.keys hfree
  ids := by
    show ((r.registered ++ [_]).map Handle.id).Nodup
    rw [List.map_append]
    refine List.nodup_append.mpr ⟨hr.ids, List.nodup_singleton _, ?_⟩
    rintro _ hmem _ hlast rfl
    obtain ⟨h, hmem, hid⟩ := List.mem_map.mp hmem
    have hissued := hr.issued h hmem
    rw [hid, List.mem_singleton.mp hlast] at hissued
    exact Nat.lt_irrefl _ hissued
  issued h hmem := by
    show h.id < (r.usages ++ [_]).length
    rw [List.length_append]
    rcases List.mem_append.mp hmem with hold | hnew
    · exact Nat.lt_add_right _ (hr.issued h hold)
    · rw [List.mem_singleton.mp hnew]
      exact Nat.lt_succ_self _
  told h hmem := by
    rcases List.mem_append.mp hmem with hold | hnew
    · obtain ⟨stay, hstay, htold⟩ := hr.told h hold
      refine ⟨stay, (hstays _ (key_ne_of_find?_none hfree hold)).trans hstay, ?_⟩
      rwa [usage_create_of_issued bucket (hr.issued h hold)]
    · have hfresh := usage_create_self r bucket (Word.clamp now)
      have hsame : h = (r.create bucket (Word.clamp now)).1 := List.mem_singleton.mp hnew
      subst hsame
      refine ⟨_, hself, rfl, ?_⟩
      rw [hfresh, if_neg nofun, Word.toNat_clamp, Nat.min_eq_left hfits]
      exact ⟨Nat.le_refl _, rfl, rfl, Stay.le_due_of_now hperiod hwake hnext _⟩
  present key stay hstay hdue := by
    by_cases hkey : key = bucket.key
    · exact ⟨_, List.mem_append_right _ (List.mem_singleton_self _), hkey.symm⟩
    · rw [hstays key hkey] at hstay
      obtain ⟨h, hmem, hsame⟩ := hr.present key stay hstay hdue
      exact ⟨h, List.mem_append_left _ hmem, hsame⟩
  held _ hbusy := absurd hbusy nofun

/-- A lookup gives the limiter of a key and renews the key's time. -/
theorem lookup (hr : r.Reflects period stays none wake now) (hperiod : 0 < period)
    (hwake : period ∣ wake) (hnext : wake ≤ now + period) (hfits : now ≤ Word.maxNat)
    (key : LimiterKey) (config : LimiterConfig)
    (hstays : ∀ key', key' ≠ key → stays' key' = stays key')
    (hself : stays' key = some (.renewed (stays key) (fun s => wake ≤ s.due period)
      config.intervalMillis.toNat now)) :
    (r.getOrCreate key config (Word.clamp now)).2.1.Reflects period stays' none wake now ∧
      (r.getOrCreate key config (Word.clamp now)).1 ∈
        (r.getOrCreate key config (Word.clamp now)).2.1.registered := by
  rcases getOrCreate_cases r key config (Word.clamp now) with
    ⟨h, hfind, hgiven, hafter⟩ | ⟨hfree, hgiven, hafter⟩
  · obtain ⟨hmem, rfl⟩ := mem_of_find? hfind
    obtain ⟨stay, hstay, hpatience, hpast, hstate⟩ := hr.told h hmem
    rw [if_neg nofun] at hstate
    obtain ⟨hnone, -, hdue⟩ := hstate
    have hthere : ((stays h.key).filter fun s => wake ≤ s.due period) = some stay := by
      rw [hstay]
      exact Option.filter_some_pos (decide_eq_true hdue)
    rw [Stay.renewed, hthere] at hself
    have hlast := lastAccess_touch hpast hfits
    rw [hgiven, hafter]
    refine ⟨hr.modify hmem hstays (fun _ _ => Iff.rfl) ⟨_, hself, hpatience, ?_⟩, hmem⟩
    rw [usage_modify_self (hr.issued h hmem), if_neg nofun, hlast]
    exact ⟨Nat.le_refl _, hnone, rfl, Stay.le_due_of_now hperiod hwake hnext _⟩
  · have hthere : ((stays key).filter fun s => wake ≤ s.due period) = none := by
      refine Option.filter_eq_none_iff.mpr fun stay hstay hdue => ?_
      obtain ⟨h, hmem, hkey⟩ := hr.present key stay hstay (of_decide_eq_true hdue)
      exact key_ne_of_find?_none hfree hmem hkey
    rw [Stay.renewed, hthere] at hself
    rw [hgiven, hafter]
    exact ⟨hr.create hperiod hwake hnext hfits hfree hstays hself,
      List.mem_append_right _ (List.mem_singleton_self _)⟩

/-! ## Takes -/

/-- A registered limiter gets busy. -/
theorem enter (hr : r.Reflects period stays none wake now) (hfits : now ≤ Word.maxNat)
    (hmem : h ∈ r.registered) :
    (r.enter h (Word.clamp now)).Reflects period stays (some h) wake now := by
  obtain ⟨stay, hstay, hpatience, hpast, hstate⟩ := hr.told h hmem
  rw [if_neg nofun] at hstate
  have hplace : r.register h = r := by
    rcases register_cases r h with hsame | ⟨-, hfree, -⟩
    · exact hsame
    · exact absurd rfl (key_ne_of_find?_none hfree hmem)
  have hlast := lastAccess_touch hpast hfits
  rw [Registry.enter, hplace]
  refine hr.modify hmem (fun _ _ => rfl) (fun h' hne => ?_) ⟨stay, hstay, hpatience, ?_⟩
  · exact ⟨fun hbusy => absurd (Option.some.inj hbusy).symm hne, nofun⟩
  · rw [usage_modify_self (hr.issued h hmem), if_pos rfl]
    exact ⟨Nat.le_of_eq hlast, by rw [Usage.enter, Usage.inFlight_touch, hstate.1]⟩

/-- A busy limiter is accessed. -/
theorem touch (hr : r.Reflects period stays (some h) wake now) (hfits : now ≤ Word.maxNat) :
    (r.touch h (Word.clamp now)).Reflects period stays (some h) wake now ∧
      ((r.touch h (Word.clamp now)).usage h).lastAccess.toNat = now := by
  have hmem := hr.held h rfl
  obtain ⟨stay, hstay, hpatience, hpast, hstate⟩ := hr.told h hmem
  rw [if_pos rfl] at hstate
  have hself : (r.touch h (Word.clamp now)).usage h = (r.usage h).touch (Word.clamp now) :=
    usage_modify_self (hr.issued h hmem)
  have hlast := lastAccess_touch hpast hfits
  refine ⟨hr.modify hmem (fun _ _ => rfl) (fun _ _ => Iff.rfl) ⟨stay, hstay, hpatience, ?_⟩, ?_⟩
  · rw [usage_modify_self (hr.issued h hmem), if_pos rfl]
    exact ⟨Nat.le_of_eq hlast, hstate⟩
  · rw [hself, hlast]

/-- A limiter that was busy until now is free, and its key's time starts again. -/
theorem leave (hr : r.Reflects period stays (some h) wake now) (hperiod : 0 < period)
    (hwake : period ∣ wake) (hnext : wake ≤ now + period)
    (hlast : (r.usage h).lastAccess.toNat = now)
    (hstays : ∀ key, key ≠ h.key → stays' key = stays key)
    (hself : stays' h.key = (stays h.key).map fun stay => ⟨stay.patience, now⟩) :
    (r.leave h).Reflects period stays' none wake now := by
  have hmem := hr.held h rfl
  obtain ⟨stay, hstay, hpatience, hpast, hstate⟩ := hr.told h hmem
  rw [if_pos rfl] at hstate
  rw [hstay] at hself
  refine hr.modify hmem hstays (fun h' hne => ?_) ⟨_, hself, hpatience, ?_⟩
  · exact ⟨nofun, fun hbusy => absurd (Option.some.inj hbusy).symm hne⟩
  · rw [usage_modify_self (hr.issued h hmem), if_neg nofun]
    exact ⟨hpast, by rw [Usage.inFlight_leave, hstate], hlast,
      Stay.le_due_of_now hperiod hwake hnext _⟩

end Reflects

end Registry

end FlowControl
