import FlowControl.Store.Memory

/-!
# What a store in memory shows

A call sees a key only through its entry and the reading: the value is there
until the entry expires.  These lemmas say what every call answers and leaves
behind in terms of entries (`find?`) and of what readings show (`live?`), so that
the list behind a store is not opened again.  An expired entry that is purged was
not shown before and is not shown afterwards.
-/

namespace FlowControl.Memory

variable {m m' : Memory} {key other value : String} {now later : UInt64}

/-! ## Readings -/

theorem live?_eq_some_iff :
    m.live? key now = some value ↔
      ∃ e, m.find? key = some e ∧ now < e.expiresAt ∧ e.value = value := by
  rw [live?_eq]
  cases m.find? key with
  | none => simp
  | some e =>
      by_cases hexpired : e.expiresAt ≤ now
      · simp [hexpired, UInt64.not_lt.mpr hexpired]
      · simp [hexpired, UInt64.not_le.mp hexpired]

theorem live?_eq_none_iff :
    m.live? key now = none ↔ ∀ e, m.find? key = some e → e.expiresAt ≤ now := by
  rw [live?_eq]
  cases m.find? key with
  | none => simp
  | some e =>
      by_cases hexpired : e.expiresAt ≤ now
      · simp [hexpired]
      · simp [hexpired]

theorem live?_of_find?_none (h : m.find? key = none) : m.live? key now = none :=
  live?_eq_none_iff.mpr fun e he => by rw [h] at he; cases he

theorem live?_congr (h : m.find? key = m'.find? key) : m.live? key now = m'.live? key now := by
  rw [live?_eq, live?_eq, h]

/-- What is gone stays gone while the clock does not go back. -/
theorem live?_none_of_le (h : m.live? key now = none) (hle : now ≤ later) :
    m.live? key later = none :=
  live?_eq_none_iff.mpr fun e he => UInt64.le_trans (live?_eq_none_iff.mp h e he) hle

/-- What is shown at a reading was shown at every earlier one. -/
theorem live?_some_of_le (h : m.live? key later = some value) (hle : now ≤ later) :
    m.live? key now = some value := by
  obtain ⟨e, he, hlater, hvalue⟩ := live?_eq_some_iff.mp h
  exact live?_eq_some_iff.mpr ⟨e, he, UInt64.lt_of_le_of_lt hle hlater, hvalue⟩

/-- The reading at which a value written now expires, when the clock can show it. -/
theorem toNat_expiry {ttl : Duration} (h : now.toNat + ttl.millis < Word.size) :
    (expiry now ttl).toNat = now.toNat + ttl.millis := by
  have hmax : Word.size = Word.maxNat + 1 := rfl
  unfold expiry
  rw [Word.toNat_add, Duration.toNat_millisWord]
  omega

/-! ## Entries after a change -/

@[simp] theorem find?_put_self (e : MemoryEntry) : (m.put key e).find? key = some e := by
  simp [find?_put]

theorem find?_put_of_ne (e : MemoryEntry) (h : other ≠ key) :
    (m.put key e).find? other = m.find? other := by
  simp [find?_put, h]

@[simp] theorem find?_erase_self : (m.erase key).find? key = none := by
  simp [find?_erase]

theorem find?_erase_of_ne (h : other ≠ key) : (m.erase key).find? other = m.find? other := by
  simp [find?_erase, h]

theorem find?_purge_of_ne (h : other ≠ key) :
    (m.purge key now).find? other = m.find? other := by
  unfold purge
  split
  · split
    · exact find?_erase_of_ne h
    · rfl
  · rfl

/-- Purging keeps an entry exactly as long as it is shown. -/
theorem find?_purge_self :
    (m.purge key now).find? key = (m.find? key).filter fun e => now < e.expiresAt := by
  unfold purge
  cases he : m.find? key with
  | none => simp [he]
  | some e =>
      by_cases hexpired : e.expiresAt ≤ now
      · simp [Option.filter, hexpired, UInt64.not_lt.mpr hexpired]
      · simp [Option.filter, hexpired, UInt64.not_le.mp hexpired, he]

/-- Purging leaves an entry, unless it has expired. -/
theorem find?_purge_cases :
    (m.purge key now).find? key = m.find? key ∨
      (m.purge key now).find? key = none ∧ ∃ e, m.find? key = some e ∧ e.expiresAt ≤ now := by
  rw [find?_purge_self]
  cases hentry : m.find? key with
  | none => exact .inl rfl
  | some e =>
      by_cases hlive : now < e.expiresAt
      · exact .inl (by simp [Option.filter, hlive])
      · exact .inr ⟨by simp [Option.filter, hlive], e, rfl, UInt64.not_lt.mp hlive⟩

theorem find?_purge_of_live (h : m.live? key now = some value) :
    (m.purge key now).find? key = m.find? key := by
  obtain ⟨e, he, hshown, -⟩ := live?_eq_some_iff.mp h
  rw [find?_purge_self, he]
  simp [Option.filter, hshown]

/-- A purge at a reading is not noticed at that reading or later. -/
theorem live?_purge (hle : now ≤ later) :
    (m.purge other now).live? key later = m.live? key later := by
  by_cases hkey : key = other
  · subst hkey
    rw [live?_eq, live?_eq, find?_purge_self]
    cases m.find? key with
    | none => rfl
    | some e =>
        by_cases hexpired : now < e.expiresAt
        · simp [Option.filter, hexpired]
        · -- An entry that is purged now is not shown later either.
          have hlater : e.expiresAt ≤ later :=
            UInt64.le_trans (UInt64.not_lt.mp hexpired) hle
          simp [Option.filter, hexpired, hlater]
  · exact live?_congr (find?_purge_of_ne hkey)

theorem find?_of_purge {e : MemoryEntry} (h : (m.purge key now).find? key = some e) :
    m.find? key = some e := by
  rw [find?_purge_self] at h
  exact (Option.filter_eq_some_iff.mp h).1

/-- A purge at any reading shows nothing new. -/
theorem live?_purge_of_none (h : m.live? key later = none) :
    (m.purge key now).live? key later = none :=
  live?_eq_none_iff.mpr fun e he => live?_eq_none_iff.mp h e (find?_of_purge he)

/-! ## Calls -/

theorem call_of_available (h : m.unavailable = false) (now : UInt64) (c : StoreCall) :
    m.call now c = (.ok (m.answer now c).1, (m.answer now c).2) := by
  simp [call, h]

theorem call_of_outage (h : m.unavailable = true) (now : UInt64) (c : StoreCall) :
    m.call now c = (.error outage, m) := by
  simp [call, h]

@[simp] theorem unavailable_put (e : MemoryEntry) :
    (m.put key e).unavailable = m.unavailable := rfl

@[simp] theorem unavailable_erase : (m.erase key).unavailable = m.unavailable := rfl

@[simp] theorem unavailable_purge : (m.purge key now).unavailable = m.unavailable := by
  unfold purge
  split
  · split <;> rfl
  · rfl

@[simp] theorem unavailable_answer (c : StoreCall) :
    (m.answer now c).2.unavailable = m.unavailable := by
  cases c with
  | get key => simp [answer]
  | set key value ttl => simp [answer]
  | setIfAbsent key value ttl =>
      simp only [answer]
      split <;> simp
  | deleteIfEqual key expected =>
      simp only [answer]
      split <;> simp
  | delete key => simp [answer]

theorem unavailable_call (m : Memory) (now : UInt64) (c : StoreCall) :
    (m.call now c).2.unavailable = m.unavailable := by
  unfold call
  split
  · rfl
  · exact unavailable_answer c

theorem find?_answer_of_ne (c : StoreCall) (h : c.key ≠ key) :
    (m.answer now c).2.find? key = m.find? key := by
  have hne : key ≠ c.key := fun he => h he.symm
  cases c with
  | get k => exact find?_purge_of_ne hne
  | set k value ttl => exact find?_put_of_ne _ hne
  | setIfAbsent k value ttl =>
      simp only [answer]
      split
      · exact find?_purge_of_ne hne
      · exact find?_put_of_ne _ hne
  | deleteIfEqual k expected =>
      simp only [answer]
      split
      · exact find?_erase_of_ne hne
      · exact find?_purge_of_ne hne
  | delete k => exact find?_erase_of_ne hne

theorem answer_setIfAbsent_of_live {ttl : Duration} (h : m.live? key now = some other) :
    m.answer now (.setIfAbsent key value ttl) = (false, m.purge key now) := by
  simp [answer, h]

theorem answer_setIfAbsent_of_free {ttl : Duration} (h : m.live? key now = none) :
    m.answer now (.setIfAbsent key value ttl) = (true, m.put key ⟨value, expiry now ttl⟩) := by
  simp [answer, h]

theorem answer_deleteIfEqual_of_live (h : m.live? key now = some value) :
    m.answer now (.deleteIfEqual key value) = (true, m.erase key) := by
  simp [answer, h]

theorem answer_deleteIfEqual_of_ne (h : m.live? key now ≠ some value) :
    m.answer now (.deleteIfEqual key value) = (false, m.purge key now) := by
  simp [answer, h]

theorem find?_of_deleteIfEqual {e : MemoryEntry}
    (h : (m.answer now (.deleteIfEqual key value)).2.find? key = some e) :
    m.find? key = some e := by
  by_cases hlive : m.live? key now = some value
  · rw [answer_deleteIfEqual_of_live hlive, find?_erase_self] at h
    cases h
  · rw [answer_deleteIfEqual_of_ne hlive] at h
    exact find?_of_purge h

/-- Stores that show the same under a call's key answer it alike, and do the same to their entry
there: it is purged, overwritten or removed. -/
theorem answer_alike (c : StoreCall) (h : m.live? c.key now = m'.live? c.key now) :
    (m.answer now c).1 = (m'.answer now c).1 ∧
      ((m.answer now c).2 = m.purge c.key now ∧ (m'.answer now c).2 = m'.purge c.key now ∨
        (∃ e, (m.answer now c).2 = m.put c.key e ∧ (m'.answer now c).2 = m'.put c.key e) ∨
        (m.answer now c).2 = m.erase c.key ∧ (m'.answer now c).2 = m'.erase c.key) := by
  cases c with
  | get k => exact ⟨h, .inl ⟨rfl, rfl⟩⟩
  | set k value ttl => exact ⟨rfl, .inr (.inl ⟨_, rfl, rfl⟩)⟩
  | delete k => exact ⟨rfl, .inr (.inr ⟨rfl, rfl⟩)⟩
  | setIfAbsent k value ttl =>
      have hk : m.live? k now = m'.live? k now := h
      simp only [answer, StoreCall.key, hk]
      cases m'.live? k now with
      | none => exact ⟨rfl, .inr (.inl ⟨_, rfl, rfl⟩)⟩
      | some other => exact ⟨rfl, .inl ⟨rfl, rfl⟩⟩
  | deleteIfEqual k expected =>
      have hk : m.live? k now = m'.live? k now := h
      simp only [answer, StoreCall.key, hk]
      split
      · exact ⟨rfl, .inr (.inr ⟨rfl, rfl⟩)⟩
      · exact ⟨rfl, .inl ⟨rfl, rfl⟩⟩

/-- Stores with the same entry under a call's key keep the same entry there. -/
theorem find?_answer_congr (c : StoreCall) (h : m.find? c.key = m'.find? c.key) :
    (m.answer now c).2.find? c.key = (m'.answer now c).2.find? c.key := by
  have hlive : m.live? c.key now = m'.live? c.key now := live?_congr h
  rcases (answer_alike c hlive).2 with
    ⟨hm, hm'⟩ | ⟨e, hm, hm'⟩ | ⟨hm, hm'⟩
  · rw [hm, hm', find?_purge_self, find?_purge_self, h]
  · rw [hm, hm', find?_put_self, find?_put_self]
  · rw [hm, hm', find?_erase_self, find?_erase_self]

/-- Stores that show the same under a call's key from its reading on go on to do so. -/
theorem live?_answer_congr (c : StoreCall)
    (h : ∀ t, now ≤ t → m.live? c.key t = m'.live? c.key t) (hlater : now ≤ later) :
    (m.answer now c).2.live? c.key later = (m'.answer now c).2.live? c.key later := by
  rcases (answer_alike c (h now (UInt64.le_refl now))).2 with
    ⟨hm, hm'⟩ | ⟨e, hm, hm'⟩ | ⟨hm, hm'⟩
  · rw [hm, hm', live?_purge hlater, live?_purge hlater, h later hlater]
  · rw [hm, hm']
    exact live?_congr (by rw [find?_put_self, find?_put_self])
  · rw [hm, hm']
    exact live?_congr (by rw [find?_erase_self, find?_erase_self])

/-! ## Stores with the same entries under some keys -/

/-- Do two stores have the same entries under some keys, and are both marked unavailable or
neither? -/
structure SameUnder (keys : String → Prop) (m m' : Memory) : Prop where
  entry : ∀ key, keys key → m.find? key = m'.find? key
  unavailable : m.unavailable = m'.unavailable

variable {keys : String → Prop}

theorem SameUnder.refl (m : Memory) : SameUnder keys m m := ⟨fun _ _ => rfl, rfl⟩

theorem SameUnder.trans {m'' : Memory} (h : SameUnder keys m m') (h' : SameUnder keys m' m'') :
    SameUnder keys m m'' :=
  ⟨fun key hkey => (h.entry key hkey).trans (h'.entry key hkey),
    h.unavailable.trans h'.unavailable⟩

/-- A call about one of the keys is answered alike, and what it leaves is the same under all of
them. -/
theorem SameUnder.call (h : SameUnder keys m m') (now : UInt64) (c : StoreCall)
    (hkey : keys c.key) :
    (m.call now c).1 = (m'.call now c).1 ∧ SameUnder keys (m.call now c).2 (m'.call now c).2 := by
  cases hup : m.unavailable with
  | true =>
      rw [call_of_outage hup, call_of_outage (h.unavailable ▸ hup)]
      exact ⟨rfl, h⟩
  | false =>
      have hup' : m'.unavailable = false := h.unavailable ▸ hup
      rw [call_of_available hup, call_of_available hup']
      have hentry := h.entry c.key hkey
      refine ⟨congrArg Except.ok (answer_alike c (live?_congr hentry)).1, fun key hother => ?_, ?_⟩
      · by_cases hsame : c.key = key
        · subst hsame
          exact find?_answer_congr c hentry
        · rw [find?_answer_of_ne c hsame, find?_answer_of_ne c hsame, h.entry key hother]
      · rw [unavailable_answer, unavailable_answer, h.unavailable]

/-- A call about no such key changes nothing under them. -/
theorem sameUnder_call_of_not (m : Memory) (now : UInt64) (c : StoreCall)
    (hkey : ¬ keys c.key) : SameUnder keys (m.call now c).2 m := by
  cases hup : m.unavailable with
  | true =>
      rw [call_of_outage hup]
      exact .refl m
  | false =>
      rw [call_of_available hup]
      refine ⟨fun key hother => find?_answer_of_ne c fun hsame => hkey ?_, unavailable_answer c⟩
      rwa [hsame]

end FlowControl.Memory
