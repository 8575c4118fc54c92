import FlowControl.Store.Call

/-!
# A store in memory

Every value carries the reading at which it expires.  A key whose value has
expired is absent, though its entry stays until a call on that key removes it; if
the clock is set back before that, the value is there again.  While the store is
marked unavailable every call fails and changes nothing.
-/

namespace FlowControl

/-- A stored text and the clock reading from which on it is gone. -/
structure MemoryEntry where
  value : String
  expiresAt : UInt64
  deriving DecidableEq, Repr

/-- The entries of a store, one for a key, and whether it is marked unavailable. -/
structure Memory where
  entries : List (String × MemoryEntry)
  unavailable : Bool
  deriving Repr

namespace Memory

/-- A store without entries. -/
def empty : Memory := ⟨[], false⟩

instance : Inhabited Memory := ⟨empty⟩

/-- The entry under a key, expired or not. -/
def find? (m : Memory) (key : String) : Option MemoryEntry := m.entries.lookup key

/-- Removes the entry under a key. -/
def erase (m : Memory) (key : String) : Memory :=
  { m with entries := m.entries.filter (fun p => p.1 != key) }

/-- Puts an entry under a key, in place of any other. -/
def put (m : Memory) (key : String) (e : MemoryEntry) : Memory :=
  { m with entries := (key, e) :: (m.erase key).entries }

/-- The reading at which a value written now expires. -/
def expiry (now : UInt64) (ttl : Duration) : UInt64 := Word.add now ttl.millisWord

/-- Removes the entry under a key if it has expired. -/
def purge (m : Memory) (key : String) (now : UInt64) : Memory :=
  match m.find? key with
  | some e => if e.expiresAt ≤ now then m.erase key else m
  | none => m

/-- The value under a key at a reading. -/
def live? (m : Memory) (key : String) (now : UInt64) : Option String :=
  match m.find? key with
  | some e => if e.expiresAt ≤ now then none else some e.value
  | none => none

/-- The number of keys with a value at a reading. -/
def liveCount (m : Memory) (now : UInt64) : Nat :=
  (m.entries.filter fun p => now < p.2.expiresAt).length

/-- Answers a call at a reading of the clock. -/
def answer (m : Memory) (now : UInt64) : (c : StoreCall) → c.Value × Memory
  | .get key => (m.live? key now, m.purge key now)
  | .set key value ttl => ((), m.put key ⟨value, expiry now ttl⟩)
  | .setIfAbsent key value ttl =>
    match m.live? key now with
    | some _ => (false, m.purge key now)
    | none => (true, m.put key ⟨value, expiry now ttl⟩)
  | .deleteIfEqual key expected =>
    if m.live? key now = some expected then (true, m.erase key)
    else (false, m.purge key now)
  | .delete key => ((), m.erase key)

/-- The fault of a store that is marked unavailable. -/
def outage : StoreFault := .unavailable "in-memory store marked unavailable"

/-- Answers a call, unless the store is marked unavailable. -/
def call (m : Memory) (now : UInt64) (c : StoreCall) : Except StoreFault c.Value × Memory :=
  if m.unavailable then (.error outage, m)
  else
    let (value, m) := m.answer now c
    (.ok value, m)

/-! ## The view of the entries by key -/

theorem find?_erase (m : Memory) (key other : String) :
    (m.erase key).find? other = if other = key then none else m.find? other := by
  simp only [find?, erase]
  generalize m.entries = es
  induction es with
  | nil => simp
  | cons p es ih =>
    obtain ⟨k, e⟩ := p
    by_cases hk : k = key
    · subst hk
      by_cases ho : other = k
      · subst ho
        simpa using ih
      · have hne : (other == k) = false := by simpa using ho
        simpa [List.lookup_cons, hne, ho] using ih
    · by_cases ho : other = k
      · subst ho
        simp [hk]
      · have hne : (other == k) = false := by simpa using ho
        simpa [List.filter_cons, List.lookup_cons, hk, hne] using ih

theorem find?_put (m : Memory) (key other : String) (e : MemoryEntry) :
    (m.put key e).find? other = if other = key then some e else m.find? other := by
  have h := find?_erase m key other
  simp only [find?, put] at *
  by_cases ho : other = key
  · subst ho
    simp
  · have hne : (other == key) = false := by simpa using ho
    simp only [List.lookup_cons, hne, h, ho, if_false]

theorem live?_eq (m : Memory) (key : String) (now : UInt64) :
    m.live? key now =
      (m.find? key).bind fun e => if e.expiresAt ≤ now then none else some e.value := by
  unfold live?
  cases m.find? key <;> rfl

end Memory

end FlowControl
