import FlowControl.Proofs.Store.Live

/-!
# What a store is to do

The contract of a store is stated over `Contents`: what there is under each key at each
reading of the clock, now and later.  A value that is written is there up to the reading
at which it expires, and nothing has to remove it then.

A store in memory that is available keeps the contract, from any reading on and for
calls whose times to live are in range.  At readings before that it may show something
else, since a purge is seen if the clock goes back.
-/

namespace FlowControl

/-- What there is under each key at each reading. -/
abbrev Contents := Nat → String → Option String

namespace Contents

/-- Nothing at any time. -/
def empty : Contents := fun _ _ => none

/-- Another value under a key, up to a reading. -/
def put (c : Contents) (key value : String) (deadline : Nat) : Contents := fun t other =>
  if other = key then if t < deadline then some value else none else c t other

/-- Nothing under a key any more. -/
def erase (c : Contents) (key : String) : Contents := fun t other =>
  if other = key then none else c t other

/-- What a call answers at a reading, and what there is afterwards. -/
def answer (c : Contents) (now : Nat) : (call : StoreCall) → call.Value × Contents
  | .get key => (c now key, c)
  | .set key value ttl => ((), c.put key value (now + ttl.millis))
  | .setIfAbsent key value ttl =>
    match c now key with
    | some _ => (false, c)
    | none => (true, c.put key value (now + ttl.millis))
  | .deleteIfEqual key expected =>
    if c now key = some expected then (true, c.erase key) else (false, c)
  | .delete key => ((), c.erase key)

/-- Are two contents the same from a reading on? -/
def SameFrom (now : Nat) (c c' : Contents) : Prop := ∀ t, now ≤ t → ∀ key, c t key = c' t key

variable {c c' : Contents} {now reading : Nat}

theorem SameFrom.refl (now : Nat) (c : Contents) : SameFrom now c c := fun _ _ _ => rfl

theorem SameFrom.trans {c'' : Contents} (h : SameFrom now c c') (h' : SameFrom now c' c'') :
    SameFrom now c c'' :=
  fun t ht key => (h t ht key).trans (h' t ht key)

theorem SameFrom.later (hle : now ≤ reading) (h : SameFrom now c c') : SameFrom reading c c' :=
  fun t ht => h t (Nat.le_trans hle ht)

theorem SameFrom.put (h : SameFrom now c c') (key value : String) (deadline : Nat) :
    SameFrom now (c.put key value deadline) (c'.put key value deadline) := by
  intro t ht other
  simp only [Contents.put, h t ht other]

theorem SameFrom.erase (h : SameFrom now c c') (key : String) :
    SameFrom now (c.erase key) (c'.erase key) := by
  intro t ht other
  simp only [Contents.erase, h t ht other]

/-- What is the same from a reading on answers a call alike then, and stays the same. -/
theorem SameFrom.answer (h : SameFrom now c c') (call : StoreCall) :
    (c.answer now call).1 = (c'.answer now call).1 ∧
      SameFrom now (c.answer now call).2 (c'.answer now call).2 := by
  have hnow := h now (Nat.le_refl now)
  cases call with
  | get key => exact ⟨hnow key, h⟩
  | set key value ttl => exact ⟨rfl, h.put key value _⟩
  | setIfAbsent key value ttl =>
      simp only [Contents.answer, hnow key]
      cases c' now key with
      | some other => exact ⟨rfl, h⟩
      | none => exact ⟨rfl, h.put key value _⟩
  | deleteIfEqual key expected =>
      simp only [Contents.answer, hnow key]
      split
      · exact ⟨rfl, h.erase key⟩
      · exact ⟨rfl, h⟩
  | delete key => exact ⟨rfl, h.erase key⟩

end Contents

/-- Is the time to live of a call, if it has one, at least a millisecond, and does it end at a
reading? -/
def StoreCall.FitsAt (now : UInt64) : StoreCall → Prop
  | .set _ _ ttl | .setIfAbsent _ _ ttl => 1 ≤ ttl.millis ∧ now.toNat + ttl.millis < Word.size
  | _ => True

instance (now : UInt64) : (c : StoreCall) → Decidable (c.FitsAt now)
  | .set _ _ ttl | .setIfAbsent _ _ ttl =>
    inferInstanceAs (Decidable (1 ≤ ttl.millis ∧ now.toNat + ttl.millis < Word.size))
  | .get _ | .deleteIfEqual .. | .delete _ => .isTrue trivial

instance : (c : StoreCall) → DecidableEq c.Value
  | .get _ => inferInstanceAs (DecidableEq (Option String))
  | .set .. | .delete _ => inferInstanceAs (DecidableEq Unit)
  | .setIfAbsent .. | .deleteIfEqual .. => inferInstanceAs (DecidableEq Bool)

/-- A call, and what it was answered. -/
abbrev Answered := (c : StoreCall) × Except StoreFault c.Value

/-- What calls one after another are answered, each at its reading. -/
def answersTo {σ : Type} (call : UInt64 → (c : StoreCall) → σ → Except StoreFault c.Value × σ) :
    List (UInt64 × StoreCall) → σ → List Answered
  | [], _ => []
  | (now, c) :: rest, s =>
    let (answer, s) := call now c s
    ⟨c, answer⟩ :: answersTo call rest s

/-- What the contract demands that calls one after another are answered. -/
def contractAnswers : List (UInt64 × StoreCall) → Contents → List Answered :=
  answersTo fun now call c => (.ok (c.answer now.toNat call).1, (c.answer now.toNat call).2)

/-- Does a store keep the contract, where `shows now s c` says that a state has these contents from
a reading on? -/
structure KeepsContract {σ : Type}
    (call : UInt64 → (c : StoreCall) → σ → Except StoreFault c.Value × σ)
    (shows : UInt64 → σ → Contents → Prop) : Prop where
  call : ∀ {now s contents} (c : StoreCall), c.FitsAt now → shows now s contents →
    (call now c s).1 = .ok (contents.answer now.toNat c).1 ∧
      shows now (call now c s).2 (contents.answer now.toNat c).2
  later : ∀ {now later s contents}, now ≤ later → shows now s contents → shows later s contents

/-- Calls one after another are then answered as the contract demands, while the clock does not go
back. -/
theorem KeepsContract.answers {σ : Type}
    {call : UInt64 → (c : StoreCall) → σ → Except StoreFault c.Value × σ}
    {shows : UInt64 → σ → Contents → Prop} (hkeeps : KeepsContract call shows)
    {calls : List (UInt64 × StoreCall)} (hreadings : calls.Pairwise fun x y => x.1 ≤ y.1)
    (hfits : ∀ x ∈ calls, x.2.FitsAt x.1) {now : UInt64} (hnow : ∀ x ∈ calls, now ≤ x.1)
    {s : σ} {contents : Contents} (h : shows now s contents) :
    answersTo call calls s = contractAnswers calls contents := by
  induction calls generalizing now s contents with
  | nil => rfl
  | cons x calls ih =>
      obtain ⟨reading, c⟩ := x
      obtain ⟨hfirst, hrest⟩ := List.pairwise_cons.mp hreadings
      have hshows : shows reading s contents := hkeeps.later (hnow _ List.mem_cons_self) h
      obtain ⟨hanswer, hafter⟩ := hkeeps.call c (hfits _ List.mem_cons_self) hshows
      have hothers := ih hrest (fun y hy => hfits y (List.mem_cons_of_mem _ hy)) hfirst hafter
      simp only [contractAnswers, answersTo] at hothers ⊢
      rw [hanswer, hothers]

namespace Memory

variable {m : Memory} {now reading : UInt64} {c : Contents}

/-- Is a store available, and does it show these contents from a reading on? -/
structure ShowsFrom (now : UInt64) (m : Memory) (c : Contents) : Prop where
  available : m.unavailable = false
  live : ∀ t, now ≤ t → ∀ key, m.live? key t = c t.toNat key

theorem showsFrom_empty (now : UInt64) : ShowsFrom now .empty .empty := ⟨rfl, fun _ _ _ => rfl⟩

theorem ShowsFrom.later (hle : now ≤ reading) (h : ShowsFrom now m c) : ShowsFrom reading m c :=
  ⟨h.available, fun t ht => h.live t (UInt64.le_trans hle ht)⟩

theorem ShowsFrom.purge (h : ShowsFrom now m c) (key : String) :
    ShowsFrom now (m.purge key now) c :=
  ⟨unavailable_purge.trans h.available,
    fun t ht other => (live?_purge ht).trans (h.live t ht other)⟩

theorem ShowsFrom.erase (h : ShowsFrom now m c) (key : String) :
    ShowsFrom now (m.erase key) (c.erase key) := by
  refine ⟨h.available, fun t ht other => ?_⟩
  by_cases hkey : other = key
  · simp [live?_eq, Contents.erase, hkey]
  · rw [live?_congr (find?_erase_of_ne hkey), h.live t ht other]
    simp [Contents.erase, hkey]

theorem ShowsFrom.put (h : ShowsFrom now m c) (key value : String) {ttl : Duration}
    (hfits : now.toNat + ttl.millis < Word.size) :
    ShowsFrom now (m.put key ⟨value, expiry now ttl⟩)
      (c.put key value (now.toNat + ttl.millis)) := by
  refine ⟨h.available, fun t ht other => ?_⟩
  by_cases hkey : other = key
  · have hexpired : expiry now ttl ≤ t ↔ ¬ t.toNat < now.toNat + ttl.millis := by
      rw [UInt64.le_iff_toNat_le, toNat_expiry hfits, Nat.not_lt]
    rw [hkey, live?_eq, find?_put_self]
    by_cases hlive : t.toNat < now.toNat + ttl.millis <;> simp [Contents.put, hexpired, hlive]
  · rw [live?_congr (find?_put_of_ne _ hkey), h.live t ht other]
    simp [Contents.put, hkey]

/-- A call does to a store in memory what the contract says. -/
theorem ShowsFrom.answer (h : ShowsFrom now m c) {call : StoreCall} (hfits : call.FitsAt now) :
    (m.answer now call).1 = (c.answer now.toNat call).1 ∧
      ShowsFrom now (m.answer now call).2 (c.answer now.toNat call).2 := by
  have hlive := fun key => h.live now (UInt64.le_refl now) key
  cases call with
  | get key => exact ⟨hlive key, h.purge key⟩
  | set key value ttl => exact ⟨rfl, h.put key value hfits.2⟩
  | setIfAbsent key value ttl =>
      cases hkey : c now.toNat key with
      | some other =>
          rw [answer_setIfAbsent_of_live ((hlive key).trans hkey)]
          simp only [Contents.answer, hkey, true_and]
          exact h.purge key
      | none =>
          rw [answer_setIfAbsent_of_free ((hlive key).trans hkey)]
          simp only [Contents.answer, hkey, true_and]
          exact h.put key value hfits.2
  | deleteIfEqual key expected =>
      by_cases hkey : c now.toNat key = some expected
      · rw [answer_deleteIfEqual_of_live ((hlive key).trans hkey)]
        simp only [Contents.answer, hkey, if_true, true_and]
        exact h.erase key
      · rw [answer_deleteIfEqual_of_ne fun hm => hkey ((hlive key).symm.trans hm)]
        simp only [Contents.answer, hkey, if_false, true_and]
        exact h.purge key
  | delete key => exact ⟨rfl, h.erase key⟩

/-- A store in memory keeps the contract while it is available. -/
theorem keepsContract : KeepsContract (fun now c m => m.call now c) ShowsFrom where
  call _ hfits h := by
    rw [call_of_available h.available]
    exact ⟨congrArg Except.ok (h.answer hfits).1, (h.answer hfits).2⟩
  later := ShowsFrom.later

end Memory

end FlowControl
