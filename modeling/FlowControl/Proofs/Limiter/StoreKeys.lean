import FlowControl.Limiter.Key

/-!
# Store keys of limiters

The parts of a limiter's key are joined by colons and not escaped.  So a store key shows
the list of its fields, the pieces between colons, but not which fields make up a part:
two limiters share a store key exactly when the fields of all their parts are the same.

If two limiters have as many colons in service, caller and method, then the joints are at
the same places, and the parts and the marker can be read off.  Such limiters share no
store key, and a state key is never a lock key.  The path comes last and may hold any
colons.  Plain limiters have no colons in the first three parts at all.

Nothing is claimed about which limiters a server should accept.
-/

namespace FlowControl.LimiterKey

variable {k k' : LimiterKey} {marker marker' : String}

/-- The characters of a store key: five parts with a colon before all but the first. -/
theorem toList_join (k : LimiterKey) (marker : String) :
    (k.join marker).toList =
      k.service.toList ++ ':' :: (marker.toList ++ ':' :: (k.caller.toList ++ ':' ::
        (k.method.toList ++ ':' :: k.path.toList))) := by
  simp [join]

/-! ## Which limiters share a store key -/

/-- The pieces between colons of all parts, with those of a marker behind the service. -/
def fields (k : LimiterKey) (marker : String) : List (List Char) :=
  [k.service, marker, k.caller, k.method, k.path].flatMap fun part => part.toList.splitOn ':'

/-- A store key shows the fields of its parts. -/
theorem splitOn_join (k : LimiterKey) (marker : String) :
    (k.join marker).toList.splitOn ':' = k.fields marker := by
  rw [toList_join]
  simp only [List.splitOn_append_cons_self, fields, List.flatMap_cons, List.flatMap_nil,
    List.append_nil]

/-- A store key shows nothing but the fields of its parts. -/
theorem join_eq_join_iff :
    k.join marker = k'.join marker' ↔ k.fields marker = k'.fields marker' := by
  constructor
  · intro h
    rw [← splitOn_join, ← splitOn_join, h]
  · intro h
    rw [← splitOn_join, ← splitOn_join] at h
    -- Joining the pieces again gives the key back.
    have hjoin := congrArg ([':'].intercalate ·) h
    simp only [List.intercalate_splitOn] at hjoin
    exact String.toList_inj.mp hjoin

/-! ## Colons at the same places -/

/-- Do two limiters have as many colons in service, caller and method? -/
structure SameColons (k k' : LimiterKey) : Prop where
  service : k.service.toList.count ':' = k'.service.toList.count ':'
  caller : k.caller.toList.count ':' = k'.caller.toList.count ':'
  method : k.method.toList.count ':' = k'.method.toList.count ':'

/-- The number of its colons tells where the part at the front of a list ends. -/
theorem eq_of_append_colon {a a' rest rest' : List Char} (hcount : a.count ':' = a'.count ':')
    (h : a ++ ':' :: rest = a' ++ ':' :: rest') : a = a' ∧ rest = rest' := by
  induction a generalizing a' with
  | nil =>
      cases a' with
      | nil => exact ⟨rfl, (List.cons.inj h).2⟩
      | cons c a' =>
          obtain ⟨rfl, _⟩ := List.cons.inj h
          simp at hcount
  | cons c a ih =>
      cases a' with
      | nil =>
          obtain ⟨rfl, _⟩ := List.cons.inj h
          simp at hcount
      | cons c' a' =>
          obtain ⟨rfl, htail⟩ := List.cons.inj h
          rw [List.count_cons, List.count_cons] at hcount
          obtain ⟨rfl, hrest⟩ := ih (Nat.add_right_cancel hcount) htail
          exact ⟨rfl, hrest⟩

/-- The part at the front of a store key is the service, so a marker follows that can be read. -/
theorem marker_eq_of_join_eq (hservice : k.service.toList.count ':' = k'.service.toList.count ':')
    (hmarker : marker.toList.count ':' = marker'.toList.count ':')
    (h : k.join marker = k'.join marker') : marker = marker' := by
  have hjoin := congrArg String.toList h
  rw [toList_join, toList_join] at hjoin
  obtain ⟨_, hjoin⟩ := eq_of_append_colon hservice hjoin
  exact String.toList_inj.mp (eq_of_append_colon hmarker hjoin).1

/-- Limiters with colons at the same places can be read off their store keys. -/
theorem SameColons.eq_of_join_eq (hsame : k.SameColons k') (h : k.join marker = k'.join marker) :
    k = k' := by
  have hjoin := congrArg String.toList h
  rw [toList_join, toList_join] at hjoin
  -- Each part ends at a colon whose number is known, so the parts come off one by one.
  obtain ⟨hservice, hjoin⟩ := eq_of_append_colon hsame.service hjoin
  obtain ⟨_, hjoin⟩ := eq_of_append_colon rfl hjoin
  obtain ⟨hcaller, hjoin⟩ := eq_of_append_colon hsame.caller hjoin
  obtain ⟨hmethod, hpath⟩ := eq_of_append_colon hsame.method hjoin
  cases k
  cases k'
  simp only [mk.injEq]
  exact ⟨String.toList_inj.mp hservice, String.toList_inj.mp hcaller,
    String.toList_inj.mp hmethod, String.toList_inj.mp hpath⟩

/-- A state key is no lock key of a limiter with as many colons in its service. -/
theorem stateKey_ne_lockKey (h : k.service.toList.count ':' = k'.service.toList.count ':') :
    k.stateKey ≠ k'.lockKey := by
  intro hkeys
  have hmarker : "rl" = "rll" := marker_eq_of_join_eq h (by decide) hkeys
  exact absurd hmarker (by decide)

/-- Two limiters share a state key, a lock key, or a state key with a lock key exactly when the
fields of their parts are the same.  If they have as many colons in service, caller and method,
then only equal limiters share a state key or a lock key; and if they have as many colons in the
service, then the state key of one is not the lock key of the other. -/
theorem storeKeys_eq_iff (k k' : LimiterKey) :
    (k.stateKey = k'.stateKey ↔ k.fields "rl" = k'.fields "rl") ∧
    (k.lockKey = k'.lockKey ↔ k.fields "rll" = k'.fields "rll") ∧
    (k.stateKey = k'.lockKey ↔ k.fields "rl" = k'.fields "rll") ∧
    (k.SameColons k' → k ≠ k' → k.stateKey ≠ k'.stateKey ∧ k.lockKey ≠ k'.lockKey) ∧
    (k.service.toList.count ':' = k'.service.toList.count ':' → k.stateKey ≠ k'.lockKey) := by
  refine ⟨join_eq_join_iff, join_eq_join_iff, join_eq_join_iff, ?_, stateKey_ne_lockKey⟩
  intro hsame hne
  constructor
  · exact fun hstate => hne (hsame.eq_of_join_eq hstate)
  · exact fun hlock => hne (hsame.eq_of_join_eq hlock)

/-- Two callers whose names have two colons each. -/
theorem storeKeys_eq_iff_two_callers :
    let k : LimiterKey := ⟨"svc", "::1", "GET", "/movies"⟩
    let k' : LimiterKey := ⟨"svc", "::2", "GET", "/movies"⟩
    k.SameColons k' ∧ k ≠ k' ∧ k.stateKey ≠ k'.stateKey ∧ k.lockKey ≠ k'.lockKey ∧
      k.stateKey ≠ k'.lockKey := by
  intro k k'
  have hsame : k.SameColons k' := ⟨by decide, by decide, by decide⟩
  have hne : k ≠ k' := by decide
  obtain ⟨_, _, _, hown, hmarker⟩ := storeKeys_eq_iff k k'
  exact ⟨hsame, hne, (hown hsame hne).1, (hown hsame hne).2, hmarker hsame.service⟩

/-- A colon that moves from the caller to the method leaves both store keys as they are, and a
service that holds a marker has the lock key of another limiter as its state key. -/
theorem storeKeys_shared :
    (let k : LimiterKey := ⟨"svc", "a:b", "GET", "/x"⟩
     let k' : LimiterKey := ⟨"svc", "a", "b:GET", "/x"⟩
     k ≠ k' ∧ k.stateKey = k'.stateKey ∧ k.lockKey = k'.lockKey) ∧
    (let k : LimiterKey := ⟨"svc:rll:a", "c", "GET", "/x"⟩
     let k' : LimiterKey := ⟨"svc", "a", "rl", "c:GET:/x"⟩
     k ≠ k' ∧ k.stateKey = k'.lockKey) := by
  decide

/-! ## Plain limiters -/

/-- Do service, caller and method hold no colon? -/
structure IsPlain (k : LimiterKey) : Prop where
  service : ':' ∉ k.service.toList
  caller : ':' ∉ k.caller.toList
  method : ':' ∉ k.method.toList

theorem IsPlain.sameColons (hk : k.IsPlain) (hk' : k'.IsPlain) : k.SameColons k' where
  service := by rw [List.count_eq_zero.mpr hk.service, List.count_eq_zero.mpr hk'.service]
  caller := by rw [List.count_eq_zero.mpr hk.caller, List.count_eq_zero.mpr hk'.caller]
  method := by rw [List.count_eq_zero.mpr hk.method, List.count_eq_zero.mpr hk'.method]

/-- The store keys that a limiter uses. -/
def Owns (k : LimiterKey) (storeKey : String) : Prop :=
  storeKey = k.stateKey ∨ storeKey = k.lockKey

/-- A store key of a plain limiter is used by no other plain limiter. -/
theorem IsPlain.eq_of_owns {storeKey : String} (hk : k.IsPlain) (hk' : k'.IsPlain)
    (h : k.Owns storeKey) (h' : k'.Owns storeKey) : k = k' := by
  have hsame := hk.sameColons hk'
  rcases h with rfl | rfl <;> rcases h' with h' | h'
  · exact hsame.eq_of_join_eq h'
  · exact absurd h' (stateKey_ne_lockKey hsame.service)
  · exact absurd h'.symm (stateKey_ne_lockKey hsame.service.symm)
  · exact hsame.eq_of_join_eq h'

end FlowControl.LimiterKey
