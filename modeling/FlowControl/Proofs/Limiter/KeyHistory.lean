import FlowControl.Proofs.Limiter.LockSafety
import FlowControl.Proofs.Limiter.SerialPlay

/-!
# What a past leaves under a key

The store shows under a key what was stored there last, until it expires or is removed.  If one
party alone writes the key, and only by storing, then the key holds what that party stored last,
or what was there from the start (`remains_of_linked`).

The token of a guard is gone if it is not stored under the key of its lock.  It stays gone until it
is stored again, and a delete of it that is answered leaves it gone, whoever has the lock by then
(`Guard.isGone_of_linked`).
-/

namespace FlowControl

open Limiter

/-! ## What a moment leaves under a key -/

/-- The entry that a question stores under a key at a reading, if it is done. -/
def Limiter.stored? (key : String) (reading : UInt64) :
    (ask : Ask) → ask.Answer → Option MemoryEntry
  | .store (.set k text ttl), .ok () =>
    if k = key then some ⟨text, Memory.expiry reading ttl⟩ else none
  | _, _ => none

/-- The entry that a moment stored under a key. -/
def Moment.stored? {ι : Type} (key : String) (e : Moment ι) : Option MemoryEntry :=
  Limiter.stored? key e.reading e.ask e.answer

/-- Does a question call for a change under a key? -/
def Limiter.Changes (key : String) : Ask → Prop
  | .store (.get _) => False
  | .store c => c.key = key
  | _ => False

instance (key : String) : DecidablePred (Limiter.Changes key)
  | .store (.get _) | .now | .pause _ | .note _ => inferInstanceAs (Decidable False)
  | .store (.set k _ _) | .store (.setIfAbsent k _ _) | .store (.deleteIfEqual k _)
  | .store (.delete k) => inferInstanceAs (Decidable (k = key))

/-- Does a moment call for a change under a key? -/
abbrev Moment.Writes {ι : Type} (key : String) (e : Moment ι) : Prop := Changes key e.ask

/-- The entries that a party has stored under a key, the latest first. -/
def storesOf {ι : Type} [DecidableEq ι] (i : ι) (key : String) (past : List (Moment ι)) :
    List MemoryEntry :=
  past.filterMap fun e => if e.party = some i then e.stored? key else none

/-- Is an entry still there, or gone because it had expired? -/
def Remains {ι : Type} (key : String) (entry : Option MemoryEntry) (past : List (Moment ι))
    (m : Memory) : Prop :=
  m.find? key = entry ∨
    m.find? key = none ∧ ∃ x, entry = some x ∧ ∃ e ∈ past, x.expiresAt ≤ e.reading

/-- Is the token of a guard not stored under its key? -/
def Guard.IsGone (g : Guard) (m : Memory) : Prop := ∀ x, m.find? g.key = some x → x.value ≠ g.token

/-- Questions that do not store the token of a guard under its key. -/
def Limiter.Leaves (g : Guard) : Ask → Prop
  | .store (.set key value _) | .store (.setIfAbsent key value _) => key = g.key → value ≠ g.token
  | _ => True

variable {ι : Type} {e : Moment ι} {g : Guard} {key : String} {m m' : Memory}
  {past older : List (Moment ι)}

namespace Moment

variable {party : Option ι} {reading : UInt64} {c : StoreCall}

theorem after_of_available (hup : m.unavailable = false) :
    (Moment.of party reading (.store c) m).after = (m.answer reading c).2 :=
  congrArg Prod.snd (Memory.call_of_available hup reading c)

theorem after_of_outage (hdown : m.unavailable = true) :
    (Moment.of party reading (.store c) m).after = m :=
  congrArg Prod.snd (Memory.call_of_outage hdown reading c)

theorem Answered.after_of_outage (he : e.Answered) (hdown : e.before.unavailable = true) :
    e.after = e.before := by
  obtain ⟨party, reading, ask, m, rfl⟩ := he
  cases ask with
  | store c => exact Moment.after_of_outage hdown
  | _ => rfl

/-- A release is answered, or it fails with the store. -/
theorem freed?_of_release (he : e.Answered) (hask : e.ask = .store (.deleteIfEqual g.key g.token)) :
    e.before.unavailable = true ∨ e.freed? = some g := by
  obtain ⟨party, reading, ask, m, rfl⟩ := he
  obtain rfl : ask = _ := hask
  cases hdown : m.unavailable with
  | true => exact .inl hdown
  | false =>
      exact .inr (congrArg (Limiter.freed? (.store (.deleteIfEqual g.key g.token)))
        (congrArg Prod.fst (Memory.call_of_available hdown reading _)))

theorem Saves.writes (h : e.Saves key) : e.Writes key := by
  obtain ⟨text, ttl, hask⟩ := h
  show Changes key e.ask
  rw [hask]
  rfl

theorem stored?_of_not_saves (h : ¬ e.Saves key) : e.stored? key = none := by
  obtain ⟨party, reading, ask, answer, before, after⟩ := e
  cases ask with
  | store c =>
      cases c with
      | set k text ttl =>
          cases answer with
          | ok _ =>
              refine if_neg fun hkey => h ?_
              subst hkey
              exact ⟨text, ttl, rfl⟩
          | error fault => rfl
      | _ => rfl
  | _ => rfl

/-- What does not write a key leaves its entry, unless that has expired. -/
theorem find?_of_not_writes (he : e.Answered) (h : ¬ e.Writes key) :
    e.after.find? key = e.before.find? key ∨
      e.after.find? key = none ∧ ∃ x, e.before.find? key = some x ∧ x.expiresAt ≤ e.reading := by
  obtain ⟨party, reading, ask, m, rfl⟩ := he
  cases ask with
  | now | pause length | note event => exact .inl rfl
  | store c =>
      cases hdown : m.unavailable with
      | true =>
          rw [after_of_outage hdown]
          exact .inl rfl
      | false =>
          rw [after_of_available hdown]
          by_cases hkey : c.key = key
          · cases c with
            | get k =>
                obtain rfl : k = key := hkey
                exact Memory.find?_purge_cases
            | _ => exact absurd hkey h
          · exact .inl (Memory.find?_answer_of_ne c hkey)

/-- An entry that a moment leaves was there before, or the moment has stored it. -/
theorem find?_after {x : MemoryEntry} (he : e.Answered) (h : e.after.find? key = some x) :
    e.before.find? key = some x ∨ e.before.unavailable = false ∧
      ∃ ttl, e.ask = .store (.set key x.value ttl) ∨
        e.ask = .store (.setIfAbsent key x.value ttl) := by
  obtain ⟨party, reading, ask, m, rfl⟩ := he
  cases ask with
  | now | pause length | note event => exact .inl h
  | store c =>
      cases hdown : m.unavailable with
      | true =>
          rw [after_of_outage hdown] at h
          exact .inl h
      | false =>
          rw [after_of_available hdown] at h
          by_cases hkey : c.key = key
          · subst hkey
            cases c with
            | get k => exact .inl (Memory.find?_of_purge h)
            | set k text ttl =>
                cases (Memory.find?_put_self _).symm.trans h
                exact .inr ⟨hdown, ttl, .inl rfl⟩
            | setIfAbsent k text ttl =>
                cases hlive : m.live? k reading with
                | some other =>
                    rw [Memory.answer_setIfAbsent_of_live hlive] at h
                    exact .inl (Memory.find?_of_purge h)
                | none =>
                    rw [Memory.answer_setIfAbsent_of_free hlive] at h
                    cases (Memory.find?_put_self _).symm.trans h
                    exact .inr ⟨hdown, ttl, .inr rfl⟩
            | deleteIfEqual k value => exact .inl (Memory.find?_of_deleteIfEqual h)
            | delete k => cases Memory.find?_erase_self.symm.trans h
          · rw [Memory.find?_answer_of_ne c hkey] at h
            exact .inl h

/-- A save is done, or it fails and changes nothing. -/
theorem stored?_of_set {text : String} {ttl : Duration} (he : e.Answered)
    (hask : e.ask = .store (.set key text ttl)) :
    (e.before.unavailable = false ∧
        e.stored? key = some ⟨text, Memory.expiry e.reading ttl⟩ ∧
        e.after.find? key = some ⟨text, Memory.expiry e.reading ttl⟩) ∨
      (e.before.unavailable = true ∧ e.stored? key = none ∧
        e.after.find? key = e.before.find? key) := by
  obtain ⟨party, reading, ask, m, rfl⟩ := he
  obtain rfl : ask = _ := hask
  have hstored : (Moment.of party reading (.store (.set key text ttl)) m).stored? key =
      Limiter.stored? key reading (.store (.set key text ttl))
        (m.call reading (.set key text ttl)).1 := rfl
  cases hdown : m.unavailable with
  | true =>
      rw [hstored, Memory.call_of_outage hdown, after_of_outage hdown]
      exact .inr ⟨hdown, rfl, rfl⟩
  | false =>
      rw [hstored, Memory.call_of_available hdown, after_of_available hdown]
      exact .inl ⟨hdown, if_pos rfl, Memory.find?_put_self _⟩

end Moment

namespace Guard

/-- A token that is gone stays gone, unless it is stored or granted the lock. -/
theorem IsGone.after (h : g.IsGone e.before) (he : e.Answered)
    (hset : ∀ ttl, e.ask ≠ .store (.set g.key g.token ttl)) (hgrant : e.grant? ≠ some g) :
    g.IsGone e.after := by
  obtain ⟨party, reading, ask, m, rfl⟩ := he
  cases ask with
  | now | pause length | note event => exact h
  | store c =>
      cases hdown : m.unavailable with
      | true =>
          rw [Moment.after_of_outage hdown]
          exact h
      | false =>
          rw [Moment.after_of_available hdown]
          intro x hx
          by_cases hkey : c.key = g.key
          · cases c with
            | get k =>
                obtain rfl : k = g.key := hkey
                exact h x (Memory.find?_of_purge hx)
            | set k value ttl =>
                obtain rfl : k = g.key := hkey
                cases (Memory.find?_put_self _).symm.trans hx
                rintro rfl
                exact hset ttl rfl
            | setIfAbsent k value ttl =>
                obtain rfl : k = g.key := hkey
                cases hlive : m.live? g.key reading with
                | some other =>
                    rw [Memory.answer_setIfAbsent_of_live hlive] at hx
                    exact h x (Memory.find?_of_purge hx)
                | none =>
                    have hcall := Memory.call_of_available hdown reading
                      (.setIfAbsent g.key value ttl)
                    rw [Memory.answer_setIfAbsent_of_free hlive] at hx hcall
                    cases (Memory.find?_put_self _).symm.trans hx
                    rintro rfl
                    exact hgrant (congrArg (granted? (.store (.setIfAbsent g.key g.token ttl)))
                      (congrArg Prod.fst hcall))
            | deleteIfEqual k expected =>
                obtain rfl : k = g.key := hkey
                exact h x (Memory.find?_of_deleteIfEqual hx)
            | delete k =>
                obtain rfl : k = g.key := hkey
                cases Memory.find?_erase_self.symm.trans hx
          · rw [Memory.find?_answer_of_ne c hkey] at hx
            exact h x hx

theorem IsGone.after_of_leaves (h : g.IsGone e.before) (he : e.Answered)
    (hleaves : Leaves g e.ask) : g.IsGone e.after := by
  refine h.after he ?_ ?_
  · intro ttl hask
    rw [hask] at hleaves
    exact hleaves rfl rfl
  · intro hgrant
    obtain ⟨ttl, hask⟩ := Moment.ask_of_grant? hgrant
    rw [hask] at hleaves
    exact hleaves rfl rfl

/-- A release that is answered leaves the token gone, whoever had the lock. -/
theorem isGone_of_freed? (he : e.Answered) (hfreed : e.freed? = some g) : g.IsGone e.after := by
  have hask := Moment.ask_of_freed? hfreed
  obtain ⟨party, reading, ask, m, rfl⟩ := he
  obtain rfl : ask = _ := hask
  cases hdown : m.unavailable with
  | true =>
      have hnone : (Moment.of party reading (.store (.deleteIfEqual g.key g.token)) m).freed? =
          none := congrArg (freed? (.store (.deleteIfEqual g.key g.token)))
        (congrArg Prod.fst (Memory.call_of_outage hdown reading _))
      cases hnone.symm.trans hfreed
  | false =>
      rw [Moment.after_of_available hdown]
      intro x hx
      by_cases hlive : m.live? g.key reading = some g.token
      · rw [Memory.answer_deleteIfEqual_of_live hlive, Memory.find?_erase_self] at hx
        cases hx
      · -- What is still there has not expired, so it would have been shown.
        rw [Memory.answer_deleteIfEqual_of_ne hlive, Memory.find?_purge_self] at hx
        obtain ⟨hentry, hshown⟩ := Option.filter_eq_some_iff.mp hx
        intro hvalue
        exact hlive (Memory.live?_eq_some_iff.mpr ⟨x, hentry, of_decide_eq_true hshown, hvalue⟩)

theorem isGone_congr (h : m'.entries = m.entries) (hgone : g.IsGone m) : g.IsGone m' := by
  intro x hx
  refine hgone x ?_
  unfold Memory.find? at hx ⊢
  rwa [← h]

end Guard

theorem Limiter.leaves_of_abandons {ask : Ask} (h : Abandons g.key ask) : Leaves g ask := by
  cases ask with
  | store c =>
      cases c with
      | set k value ttl => exact fun hkey => absurd hkey h
      | setIfAbsent k value ttl => exact fun hkey => absurd hkey h
      | _ => trivial
  | _ => trivial

/-! ## What a past leaves under a key -/

/-- A token that was gone, or that was released since, is gone if nobody stored it since. -/
theorem Guard.isGone_of_linked (hlinked : Linked m' past m)
    (hleaves : ∀ e ∈ past, Leaves g e.ask)
    (h : g.IsGone m' ∨ ∃ e ∈ past, e.freed? = some g) : g.IsGone m := by
  induction past generalizing m with
  | nil =>
      rcases h with hgone | ⟨e, he, -⟩
      · exact isGone_congr hlinked hgone
      · cases he
  | cons e older ih =>
      obtain ⟨hentries, hanswered, holder⟩ := hlinked
      refine isGone_congr hentries ?_
      obtain ⟨hhere, hbefore⟩ := List.forall_mem_cons.mp hleaves
      rcases h with hgone | ⟨d, hd, hfreed⟩
      · exact (ih holder hbefore (.inl hgone)).after_of_leaves hanswered hhere
      · rcases List.mem_cons.mp hd with rfl | hd
        · exact isGone_of_freed? hanswered hfreed
        · exact (ih holder hbefore (.inr ⟨d, hd, hfreed⟩)).after_of_leaves hanswered hhere

variable [DecidableEq ι] {i : ι} {entry : Option MemoryEntry}

omit [DecidableEq ι] in
theorem Remains.later (h : Remains key entry older m) (hsame : m'.find? key = m.find? key) :
    Remains key entry (e :: older) m' := by
  rcases h with hentry | ⟨hnone, x, hx, d, hd, hexpired⟩
  · exact .inl (hsame.trans hentry)
  · exact .inr ⟨hsame.trans hnone, x, hx, d, List.mem_cons_of_mem _ hd, hexpired⟩

theorem storesOf_cons_of_none (h : e.stored? key = none) :
    storesOf i key (e :: older) = storesOf i key older := by
  refine List.filterMap_cons_none ?_
  simp [h]

theorem storesOf_cons_of_other (h : e.party ≠ some i) :
    storesOf i key (e :: older) = storesOf i key older :=
  List.filterMap_cons_none (if_neg h)

theorem storesOf_cons_of_stored {x : MemoryEntry} (hparty : e.party = some i)
    (h : e.stored? key = some x) : storesOf i key (e :: older) = x :: storesOf i key older := by
  refine List.filterMap_cons_some ?_
  rw [if_pos hparty, h]

theorem storesOf_append (newer older : List (Moment ι)) :
    storesOf i key (newer ++ older) = storesOf i key newer ++ storesOf i key older :=
  List.filterMap_append

/-- What others do does not count for a party. -/
theorem storesOf_append_of_others {newer : List (Moment ι)} (h : ∀ e ∈ newer, e.party ≠ some i) :
    storesOf i key (newer ++ older) = storesOf i key older := by
  have hnone : storesOf i key newer = [] :=
    List.filterMap_eq_nil_iff.mpr fun e he => if_neg (h e he)
  rw [storesOf_append, hnone, List.nil_append]

/-- If a party alone writes a key, and only by storing, then the key holds what the party stored
last, or what was there before, until it expires. -/
theorem remains_of_linked (hlinked : Linked m' past m)
    (hwrites : ∀ e ∈ past, e.Writes key → e.party = some i ∧ e.Saves key) :
    Remains key ((storesOf i key past).head?.or (m'.find? key)) past m := by
  induction past generalizing m with
  | nil =>
      refine .inl ?_
      unfold Memory.find?
      rw [hlinked]
      rfl
  | cons e older ih =>
      obtain ⟨hentries, hanswered, holder⟩ := hlinked
      obtain ⟨hhere, hbefore⟩ := List.forall_mem_cons.mp hwrites
      have hfind : m.find? key = e.after.find? key := by
        unfold Memory.find?
        rw [hentries]
      have hremains := ih holder hbefore
      by_cases hwrites' : e.Writes key
      · obtain ⟨hparty, text, ttl, hask⟩ := hhere hwrites'
        rcases Moment.stored?_of_set hanswered hask with ⟨-, hstored, hafter⟩ | ⟨-, hstored, hafter⟩
        · rw [storesOf_cons_of_stored hparty hstored]
          exact .inl (hfind.trans hafter)
        · rw [storesOf_cons_of_none hstored]
          exact hremains.later (hfind.trans hafter)
      · rw [storesOf_cons_of_none (Moment.stored?_of_not_saves fun h => hwrites' h.writes)]
        rcases Moment.find?_of_not_writes hanswered hwrites' with hsame | ⟨hnone, x, hx, hexpired⟩
        · exact hremains.later (hfind.trans hsame)
        · -- What has expired here was there until now.
          rcases hremains with hentry | ⟨hgone, -⟩
          · exact .inr ⟨hfind.trans hnone, x, hentry.symm.trans hx, e, List.mem_cons_self, hexpired⟩
          · cases hgone.symm.trans hx

end FlowControl
