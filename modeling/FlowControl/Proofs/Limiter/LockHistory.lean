import FlowControl.Proofs.Limiter.Fleet

/-!
# What a past says about a lock

The past of a store tells who holds a lock: the owner of a token that was granted
less than the lock's life ago and has not been released since.  If the lock's key is
touched by nothing but lock calls, then such a token is the stored value
(`live?_of_holds`), and every stored value is the token of such an owner or was
there from the start (`holds_of_live?`).

These facts are about any past that explains a store, whoever asked the questions.
-/

namespace FlowControl

/-- The lock and token of a conditional write that was done. -/
def Limiter.granted? : (ask : Limiter.Ask) → ask.Answer → Option Guard
  | .store (.setIfAbsent key token _), .ok true => some ⟨key, token⟩
  | _, _ => none

/-- The lock and token of a conditional delete that was answered. -/
def Limiter.freed? : (ask : Limiter.Ask) → ask.Answer → Option Guard
  | .store (.deleteIfEqual key token), .ok _ => some ⟨key, token⟩
  | _, _ => none

/-- The lock that a moment granted, and to which token. -/
def Moment.grant? {ι : Type} (e : Moment ι) : Option Guard := Limiter.granted? e.ask e.answer

/-- The lock that a moment released, and for which token. -/
def Moment.freed? {ι : Type} (e : Moment ι) : Option Guard := Limiter.freed? e.ask e.answer

/-- Questions that treat a key as a lock of this life, if they touch it at all. -/
def Limiter.LockAsk (key : String) (ttl : Duration) : Limiter.Ask → Prop
  | .store (.setIfAbsent k _ life) => k = key → life = ttl
  | .store (.set k _ _) | .store (.delete k) => k ≠ key
  | _ => True

/-- Was the token granted less than the lock's life before a reading, and not released since? -/
def Holds {ι : Type} (g : Guard) (ttl : Duration) (past : List (Moment ι)) (t : UInt64) : Prop :=
  ∃ newer e older, past = newer ++ e :: older ∧ e.grant? = some g ∧
    t.toNat < e.reading.toNat + ttl.millis ∧ ∀ d ∈ newer, d.freed? ≠ some g

/-- Has every grant of the token outlived the lock's life? -/
def Expired {ι : Type} (g : Guard) (ttl : Duration) (past : List (Moment ι)) (t : UInt64) :
    Prop :=
  ∀ e ∈ past, e.grant? = some g → e.reading.toNat + ttl.millis ≤ t.toNat

/-- Was the lock granted to another token since it was granted to this one? -/
def TakenOver {ι : Type} (g : Guard) (past : List (Moment ι)) : Prop :=
  ∃ newer e older token, past = newer ++ e :: older ∧ e.grant? = some ⟨g.key, token⟩ ∧
    token ≠ g.token ∧ ∀ d ∈ newer, d.grant? ≠ some g

/-- Was the token released since it was granted? -/
def Released {ι : Type} (g : Guard) (past : List (Moment ι)) : Prop :=
  ∃ newer e older, past = newer ++ e :: older ∧ e.freed? = some g ∧
    ∀ d ∈ newer, d.grant? ≠ some g

namespace Moment

/-- What a moment does to a key that is a lock: it grants the lock, it releases it, or it is not
noticed there. -/
inductive LockEffect {ι : Type} (key : String) (ttl : Duration) (e : Moment ι) : Prop where
  | granted (token : String) (hgrant : e.grant? = some ⟨key, token⟩) (hfreed : e.freed? = none)
      (hfree : e.before.live? key e.reading = none)
      (hafter : e.after.find? key = some ⟨token, Memory.expiry e.reading ttl⟩)
  | released (token : String) (hgrant : e.grant? = none) (hfreed : e.freed? = some ⟨key, token⟩)
      (hheld : e.before.live? key e.reading = some token) (hafter : e.after.find? key = none)
  | unnoticed (hgrant : ∀ token, e.grant? ≠ some ⟨key, token⟩)
      (hfreed : ∀ token, e.freed? = some ⟨key, token⟩ →
        e.before.live? key e.reading ≠ some token)
      (hafter : ∀ t, e.reading ≤ t → e.after.live? key t = e.before.live? key t)

variable {ι : Type} {party : Option ι} {reading : UInt64} {m : Memory} {key : String}
  {ttl : Duration}

/-- A lock is granted by a conditional write of its token. -/
theorem ask_of_grant? {e : Moment ι} {g : Guard} (h : e.grant? = some g) :
    ∃ life, e.ask = .store (.setIfAbsent g.key g.token life) := by
  obtain ⟨party, reading, ask, answer, before, after⟩ := e
  cases ask with
  | store c =>
      cases c with
      | setIfAbsent k token life =>
          rcases answer with fault | _ | _
          · cases h
          · cases h
          · cases h
            exact ⟨life, rfl⟩
      | _ => cases h
  | _ => cases h

/-- A lock is released by a conditional delete of its token. -/
theorem ask_of_freed? {e : Moment ι} {g : Guard} (h : e.freed? = some g) :
    e.ask = .store (.deleteIfEqual g.key g.token) := by
  obtain ⟨party, reading, ask, answer, before, after⟩ := e
  cases ask with
  | store c =>
      cases c with
      | deleteIfEqual k token =>
          cases answer with
          | error fault => cases h
          | ok _ =>
              cases h
              rfl
      | _ => cases h
  | _ => cases h

theorem freed?_of_grant? {e : Moment ι} {g : Guard} (h : e.grant? = some g) :
    e.freed? = none := by
  obtain ⟨life, hask⟩ := ask_of_grant? h
  cases hfreed : e.freed? with
  | none => rfl
  | some g' => exact absurd (hask.symm.trans (ask_of_freed? hfreed)) nofun

/-- A call on a key touches no other lock. -/
theorem key_of_grant? {c : StoreCall} {g : Guard}
    (h : (Moment.of party reading (.store c) m).grant? = some g) : c.key = g.key := by
  obtain ⟨life, hask⟩ := ask_of_grant? h
  exact congrArg StoreCall.key (Limiter.Ask.store.inj hask)

theorem key_of_freed? {c : StoreCall} {g : Guard}
    (h : (Moment.of party reading (.store c) m).freed? = some g) : c.key = g.key :=
  congrArg StoreCall.key (Limiter.Ask.store.inj (ask_of_freed? h))

/-- A call on a lock's key that is answered has one of the three effects. -/
theorem lockEffect_of_available {c : StoreCall} (hup : m.unavailable = false)
    (hask : Limiter.LockAsk c.key ttl (.store c)) :
    (Moment.of party reading (.store c) m).LockEffect c.key ttl := by
  have hafter : (Moment.of party reading (.store c) m).after = (m.answer reading c).2 := by
    show (m.call reading c).2 = _
    rw [Memory.call_of_available hup]
  have hgrant : (Moment.of party reading (.store c) m).grant? =
      Limiter.granted? (.store c) (.ok (m.answer reading c).1) := by
    show Limiter.granted? (.store c) (m.call reading c).1 = _
    rw [Memory.call_of_available hup]
  have hfreed : (Moment.of party reading (.store c) m).freed? =
      Limiter.freed? (.store c) (.ok (m.answer reading c).1) := by
    show Limiter.freed? (.store c) (m.call reading c).1 = _
    rw [Memory.call_of_available hup]
  cases c with
  | get k =>
      refine .unnoticed (by rw [hgrant]; nofun) (by rw [hfreed]; nofun) fun t ht => ?_
      rw [hafter]
      exact Memory.live?_purge ht
  | set k value life => exact absurd rfl hask
  | delete k => exact absurd rfl hask
  | setIfAbsent k token life =>
      cases hlive : m.live? k reading with
      | none =>
          rw [Memory.answer_setIfAbsent_of_free hlive] at hafter hgrant hfreed
          refine .granted token hgrant hfreed hlive ?_
          rw [hafter, hask rfl]
          exact Memory.find?_put_self _
      | some other =>
          rw [Memory.answer_setIfAbsent_of_live hlive] at hafter hgrant hfreed
          refine .unnoticed (by rw [hgrant]; nofun) (by rw [hfreed]; nofun) fun t ht => ?_
          rw [hafter]
          exact Memory.live?_purge ht
  | deleteIfEqual k token =>
      by_cases hlive : m.live? k reading = some token
      · rw [Memory.answer_deleteIfEqual_of_live hlive] at hafter hgrant hfreed
        refine .released token hgrant hfreed hlive ?_
        rw [hafter]
        exact Memory.find?_erase_self
      · rw [Memory.answer_deleteIfEqual_of_ne hlive] at hafter hgrant hfreed
        refine .unnoticed (by rw [hgrant]; nofun) ?_ fun t ht => ?_
        · intro other hother
          rw [hfreed] at hother
          cases hother
          exact hlive
        · rw [hafter]
          exact Memory.live?_purge ht

/-- A moment that treats a key as a lock has one of the three effects on it. -/
theorem lockEffect {e : Moment ι} (hanswered : e.Answered)
    (hask : Limiter.LockAsk key ttl e.ask) : e.LockEffect key ttl := by
  obtain ⟨party, reading, ask, m, rfl⟩ := hanswered
  cases ask with
  | now => exact .unnoticed nofun nofun fun _ _ => rfl
  | pause length => exact .unnoticed nofun nofun fun _ _ => rfl
  | note event => exact .unnoticed nofun nofun fun _ _ => rfl
  | store c =>
      by_cases hdown : m.unavailable = true
      · have hgrant : (Moment.of party reading (.store c) m).grant? = none := by
          show Limiter.granted? (.store c) (m.call reading c).1 = none
          rw [Memory.call_of_outage hdown]
          cases c <;> rfl
        have hfreed : (Moment.of party reading (.store c) m).freed? = none := by
          show Limiter.freed? (.store c) (m.call reading c).1 = none
          rw [Memory.call_of_outage hdown]
          cases c <;> rfl
        refine .unnoticed (by rw [hgrant]; nofun) (by rw [hfreed]; nofun) fun t _ => ?_
        show (m.call reading c).2.live? key t = _
        rw [Memory.call_of_outage hdown]
        rfl
      · have hup := Bool.eq_false_iff.mpr hdown
        by_cases hkey : c.key = key
        · subst hkey
          exact lockEffect_of_available hup hask
        · refine .unnoticed (fun token h => hkey (key_of_grant? h))
            (fun token h => absurd (key_of_freed? h) hkey) fun t _ => ?_
          show (m.call reading c).2.live? key t = _
          rw [Memory.call_of_available hup]
          exact Memory.live?_congr (Memory.find?_answer_of_ne c hkey)

/-- A token that is stored beyond a moment stays stored unless the moment releases it, and nobody
is granted the lock at that moment. -/
theorem LockEffect.keeps {e : Moment ι} {token : String} {t : UInt64} (h : e.LockEffect key ttl)
    (hle : e.reading ≤ t) (hheld : e.before.live? key t = some token)
    (hkept : e.freed? ≠ some ⟨key, token⟩) :
    (∀ other, e.grant? ≠ some ⟨key, other⟩) ∧ e.after.live? key t = some token := by
  have hnow := Memory.live?_some_of_le hheld hle
  cases h with
  | granted _ _ _ hfree => exact absurd (hfree.symm.trans hnow) nofun
  | released other _ hfreed hother =>
      rw [hnow] at hother
      cases hother
      exact absurd hfreed hkept
  | unnoticed hgrant _ hafter => exact ⟨hgrant, (hafter t hle).trans hheld⟩

end Moment

/-- A past that explains a store and in which a key is treated as a lock. -/
structure LockPast {ι : Type} (key : String) (ttl : Duration) (m₀ : Memory)
    (past : List (Moment ι)) (m : Memory) : Prop where
  linked : Linked m₀ past m
  ordered : Moment.InOrder past
  asks : ∀ e ∈ past, Limiter.LockAsk key ttl e.ask
  clock : ∀ e ∈ past, e.reading.toNat + ttl.millis < Word.size

variable {ι : Type} {key : String} {ttl : Duration} {m₀ m : Memory} {g : Guard}
  {e : Moment ι} {older past : List (Moment ι)} {t t' : UInt64}

theorem reached_cons : Reached (e :: older) t ↔ e.reading ≤ t ∧ Reached older t :=
  List.forall_mem_cons

/-! ## Reading a past back from its latest moment -/

/-- Was there a moment of one kind, and only moments of the other kind since? -/
def Since (P Q : Moment ι → Prop) (past : List (Moment ι)) : Prop :=
  ∃ newer e older, past = newer ++ e :: older ∧ P e ∧ ∀ d ∈ newer, Q d

variable {P Q : Moment ι → Prop}

theorem not_since_nil : ¬ Since P Q [] := by
  rintro ⟨newer, e, older, hpast, _⟩
  simp at hpast

theorem since_cons : Since P Q (e :: older) ↔ P e ∨ (Q e ∧ Since P Q older) := by
  constructor
  · rintro ⟨newer, d, rest, hpast, hd, hnewer⟩
    cases newer with
    | nil =>
        obtain ⟨rfl, rfl⟩ := List.cons.inj hpast
        exact .inl hd
    | cons c newer =>
        obtain ⟨rfl, rfl⟩ := List.cons.inj hpast
        exact .inr ⟨hnewer e List.mem_cons_self, newer, d, rest, rfl, hd,
          fun c hc => hnewer c (List.mem_cons_of_mem _ hc)⟩
  · rintro (he | ⟨he, newer, d, rest, rfl, hd, hnewer⟩)
    · exact ⟨[], e, older, rfl, he, fun d hd => absurd hd List.not_mem_nil⟩
    · exact ⟨e :: newer, d, rest, rfl, hd, List.forall_mem_cons.mpr ⟨he, hnewer⟩⟩

instance decidableSince [DecidablePred P] [DecidablePred Q] :
    (past : List (Moment ι)) → Decidable (Since P Q past)
  | [] => .isFalse not_since_nil
  | e :: older =>
    have := decidableSince older
    decidable_of_iff (P e ∨ (Q e ∧ Since P Q older)) since_cons.symm

theorem holds_iff_since :
    Holds g ttl past t ↔
      Since (fun e => e.grant? = some g ∧ t.toNat < e.reading.toNat + ttl.millis)
        (fun d => d.freed? ≠ some g) past := by
  simp only [Holds, Since, and_assoc]

instance : Decidable (Holds g ttl past t) := decidable_of_iff _ holds_iff_since.symm

theorem released_iff_since :
    Released g past ↔ Since (fun e => e.freed? = some g) (fun d => d.grant? ≠ some g) past :=
  Iff.rfl

theorem takenOver_iff_since :
    TakenOver g past ↔
      Since (fun e => ∃ token, e.grant? = some ⟨g.key, token⟩ ∧ token ≠ g.token)
        (fun d => d.grant? ≠ some g) past := by
  constructor
  · rintro ⟨newer, e, older, token, hpast, hgrant, hother, hlast⟩
    exact ⟨newer, e, older, hpast, ⟨token, hgrant, hother⟩, hlast⟩
  · rintro ⟨newer, e, older, hpast, ⟨token, hgrant, hother⟩, hlast⟩
    exact ⟨newer, e, older, token, hpast, hgrant, hother, hlast⟩

theorem holds_cons :
    Holds g ttl (e :: older) t ↔
      (e.grant? = some g ∧ t.toNat < e.reading.toNat + ttl.millis) ∨
        (e.freed? ≠ some g ∧ Holds g ttl older t) := by
  rw [holds_iff_since, since_cons, ← holds_iff_since]

/-- Who holds a lock held it at every earlier reading. -/
theorem Holds.earlier (h : Holds g ttl past t) (hle : t' ≤ t) : Holds g ttl past t' := by
  obtain ⟨newer, e, older, hpast, hgrant, hlate, hkept⟩ := h
  have hle := UInt64.le_iff_toNat_le.mp hle
  exact ⟨newer, e, older, hpast, hgrant, by omega, hkept⟩

namespace LockPast

theorem tail (h : LockPast key ttl m₀ (e :: older) m) : LockPast key ttl m₀ older e.before where
  linked := h.linked.2.2
  ordered := h.ordered.2
  asks d hd := h.asks d (List.mem_cons_of_mem _ hd)
  clock d hd := h.clock d (List.mem_cons_of_mem _ hd)

/-- The latest moment's effect on the lock. -/
theorem effect (h : LockPast key ttl m₀ (e :: older) m) : e.LockEffect key ttl :=
  Moment.lockEffect h.linked.2.1 (h.asks e List.mem_cons_self)

/-- What a past shows under the lock's key is what its latest moment left there. -/
theorem live?_eq (h : LockPast key ttl m₀ (e :: older) m) :
    m.live? key t = e.after.live? key t := by
  refine Memory.live?_congr ?_
  unfold Memory.find?
  rw [h.linked.1]

/-- A token that was just granted is shown exactly as long as the lock lives. -/
theorem live?_of_granted {token : String} (h : LockPast key ttl m₀ (e :: older) m)
    (hafter : e.after.find? key = some ⟨token, Memory.expiry e.reading ttl⟩) :
    m.live? key t =
      if t.toNat < e.reading.toNat + ttl.millis then some token else none := by
  have hexpiry := Memory.toNat_expiry (h.clock e List.mem_cons_self)
  rw [h.live?_eq, Memory.live?_eq, hafter]
  show (if Memory.expiry e.reading ttl ≤ t then none else some token) = _
  simp only [UInt64.le_iff_toNat_le, hexpiry]
  split
  · rw [if_neg (by omega)]
  · rw [if_pos (by omega)]

/-- Whoever holds the lock has its token stored. -/
theorem live?_of_holds (h : LockPast g.key ttl m₀ past m) (hreached : Reached past t)
    (hholds : Holds g ttl past t) : m.live? g.key t = some g.token := by
  induction past generalizing m with
  | nil => exact absurd (holds_iff_since.mp hholds) not_since_nil
  | cons e older ih =>
      obtain ⟨he, holder⟩ := reached_cons.mp hreached
      rcases holds_cons.mp hholds with ⟨hgrant, hlate⟩ | ⟨hfreed, hbefore⟩
      · cases h.effect with
        | granted token hgrant' _ _ hafter =>
            have htoken : token = g.token :=
              congrArg Guard.token (Option.some.inj (hgrant'.symm.trans hgrant))
            rw [h.live?_of_granted hafter, if_pos hlate, htoken]
        | released token hgrant' => exact absurd (hgrant'.symm.trans hgrant) nofun
        | unnoticed hgrant' => exact absurd hgrant (hgrant' g.token)
      · -- The token is stored before the latest moment, which can only have released it.
        have hlive := ih h.tail holder hbefore
        rw [h.live?_eq]
        exact (h.effect.keeps he hlive hfreed).2

/-- A stored value is the token of an owner, or it was there before the lock was ever granted. -/
theorem holds_of_live? (h : LockPast g.key ttl m₀ past m) (hreached : Reached past t)
    (hlive : m.live? g.key t = some g.token) :
    Holds g ttl past t ∨ ∀ e ∈ past, ∀ token, e.grant? ≠ some ⟨g.key, token⟩ := by
  induction past generalizing m with
  | nil => exact .inr fun e he => absurd he List.not_mem_nil
  | cons e older ih =>
      obtain ⟨he, holder⟩ := reached_cons.mp hreached
      cases h.effect with
      | granted token hgrant _ _ hafter =>
          rw [h.live?_of_granted hafter] at hlive
          split at hlive
          · next hlate =>
            cases hlive
            exact .inl (holds_cons.mpr (.inl ⟨hgrant, hlate⟩))
          · cases hlive
      | released token _ _ _ hafter =>
          rw [h.live?_eq, Memory.live?_of_find?_none hafter] at hlive
          cases hlive
      | unnoticed hgrant hfreed hafter =>
          rw [h.live?_eq, hafter t he] at hlive
          -- A release of the token would have removed the value that is shown.
          rcases ih h.tail holder hlive with hholds | hnever
          · refine .inl (holds_cons.mpr (.inr ⟨fun hfree => ?_, hholds⟩))
            exact hfreed g.token hfree (Memory.live?_some_of_le hlive he)
          · refine .inr fun d hd => ?_
            rcases List.mem_cons.mp hd with rfl | hd
            · exact hgrant
            · exact hnever d hd

theorem holds_unique {a b : String} (h : LockPast key ttl m₀ past m) (hreached : Reached past t)
    (ha : Holds ⟨key, a⟩ ttl past t) (hb : Holds ⟨key, b⟩ ttl past t) : a = b := by
  have hlive := h.live?_of_holds (g := ⟨key, a⟩) hreached ha
  have hlive' := h.live?_of_holds (g := ⟨key, b⟩) hreached hb
  exact Option.some.inj (hlive.symm.trans hlive')

end LockPast

/-! ## Who does not hold the lock any more -/

theorem not_holds_of_expired (h : Expired g ttl past t) : ¬ Holds g ttl past t := by
  rintro ⟨newer, e, older, rfl, hgrant, hlate, _⟩
  have hover := h e (List.mem_append_right _ List.mem_cons_self) hgrant
  omega

theorem not_holds_of_released (h : Released g past) : ¬ Holds g ttl past t := by
  rw [released_iff_since] at h
  induction past with
  | nil => exact absurd h not_since_nil
  | cons e older ih =>
      intro hholds
      rcases since_cons.mp h with hfreed | ⟨hlast, hbefore⟩
      · rcases holds_cons.mp hholds with ⟨hgrant, _⟩ | ⟨hkept, _⟩
        · exact absurd (Moment.freed?_of_grant? hgrant) (by rw [hfreed]; nofun)
        · exact hkept hfreed
      · rcases holds_cons.mp hholds with ⟨hgrant, _⟩ | ⟨_, hholds⟩
        · exact hlast hgrant
        · exact ih hbefore hholds

/-- Nobody holds a lock that was granted to another since: it was free at that moment. -/
theorem LockPast.not_holds_of_takenOver (h : LockPast g.key ttl m₀ past m)
    (hreached : Reached past t) (hover : TakenOver g past) : ¬ Holds g ttl past t := by
  rw [takenOver_iff_since] at hover
  induction past generalizing m with
  | nil => exact absurd hover not_since_nil
  | cons e older ih =>
      intro hholds
      obtain ⟨he, holder⟩ := reached_cons.mp hreached
      rcases since_cons.mp hover with ⟨token, hgrant, hother⟩ | ⟨hlast, hbefore⟩
      · rcases holds_cons.mp hholds with ⟨hgrant', _⟩ | ⟨hkept, hheld⟩
        · exact hother (congrArg Guard.token (Option.some.inj (hgrant.symm.trans hgrant')))
        · -- The other token was granted while this one was still shown: that cannot be.
          have hlive := h.tail.live?_of_holds h.ordered.1 (hheld.earlier he)
          exact (h.effect.keeps (UInt64.le_refl _) hlive hkept).1 token hgrant
      · rcases holds_cons.mp hholds with ⟨hgrant, _⟩ | ⟨_, hheld⟩
        · exact hlast hgrant
        · exact ih h.tail holder hbefore hheld

/-- A conditional delete by an owner who does not hold the lock any more is not noticed. -/
theorem LockPast.live?_of_late_release (h : LockPast g.key ttl m₀ (e :: older) m)
    (hask : e.ask = .store (.deleteIfEqual g.key g.token))
    (hgranted : ∃ d ∈ older, d.grant? = some g) (hlost : ¬ Holds g ttl older e.reading)
    (ht : e.reading ≤ t) : e.after.live? g.key t = e.before.live? g.key t := by
  cases h.effect with
  | granted token hgrant =>
      obtain ⟨life, hask'⟩ := Moment.ask_of_grant? hgrant
      exact absurd (hask.symm.trans hask') nofun
  | released token _ hfreed hheld =>
      have hsame := hask.symm.trans (Moment.ask_of_freed? hfreed)
      have htoken : g.token = token :=
        (StoreCall.deleteIfEqual.inj (Limiter.Ask.store.inj hsame)).2
      rw [← htoken] at hheld
      rcases h.tail.holds_of_live? h.ordered.1 hheld with hholds | hnever
      · exact absurd hholds hlost
      · -- The token cannot have been there from the start: it was granted.
        obtain ⟨d, hd, hgrant⟩ := hgranted
        exact absurd hgrant (hnever d hd g.token)
  | unnoticed _ _ hafter => exact hafter t ht

theorem LockPast.suffix {newer : List (Moment ι)} (h : LockPast key ttl m₀ (newer ++ past) m) :
    ∃ m', LockPast key ttl m₀ past m' := by
  induction newer generalizing m with
  | nil => exact ⟨m, h⟩
  | cons e newer ih => exact ih h.tail

/-- The past of parties and jobs that treat a key as a lock. -/
theorem Fleet.lockPast_run {α : Type} [DecidableEq ι] {program : ι → Limiter.Program α}
    {may : ι → Limiter.Ask → List Guard → Prop} {jobMay : Limiter.Ask → Prop}
    {acts : List (Act ι)} (hobeys : ((start m₀ program).run acts).Obeys may jobMay)
    (hmay : ∀ i ask held, may i ask held → Limiter.LockAsk key ttl ask)
    (hjob : ∀ ask, jobMay ask → Limiter.LockAsk key ttl ask) (horder : Act.InOrder acts)
    (hclock : ∀ a ∈ acts, ∀ r, a.reading? = some r → r.toNat + ttl.millis < Word.size) :
    LockPast key ttl m₀ ((start m₀ program).run acts).past
      ((start m₀ program).run acts).memory where
  linked := linked_run rfl
  ordered := inOrder_run trivial horder fun _ _ e he => absurd he List.not_mem_nil
  asks e he := by
    cases hparty : e.party with
    | none => exact hjob _ (hobeys.nobody e he hparty)
    | some i =>
        obtain ⟨held, hasked⟩ := hobeys.party e he i hparty
        exact hmay i _ held hasked
  clock e he := by
    rcases mem_past_run he with he | ⟨a, ha, hreading⟩
    · exact absurd he List.not_mem_nil
    · exact hclock a ha _ hreading

end FlowControl
