import FlowControl.Proofs.Limiter.LockHistory
import FlowControl.Proofs.Limiter.TakeProgram

/-!
# Takes one at a time, at given readings

A turn is a party with the readings at which its questions are answered, one by one
and with nobody in between.  `takeTurns` plays turns one after another over one store.
The turns of a past are those of the parties that were granted the lock, in the order
of the grants, each with its readings from its grant on.

Stores can be told apart by a take only through what they show under the two keys of
its bucket.  `Agrees` and `AgreesFrom` say that they cannot: the first of the entries,
the second of what is shown from a reading on.
-/

namespace FlowControl

open Limiter

/-- Answers a program alone, at one reading after another, for as long as it asks. -/
def Limiter.answerAll {α : Type} : List UInt64 → Program α → Memory → Program α × Memory
  | [], p, m => (p, m)
  | _ :: _, .done a, m => (.done a, m)
  | r :: rs, .ask ask _ resume, m =>
    let (answer, m) := answerAt Memory.call r ask m
    answerAll rs (resume answer) m

/-- Plays turns one after another: where each party's take stands after its turn, and the store
that is left. -/
def Bucket.takeTurns {ι : Type} (b : Bucket) (token : ι → String) (amount : ι → UInt64) :
    List (ι × List UInt64) → Memory → List (ι × Program (Except LimitError Unit)) × Memory
  | [], m => ([], m)
  | (i, rs) :: turns, m =>
    let (p, m) := answerAll rs (b.take (token i) (amount i)) m
    let (ps, m) := b.takeTurns token amount turns m
    ((i, p) :: ps, m)

/-- Adds a reading to the turn of a party. -/
def extendTurn {ι : Type} [DecidableEq ι] (i : ι) (r : UInt64) (turn : ι × List UInt64) :
    ι × List UInt64 :=
  if turn.1 = i then (i, turn.2 ++ [r]) else turn

/-- The turns of a past: the parties in the order of their grants, each with its readings from
its grant on. -/
def turns {ι : Type} [DecidableEq ι] : List (Moment ι) → List (ι × List UInt64)
  | [] => []
  | e :: older =>
    match e.party, e.grant? with
    | some i, some _ => turns older ++ [(i, [e.reading])]
    | some i, none => (turns older).map (extendTurn i e.reading)
    | none, _ => turns older

section Turns

variable {ι : Type} [DecidableEq ι] {i : ι} {r : UInt64} {e : Moment ι}
  {older : List (Moment ι)} {played : List (ι × List UInt64)}

theorem map_fst_extendTurn :
    (played.map (extendTurn i r)).map Prod.fst = played.map Prod.fst := by
  rw [List.map_map]
  refine List.map_congr_left fun x _ => ?_
  simp only [Function.comp, extendTurn]
  split
  · next hi => exact hi.symm
  · rfl

theorem map_extendTurn_of_not_mem (hi : i ∉ played.map Prod.fst) :
    played.map (extendTurn i r) = played := by
  refine (List.map_congr_left fun x hx => ?_).trans (List.map_id played)
  have hne : x.1 ≠ i := fun hsame => hi (hsame ▸ List.mem_map_of_mem hx)
  rw [extendTurn, if_neg hne, id]

theorem turns_of_grant (hparty : e.party = some i) (hgrant : e.grant? ≠ none) :
    turns (e :: older) = turns older ++ [(i, [e.reading])] := by
  obtain ⟨g, hg⟩ := Option.ne_none_iff_exists'.mp hgrant
  simp only [turns, hparty, hg]

theorem turns_of_other (hparty : e.party = some i) (hgrant : e.grant? = none) :
    turns (e :: older) = (turns older).map (extendTurn i e.reading) := by
  simp only [turns, hparty, hgrant]

/-- Who was granted a lock has a turn. -/
theorem mem_turns_of_grant {past : List (Moment ι)} (he : e ∈ past) (hparty : e.party = some i)
    (hgrant : e.grant? ≠ none) : i ∈ (turns past).map Prod.fst := by
  induction past with
  | nil => exact absurd he List.not_mem_nil
  | cons d older ih =>
      rcases List.mem_cons.mp he with rfl | he
      · rw [turns_of_grant hparty hgrant]
        simp
      · have hi := ih he
        rw [turns]
        split
        · rw [List.map_append]
          exact List.mem_append_left _ hi
        · rwa [map_fst_extendTurn]
        · exact hi

end Turns

/-- Every turn is played, in the order of the turns. -/
theorem Bucket.map_fst_takeTurns {ι : Type} (b : Bucket) (token : ι → String)
    (amount : ι → UInt64) (played : List (ι × List UInt64)) (m : Memory) :
    (b.takeTurns token amount played m).1.map Prod.fst = played.map Prod.fst := by
  induction played generalizing m with
  | nil => rfl
  | cons x more ih => exact congrArg (x.1 :: ·) (ih _)

theorem Limiter.answerAll_concat {α : Type} (rs : List UInt64) (r : UInt64) (p : Program α)
    (m : Memory) :
    answerAll (rs ++ [r]) p m = answerAll [r] (answerAll rs p m).1 (answerAll rs p m).2 := by
  induction rs generalizing p m with
  | nil => rfl
  | cons r' rs ih =>
      cases p with
      | done a => cases rs <;> rfl
      | ask ask held resume => exact ih _ _

namespace Bucket

variable {b : Bucket} {m m' : Memory} {now r : UInt64} {token : String} {ask : Ask}

/-- Both stores answer and have the same entries under the bucket's keys. -/
structure Agrees (b : Bucket) (m m' : Memory) : Prop where
  state : m.find? b.key.stateKey = m'.find? b.key.stateKey
  lock : m.find? b.key.lockKey = m'.find? b.key.lockKey
  up : m.unavailable = false
  up' : m'.unavailable = false

/-- Both stores answer and show the same under the bucket's keys from a reading on. -/
structure AgreesFrom (b : Bucket) (now : UInt64) (m m' : Memory) : Prop where
  state : ∀ t, now ≤ t → m.live? b.key.stateKey t = m'.live? b.key.stateKey t
  lock : ∀ t, now ≤ t → m.live? b.key.lockKey t = m'.live? b.key.lockKey t
  up : m.unavailable = false
  up' : m'.unavailable = false

theorem Agrees.from (h : b.Agrees m m') (now : UInt64) : b.AgreesFrom now m m' :=
  ⟨fun _ _ => Memory.live?_congr h.state, fun _ _ => Memory.live?_congr h.lock, h.up, h.up'⟩

theorem AgreesFrom.later (h : b.AgreesFrom now m m') (hle : now ≤ r) : b.AgreesFrom r m m' :=
  ⟨fun t ht => h.state t (UInt64.le_trans hle ht), fun t ht => h.lock t (UInt64.le_trans hle ht),
    h.up, h.up'⟩

theorem AgreesFrom.trans {m'' : Memory} (h : b.AgreesFrom now m m')
    (h' : b.AgreesFrom now m' m'') : b.AgreesFrom now m m'' :=
  ⟨fun t ht => (h.state t ht).trans (h'.state t ht),
    fun t ht => (h.lock t ht).trans (h'.lock t ht), h.up, h'.up'⟩

/-- What has expired is not missed. -/
theorem AgreesFrom.purge (h : b.AgreesFrom now m m') (key : String) :
    b.AgreesFrom now (m.purge key now) m' :=
  ⟨fun t ht => (Memory.live?_purge ht).trans (h.state t ht),
    fun t ht => (Memory.live?_purge ht).trans (h.lock t ht), by simpa using h.up, h.up'⟩

/-- The questions of a take are about the two keys of its bucket, or no call at all. -/
def OwnAsk (b : Bucket) : Ask → Prop
  | .store c => c.key = b.key.stateKey ∨ c.key = b.key.lockKey
  | _ => True

theorem ownAsk_of_holderAsk (h : HolderAsk b token ask) : OwnAsk b ask := by
  unfold HolderAsk at h
  split at h
  · exact .inl h
  · exact .inl h
  · exact .inr h.1
  · trivial
  · trivial
  · exact h.elim

theorem Agrees.answer (h : b.Agrees m m') (hask : OwnAsk b ask) (r : UInt64) :
    (answerAt Memory.call r ask m).1 = (answerAt Memory.call r ask m').1 ∧
      b.Agrees (answerAt Memory.call r ask m).2 (answerAt Memory.call r ask m').2 := by
  cases ask with
  | store c =>
      have hentry : ∀ key, key = b.key.stateKey ∨ key = b.key.lockKey →
          m.find? key = m'.find? key := by
        rintro _ (rfl | rfl)
        · exact h.state
        · exact h.lock
      have hsame : Memory.SameUnder _ m m' := ⟨hentry, h.up.trans h.up'.symm⟩
      obtain ⟨hanswer, hafter⟩ := hsame.call r c hask
      refine ⟨hanswer, hafter.entry _ (.inl rfl), hafter.entry _ (.inr rfl), ?_, ?_⟩
      · exact (Memory.unavailable_call m r c).trans h.up
      · exact (Memory.unavailable_call m' r c).trans h.up'
  | _ => exact ⟨rfl, h⟩

theorem AgreesFrom.answer (h : b.AgreesFrom r m m') (hask : OwnAsk b ask) :
    (answerAt Memory.call r ask m).1 = (answerAt Memory.call r ask m').1 ∧
      b.AgreesFrom r (answerAt Memory.call r ask m).2 (answerAt Memory.call r ask m').2 := by
  cases ask with
  | store c =>
      have hkey : ∀ t, r ≤ t → m.live? c.key t = m'.live? c.key t := by
        rcases hask with hkey | hkey
        · rw [hkey]
          exact h.state
        · rw [hkey]
          exact h.lock
      have hothers : ∀ k, (∀ t, r ≤ t → m.live? k t = m'.live? k t) → ∀ t, r ≤ t →
          (m.answer r c).2.live? k t = (m'.answer r c).2.live? k t := by
        intro k hk t ht
        by_cases hne : c.key = k
        · rw [← hne]
          exact Memory.live?_answer_congr c hkey ht
        · rw [Memory.live?_congr (Memory.find?_answer_of_ne c hne), hk t ht]
          exact (Memory.live?_congr (Memory.find?_answer_of_ne c hne)).symm
      show (m.call r c).1 = (m'.call r c).1 ∧ b.AgreesFrom r (m.call r c).2 (m'.call r c).2
      rw [Memory.call_of_available h.up, Memory.call_of_available h.up']
      refine ⟨congrArg Except.ok (Memory.answer_alike c (hkey r (UInt64.le_refl r))).1, ?_⟩
      exact ⟨hothers _ h.state, hothers _ h.lock, by simpa using h.up, by simpa using h.up'⟩
  | _ => exact ⟨rfl, h⟩

/-- A take that is inside goes on alike over stores that agree. -/
theorem Agrees.answers {α : Type} {p : Program α} (h : b.Agrees m m')
    (hp : Inside b token p) (rs : List UInt64) :
    (answerAll rs p m).1 = (answerAll rs p m').1 ∧
      b.Agrees (answerAll rs p m).2 (answerAll rs p m').2 := by
  induction rs generalizing p m m' with
  | nil => exact ⟨rfl, h⟩
  | cons r rs ih =>
      cases p with
      | done a => exact ⟨rfl, h⟩
      | ask ask held resume =>
          obtain ⟨hanswer, hagrees⟩ := h.answer (ownAsk_of_holderAsk hp.1) r
          have hnext := ih (p := resume (answerAt Memory.call r ask m).1) hagrees
            (hp.2 _).1
          simp only [Limiter.answerAll]
          rw [← hanswer]
          exact hnext

theorem answerAll_take {n : UInt64} (hup : m.unavailable = false)
    (hfree : m.live? b.key.lockKey r = none) (rest : List UInt64) :
    answerAll (r :: rest) (b.take token n) m =
      answerAll rest (b.entered token n)
        (m.put b.key.lockKey ⟨token, Memory.expiry r b.config.lock.ttl⟩) := by
  obtain ⟨resume, htake, hentered⟩ := b.take_tries token n
  rw [htake, Limiter.answerAll, answerAt_try_of_free hup hfree, ← hentered]

end Bucket

end FlowControl
