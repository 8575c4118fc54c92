import FlowControl.Routine

/-!
# What a routine may ask, and how long it asks

`Asks` bounds every question of a routine together with what is held while it
waits, whatever the answers were; it goes through `bind` and `holding`, so a
routine is checked piece by piece.  `Yields` bounds the value at the end, and
`Within` the number of questions before it.  What answers to all questions keep, a run
keeps.
-/

namespace FlowControl.Routine

variable {I : Interface} {α β : Type} {p : Routine I α} {next : α → Routine I β}
  {P P' : I.Request → List I.Held → Prop} {Q : α → Prop} {n k : Nat}

/-- Does every question of the routine, with what is held there, have a property, whatever the
answers are? -/
def Asks (P : I.Request → List I.Held → Prop) : Routine I α → Prop
  | done _ => True
  | ask r held resume => P r held ∧ ∀ answer, (resume answer).Asks P

/-- Has every value the routine can end with a property? -/
def Yields (Q : α → Prop) : Routine I α → Prop
  | done a => Q a
  | ask _ _ resume => ∀ answer, (resume answer).Yields Q

/-- Is the routine done after at most this many answers? -/
def Within : Nat → Routine I α → Prop
  | _, done _ => True
  | 0, ask .. => False
  | n + 1, ask _ _ resume => ∀ answer, Within n (resume answer)

@[simp] theorem asks_done (a : α) : (done a : Routine I α).Asks P := trivial

@[simp] theorem asks_ask (r : I.Request) (held : List I.Held)
    (resume : I.Answer r → Routine I α) :
    (ask r held resume).Asks P ↔ P r held ∧ ∀ answer, (resume answer).Asks P := Iff.rfl

theorem asks_of_forall (h : ∀ r held, P r held) : p.Asks P := by
  induction p with
  | done a => trivial
  | ask r held resume ih => exact ⟨h r held, ih⟩

theorem Asks.bind (hp : p.Asks P) (hq : p.Yields Q) (hnext : ∀ a, Q a → (next a).Asks P) :
    (p.bind next).Asks P := by
  induction p with
  | done a => exact hnext a hq
  | ask r held resume ih => exact ⟨hp.1, fun answer => ih answer (hp.2 answer) (hq answer)⟩

theorem yields_true : p.Yields fun _ => True := by
  induction p with
  | done a => trivial
  | ask r held resume ih => exact ih

/-- What is held as well is held at every question. -/
theorem asks_holding (h : I.Held) :
    (p.holding h).Asks P ↔ p.Asks fun r held => P r (held ++ [h]) := by
  induction p with
  | done a => exact Iff.rfl
  | ask r held resume ih =>
      constructor
      · exact fun hp => ⟨hp.1, fun answer => (ih answer).mp (hp.2 answer)⟩
      · exact fun hp => ⟨hp.1, fun answer => (ih answer).mpr (hp.2 answer)⟩

/-- A question that is asked while things are held holds them all, the first one first. -/
theorem foldl_holding_ask {J : Interface} (keep : I.Held → J.Held) (held : List I.Held)
    (r : J.Request) (before : List J.Held) :
    held.foldl (fun p h => p.holding (keep h)) (ask r before done) =
      ask r (before ++ held.map keep) done := by
  induction held generalizing before with
  | nil => rw [List.map_nil, List.append_nil]; rfl
  | cons h held ih =>
      rw [List.foldl_cons, List.map_cons, List.append_cons]
      exact ih (before ++ [keep h])

/-- Changing the value at the end is going on with the changed value. -/
theorem map_eq (f : α → β) (p : Routine I α) : f <$> p = p.bind fun a => done (f a) := rfl

/-- Replacing the questions of one routine after another replaces those of each. -/
theorem interpret_bind {J : Interface} {keep : I.Held → J.Held}
    {answerBy : (r : I.Request) → Routine J (I.Answer r)} (p : Routine I α)
    (next : α → Routine I β) :
    (p.bind next).interpret keep answerBy =
      (p.interpret keep answerBy).bind fun a => (next a).interpret keep answerBy := by
  induction p with
  | done a => rfl
  | ask r held resume ih =>
      rw [ask_bind, interpret, interpret, bind_assoc]
      simp only [ih]

theorem Asks.weaken (hp : p.Asks P) (h : ∀ r held, P r held → P' r held) : p.Asks P' := by
  induction p with
  | done a => trivial
  | ask r held resume ih => exact ⟨h r held hp.1, fun answer => ih answer (hp.2 answer)⟩

/-- What the routines that stand for the questions of a routine ask is all it asks then. -/
theorem Asks.interpret {J : Interface} {keep : I.Held → J.Held}
    {answerBy : (r : I.Request) → Routine J (I.Answer r)} {P : J.Request → List J.Held → Prop}
    (hp : p.Asks fun r held => (held.foldl (fun q h => q.holding (keep h)) (answerBy r)).Asks P) :
    (p.interpret keep answerBy).Asks P := by
  induction p with
  | done a => trivial
  | ask r held resume ih =>
      exact hp.1.bind yields_true fun answer _ => ih answer (hp.2 answer)

section Runs

variable {σ τ : Type} {answer : (r : I.Request) → σ → I.Answer r × σ}
  {answer' : (r : I.Request) → τ → I.Answer r × τ} {s : σ} {t : τ}

/-- A routine ends alike over two states that answer its questions alike and stay alike. -/
theorem Asks.run_alike {R : σ → τ → Prop} (hp : p.Asks P)
    (hanswer : ∀ r held s t, P r held → R s t →
      (answer r s).1 = (answer' r t).1 ∧ R (answer r s).2 (answer' r t).2)
    (h : R s t) :
    (p.run answer s).1 = (p.run answer' t).1 ∧ R (p.run answer s).2 (p.run answer' t).2 := by
  induction p generalizing s t with
  | done a => exact ⟨rfl, h⟩
  | ask r held resume ih =>
      obtain ⟨hsame, hnext⟩ := hanswer r held s t hp.1 h
      rw [run_ask, run_ask, hsame]
      exact ih _ (hp.2 _) hnext

/-- What no question of a routine changes is as before at its end. -/
theorem Asks.run_keeps {K : σ → Prop} (hp : p.Asks P)
    (hanswer : ∀ r held s, P r held → K s → K (answer r s).2) (h : K s) :
    K (p.run answer s).2 := by
  induction p generalizing s with
  | done a => exact h
  | ask r held resume ih =>
      rw [run_ask]
      exact ih _ (hp.2 _) (hanswer r held s hp.1 h)

end Runs

@[simp] theorem within_done (a : α) : Within n (done a : Routine I α) := by
  cases n <;> trivial

theorem Within.mono (hp : p.Within n) (hle : n ≤ k) : p.Within k := by
  induction p generalizing n k with
  | done a => exact within_done a
  | ask r held resume ih =>
      cases n with
      | zero => exact hp.elim
      | succ n =>
          cases k with
          | zero => exact absurd hle (Nat.not_succ_le_zero n)
          | succ k => exact fun answer => ih answer (hp answer) (Nat.le_of_succ_le_succ hle)

theorem Within.bind (hp : p.Within n) (hnext : ∀ a, (next a).Within k) :
    (p.bind next).Within (n + k) := by
  induction p generalizing n with
  | done a => exact (hnext a).mono (Nat.le_add_left ..)
  | ask r held resume ih =>
      cases n with
      | zero => exact hp.elim
      | succ n =>
          rw [Nat.succ_add]
          exact fun answer => ih answer (hp answer)

theorem Within.holding {h : I.Held} (hp : p.Within n) : (p.holding h).Within n := by
  induction p generalizing n with
  | done a => exact within_done a
  | ask r held resume ih =>
      cases n with
      | zero => exact hp.elim
      | succ n => exact fun answer => ih answer (hp answer)

end FlowControl.Routine
