import FlowControl.Proofs.Routine

/-!
# What a routine asked and was answered

A transcript lists the questions of a routine with the answers they got, first one first.
`Along` says that a routine asked these questions, got these answers and has a routine left;
nothing is said about who answered.  A transcript up to the end of a routine is cut where one
routine ends and the next one begins, and there is only one such cut.

`Ends` follows a record that is kept of the questions and answers, from the beginning to the
end of a routine, for all answers at once; it goes through `bind` piece by piece.
-/

namespace FlowControl

/-- A question and the answer that it got. -/
structure Exchange (I : Interface) where
  request : I.Request
  answer : I.Answer request

namespace Routine

variable {I : Interface} {α β σ : Type} {p q : Routine I α} {next : α → Routine I β}
  {log log' : List (Exchange I)} {a : α} {b : β} {s : σ}

/-- Did a routine ask these questions, get these answers, and is this left of it? -/
inductive Along : List (Exchange I) → Routine I α → Routine I α → Prop
  | here (p : Routine I α) : Along [] p p
  | step {r : I.Request} {held : List I.Held} {resume : I.Answer r → Routine I α}
      {answer : I.Answer r} {log : List (Exchange I)} {q : Routine I α}
      (h : Along log (resume answer) q) : Along (⟨r, answer⟩ :: log) (ask r held resume) q

/-- One more question is answered. -/
theorem Along.concat {r : I.Request} {held : List I.Held} {resume : I.Answer r → Routine I α}
    (h : Along log p (ask r held resume)) (answer : I.Answer r) :
    Along (log ++ [⟨r, answer⟩]) p (resume answer) := by
  generalize hq : ask r held resume = q at h
  induction h with
  | here p =>
      subst hq
      exact .step (.here _)
  | step _ ih => exact .step (ih hq)

/-- Nothing is asked once a routine is done. -/
theorem Along.of_done (h : Along log (done a) q) : log = [] ∧ q = done a := by
  cases h with
  | here => exact ⟨rfl, rfl⟩

/-- A transcript to the end of two routines one after the other is cut where the first one ends. -/
theorem Along.of_bind (h : Along log (p.bind next) (done b)) :
    ∃ first a rest, log = first ++ rest ∧ Along first p (done a) ∧
      Along rest (next a) (done b) := by
  induction p generalizing log with
  | done a => exact ⟨[], a, log, rfl, .here _, h⟩
  | ask r held resume ih =>
      cases h with
      | step h =>
          obtain ⟨first, a, rest, rfl, hfirst, hrest⟩ := ih _ h
          exact ⟨_ :: first, a, rest, rfl, .step hfirst, hrest⟩

/-- Where a routine ends is determined by the transcript. -/
theorem Along.unique {a' : α} {rest rest' : List (Exchange I)} (h : Along log p (done a))
    (h' : Along log' p (done a')) (heq : log ++ rest = log' ++ rest') : log = log' ∧ a = a' := by
  induction p generalizing log log' with
  | done x =>
      obtain ⟨rfl, hx⟩ := h.of_done
      obtain ⟨rfl, hx'⟩ := h'.of_done
      cases hx
      cases hx'
      exact ⟨rfl, rfl⟩
  | ask r held resume ih =>
      cases h with
      | step h =>
          cases h' with
          | step h' =>
              obtain ⟨hx, hrest⟩ := List.cons.inj heq
              cases hx
              obtain ⟨rfl, ha⟩ := ih _ h h' hrest
              exact ⟨rfl, ha⟩

/-- Every question in a transcript is one that the routine may ask. -/
theorem Along.asked {P : I.Request → List I.Held → Prop} (hp : p.Asks P) (h : Along log p q) :
    ∀ x ∈ log, ∃ held, P x.request held := by
  induction h with
  | here => exact fun x hx => nomatch hx
  | @step r held resume answer log q _ ih =>
      intro x hx
      rcases List.mem_cons.mp hx with rfl | hx
      · exact ⟨held, hp.1⟩
      · exact ih (hp.2 answer) x hx

/-- What is left of a routine asks nothing else than the routine. -/
theorem Along.asks_rest {P : I.Request → List I.Held → Prop} (hp : p.Asks P) (h : Along log p q) :
    q.Asks P := by
  induction h with
  | here => exact hp
  | @step r held resume answer log q _ ih => exact ih (hp.2 answer)

/-- If a record is kept of the questions and answers from here on, is this true of it and of the
value at the end, whatever the answers are? -/
def Ends (record : σ → Exchange I → σ) (Q : σ → α → Prop) : Routine I α → σ → Prop
  | done a, s => Q s a
  | ask r _ resume, s => ∀ answer, (resume answer).Ends record Q (record s ⟨r, answer⟩)

variable {record : σ → Exchange I → σ} {Q Q' : σ → α → Prop} {R : σ → β → Prop}

theorem Ends.bind (hp : p.Ends record (fun s a => (next a).Ends record R s) s) :
    (p.bind next).Ends record R s := by
  induction p generalizing s with
  | done a => exact hp
  | ask r held resume ih => exact fun answer => ih answer (hp answer)

theorem Ends.weaken (hp : p.Ends record Q s) (h : ∀ s a, Q s a → Q' s a) :
    p.Ends record Q' s := by
  induction p generalizing s with
  | done a => exact h s a hp
  | ask r held resume ih => exact fun answer => ih answer (hp answer)

theorem Ends.holding {h : I.Held} (hp : p.Ends record Q s) : (p.holding h).Ends record Q s := by
  induction p generalizing s with
  | done a => exact hp
  | ask r held resume ih => exact fun answer => ih answer (hp answer)

/-- What is held at the questions does not matter to a record. -/
theorem Ends.holding_all {J : Interface} {keep : J.Held → I.Held} (hp : p.Ends record Q s)
    (held : List J.Held) : (held.foldl (fun p h => p.holding (keep h)) p).Ends record Q s := by
  induction held generalizing p with
  | nil => exact hp
  | cons h held ih => exact ih hp.holding

/-- When questions are replaced by routines of another interface, the record can be kept there, if
each routine leaves the record as the question would. -/
theorem Ends.interpret {J : Interface} {keep : I.Held → J.Held}
    {answerBy : (r : I.Request) → Routine J (I.Answer r)} {record' : σ → Exchange J → σ}
    (hp : p.Ends record Q s)
    (hanswer : ∀ r s, (answerBy r).Ends record' (fun s' a => s' = record s ⟨r, a⟩) s) :
    (p.interpret keep answerBy).Ends record' Q s := by
  induction p generalizing s with
  | done a => exact hp
  | ask r held resume ih =>
      refine Ends.bind (((hanswer r s).holding_all held).weaken ?_)
      rintro _ answer rfl
      exact ih answer (hp answer)

/-- What a record does not note leaves it as it is. -/
theorem Asks.ends {P : I.Request → List I.Held → Prop} (hp : p.Asks P)
    (hnote : ∀ r held, P r held → ∀ answer s, record s ⟨r, answer⟩ = s) :
    p.Ends record (fun s' _ => s' = s) s := by
  induction p with
  | done a => rfl
  | ask r held resume ih =>
      intro answer
      rw [hnote r held hp.1]
      exact ih answer (hp.2 answer)

/-- The record of a transcript is one of those. -/
theorem Ends.along (hp : p.Ends record Q s) (h : Along log p (done a)) :
    Q (log.foldl record s) a := by
  induction p generalizing log s with
  | done x =>
      obtain ⟨rfl, hx⟩ := h.of_done
      cases hx
      exact hp
  | ask r held resume ih =>
      cases h with
      | step h =>
          have hrest := ih _ (hp _) h
          exact hrest

end Routine

end FlowControl
