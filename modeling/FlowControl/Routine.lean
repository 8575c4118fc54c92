/-!
# Routines: programs that ask and may be dropped while they wait

A routine either is done or asks its surroundings for something and goes on with
the answer.  Every question also lists what the routine holds while it waits, so
that dropping it there is a known act: the held things are given up in that order.
Surroundings are chosen later: one answers at once, another lets time pass, a
third interleaves many routines.  A routine always ends, whatever the answers.
-/

namespace FlowControl

/-- What a kind of routine may ask, how it is answered, and what it can hold. -/
structure Interface where
  Request : Type
  Answer : Request → Type
  Held : Type

/-- A program over an interface. -/
inductive Routine (I : Interface) (α : Type) : Type where
  | done (value : α)
  | ask (request : I.Request) (held : List I.Held) (resume : I.Answer request → Routine I α)

namespace Routine

variable {I J : Interface} {α β γ σ : Type}

/-- Goes on with the value of a routine. -/
def bind : Routine I α → (α → Routine I β) → Routine I β
  | done a, next => next a
  | ask r held resume, next => ask r held fun answer => (resume answer).bind next

instance : Monad (Routine I) where
  pure := done
  bind := bind

/-- Asks once, holding nothing. -/
def request (r : I.Request) : Routine I (I.Answer r) := ask r [] done

/-- Asks once, holding something until the answer comes. -/
def requestHolding (h : I.Held) (r : I.Request) : Routine I (I.Answer r) := ask r [h] done

/-- Holds something as well, from the start of a routine to its end. -/
def holding (h : I.Held) : Routine I α → Routine I α
  | done a => done a
  | ask r held resume => ask r (held ++ [h]) fun answer => (resume answer).holding h

/-- Replaces every question by a routine over another interface; what was held
stays held there. -/
def interpret (keep : I.Held → J.Held) (answerBy : (r : I.Request) → Routine J (I.Answer r)) :
    Routine I α → Routine J α
  | done a => done a
  | ask r held resume =>
    (held.foldl (fun p h => p.holding (keep h)) (answerBy r)).bind fun answer =>
      (resume answer).interpret keep answerBy

/-- Runs a routine in surroundings that answer at once and change by answering. -/
def run (answer : (r : I.Request) → σ → I.Answer r × σ) : Routine I α → σ → α × σ
  | done a, s => (a, s)
  | ask r _ resume, s =>
    let (a, s) := answer r s
    (resume a).run answer s

@[simp] theorem pure_eq (a : α) : (pure a : Routine I α) = done a := rfl

@[simp] theorem bind_eq (p : Routine I α) (next : α → Routine I β) :
    (p >>= next) = p.bind next := rfl

@[simp] theorem done_bind (a : α) (next : α → Routine I β) : (done a).bind next = next a := rfl

@[simp] theorem ask_bind (r : I.Request) (held : List I.Held)
    (resume : I.Answer r → Routine I α) (next : α → Routine I β) :
    (ask r held resume).bind next = ask r held fun a => (resume a).bind next := rfl

theorem bind_assoc (p : Routine I α) (f : α → Routine I β) (g : β → Routine I γ) :
    (p.bind f).bind g = p.bind fun a => (f a).bind g := by
  induction p with
  | done a => rfl
  | ask r held resume ih => simp [ih]

@[simp] theorem run_done (answer : (r : I.Request) → σ → I.Answer r × σ) (a : α) (s : σ) :
    (done a).run answer s = (a, s) := rfl

@[simp] theorem run_ask (answer : (r : I.Request) → σ → I.Answer r × σ) (r : I.Request)
    (held : List I.Held) (resume : I.Answer r → Routine I α) (s : σ) :
    (ask r held resume).run answer s =
      (resume (answer r s).1).run answer (answer r s).2 := rfl

/-- Running one routine after another runs the first, then the second. -/
theorem run_bind (answer : (r : I.Request) → σ → I.Answer r × σ) (p : Routine I α)
    (next : α → Routine I β) (s : σ) :
    (p.bind next).run answer s =
      (next (p.run answer s).1).run answer (p.run answer s).2 := by
  induction p generalizing s with
  | done a => rfl
  | ask r held resume ih => simp [ih]

/-- What a routine holds does not change how it runs. -/
@[simp] theorem run_holding (answer : (r : I.Request) → σ → I.Answer r × σ) (h : I.Held)
    (p : Routine I α) (s : σ) : (p.holding h).run answer s = p.run answer s := by
  induction p generalizing s with
  | done a => rfl
  | ask r held resume ih => simp [holding, ih]

end Routine

end FlowControl
