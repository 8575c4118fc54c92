import FlowControl.Call.Service
import FlowControl.Proofs.Call.InvokeProgram

/-!
# Readiness behind a guarded service

A service has to be found ready before each call, since a call may use its readiness up.  A
guarded service is used so here: requests come when it has said that it is ready, and go on
question by question, in any order and with any answers, until they are done or dropped.
Every poll and every call of an instance behind it is noted.

A request takes the instance that was found ready, and no other request calls that one, so the
first call for a request is on a ready instance.  Nobody polls an instance that was taken:
each further attempt of the request calls one that is not ready.
-/

namespace FlowControl

/-! ## The past of the instances -/

/-- What happens to the instances of a service: one is polled and says whether it is ready, or is
called for a request. -/
inductive ServiceMoment where
  | polled (target : Nat) (ready : Bool)
  | called (request target : Nat)
  deriving DecidableEq, Repr

namespace ServiceMoment

/-- The request a call is made for. -/
def request? : ServiceMoment → Option Nat
  | .polled .. => none
  | .called request _ => some request

/-- The requests that calls were made for, as often as calls were made, the latest first. -/
def attempts (past : List ServiceMoment) : List Nat := past.filterMap request?

/-- Has an instance said that it is ready after the last call of it?  The latest moment comes
first. -/
def isReady : List ServiceMoment → Nat → Bool
  | [], _ => false
  | .polled target ready :: past, k => target == k && ready || isReady past k
  | .called _ target :: past, k => target != k && isReady past k

/-- Was each call made on a ready instance exactly if it was the first for its request? -/
def FirstReady : List ServiceMoment → Prop
  | [] => True
  | .polled .. :: past => FirstReady past
  | .called request target :: past =>
    (isReady past target = true ↔ request ∉ attempts past) ∧ FirstReady past

variable {past : List ServiceMoment} {i k target : Nat} {ready : Bool}

@[simp] theorem attempts_polled :
    attempts (.polled target ready :: past) = attempts past := rfl

@[simp] theorem attempts_called : attempts (.called i target :: past) = i :: attempts past := rfl

@[simp] theorem isReady_polled_self :
    isReady (.polled target ready :: past) target = (ready || isReady past target) := by
  simp [isReady]

@[simp] theorem isReady_polled_of_ne (h : target ≠ k) :
    isReady (.polled target ready :: past) k = isReady past k := by
  simp [isReady, h]

@[simp] theorem isReady_called_self : isReady (.called i target :: past) target = false := by
  simp [isReady]

@[simp] theorem isReady_called_of_ne (h : target ≠ k) :
    isReady (.called i target :: past) k = isReady past k := by
  simp [isReady, h]

/-- Every call of the past has the property, wherever it stands. -/
theorem FirstReady.of_suffix (h : FirstReady past) {older : List ServiceMoment}
    (hcall : .called i k :: older <:+ past) : isReady older k = true ↔ i ∉ attempts older := by
  induction past with
  | nil => exact absurd (List.suffix_nil.mp hcall) (List.cons_ne_nil _ _)
  | cons moment past ih =>
      rcases List.suffix_cons_iff.mp hcall with heq | hbefore
      · obtain ⟨rfl, rfl⟩ := List.cons.inj heq
        exact h.1
      · cases moment with
        | polled target ready => exact ih h hbefore
        | called request target => exact ih h.2 hbefore

/-- If first calls are those on ready instances, then all calls are on ready instances exactly if
no request is called for twice. -/
theorem FirstReady.forall_ready_iff (h : FirstReady past) :
    (∀ i k older, .called i k :: older <:+ past → isReady older k = true) ↔
      (attempts past).Nodup := by
  induction past with
  | nil =>
      exact ⟨fun _ => List.nodup_nil, fun _ i k older hcall =>
        absurd (List.suffix_nil.mp hcall) (List.cons_ne_nil _ _)⟩
  | cons moment past ih =>
      cases moment with
      | polled target ready =>
          rw [attempts_polled, ← ih h]
          refine forall₃_congr fun i k older => ?_
          rw [List.suffix_cons_iff, or_iff_right (by simp)]
      | called request target =>
          rw [attempts_called, List.nodup_cons, ← ih h.2, ← h.1]
          constructor
          · intro hall
            exact ⟨hall _ _ _ List.suffix_rfl, fun i k older hcall =>
              hall i k older (List.suffix_cons_iff.mpr (.inr hcall))⟩
          · rintro ⟨hlast, hall⟩ i k older hcall
            rcases List.suffix_cons_iff.mp hcall with heq | hbefore
            · cases heq
              exact hlast
            · exact hall i k older hbefore

end ServiceMoment

/-! ## What a guarded call asks of instances -/

namespace Wrapper

variable {α : Type}

/-- Is a question no poll, and no call of another instance than a given one? -/
def Ask.Spares (target : Nat) : Ask → Prop
  | .ready _ => False
  | .call k _ => k = target
  | .acquire | .settle .. | .sleep _ | .roll | .note _ => True

/-- Does a program poll nothing and call only a given instance, whatever it is answered? -/
def CallsOnly {β : Type} (target : Nat) (p : Program α β) : Prop :=
  p.Asks fun (ask : Ask) _ => ask.Spares target

theorem callsOnly_attempt (w : Wrapper) (target number : Nat) :
    CallsOnly target (w.attempt target number :
      Program α (Except ResilienceError (Outcome α))) := by
  refine ⟨trivial, ?_⟩
  rintro (remaining | permit)
  · exact ⟨trivial, fun _ => trivial⟩
  · refine ⟨rfl, ?_⟩
    rintro (failure | value)
    · exact ⟨trivial, fun _ => ⟨trivial, fun _ => trivial⟩⟩
    · exact ⟨trivial, fun _ => trivial⟩

theorem callsOnly_invoke (w : Wrapper) (target : Nat) :
    CallsOnly target (w.invoke target : Program α (Except ResilienceError α)) := by
  refine Routine.Asks.interpret (Routine.asks_of_forall fun ask held => ?_)
  obtain rfl := Retry.held_eq_nil held
  cases ask with
  | operate number => exact callsOnly_attempt w target number
  | sleep length => exact ⟨trivial, fun _ => trivial⟩
  | roll => exact ⟨trivial, fun _ => trivial⟩
  | note event => exact ⟨trivial, fun _ => trivial⟩

end Wrapper

/-- A guarded service is polled by polling the instance at hand. -/
theorem GuardedService.run_ready {α σ : Type} (s : GuardedService)
    (answer : (ask : (Wrapper.interface α).Request) → σ → (Wrapper.interface α).Answer ask × σ)
    (x : σ) :
    (s.ready : Wrapper.Program α (Except ResilienceError Unit)).run answer x =
      (Except.mapError (fun error => .fatal (.call error)) (answer (.ready s.current) x).1,
        (answer (.ready s.current) x).2) := by
  refine (Routine.run_bind answer (Wrapper.ready s.current) _ x).trans ?_
  have hsaid : (Wrapper.ready s.current).run answer x = answer (.ready s.current) x := rfl
  rw [hsaid]
  obtain ⟨error | said, x⟩ := answer (.ready s.current) x <;> rfl

/-! ## Requests to a guarded service -/

/-- A guarded service in use: has it said that it is ready since the last request, what is left of
the requests in the order they came, nothing of those that were dropped, and the past of the
instances, the latest moment first. -/
structure ServiceTraffic (α : Type) where
  service : GuardedService
  ready : Bool
  requests : List (Option (Wrapper.Program α (Except ResilienceError α)))
  past : List ServiceMoment

namespace ServiceTraffic

open ServiceMoment

variable {α : Type} {t : ServiceTraffic α}

/-- An answer to whatever is asked. -/
abbrev Replies (α : Type) : Type :=
  (ask : (Wrapper.interface α).Request) → (Wrapper.interface α).Answer ask

/-- What can happen next: the service is polled, gets a request, a request goes on with the answer
to what it asks, or is dropped. -/
inductive Act (α : Type) where
  | poll (reply : Replies α)
  | request
  | go (i : Nat) (reply : Replies α)
  | drop (i : Nat)

/-- No request yet. -/
def start (w : Wrapper) : ServiceTraffic α := ⟨.ofWrapper w, false, [], []⟩

/-- Notes a poll when it is answered. -/
def notePoll (past : List ServiceMoment) :
    (ask : Wrapper.Ask) → ask.Answer α → List ServiceMoment
  | .ready target, answer => .polled target answer.isOk :: past
  | _, _ => past

/-- Notes the call for a request when it begins. -/
def noteCall (i : Nat) (past : List ServiceMoment) :
    Wrapper.Program α (Except ResilienceError α) → List ServiceMoment
  | .ask (.call target _) _ _ => .called i target :: past
  | _ => past

/-- What an act does.  A request is only made when the service has said that it is ready. -/
def step (t : ServiceTraffic α) : Act α → ServiceTraffic α
  | .poll reply =>
    let (result, past) := t.service.ready.run
      (fun ask past => (reply ask, notePoll (α := α) past ask (reply ask))) t.past
    { t with ready := t.ready || result.isOk, past }
  | .request =>
    if t.ready then
      let (program, service) := t.service.call
      { service, ready := false, requests := t.requests ++ [some program],
        past := noteCall t.requests.length t.past program }
    else t
  | .go i reply =>
    match t.requests[i]? with
    | some (some (.ask ask _ resume)) =>
      let rest := resume (reply ask)
      { t with
        requests := t.requests.set i (some rest)
        past := noteCall i (notePoll (α := α) t.past ask (reply ask)) rest }
    | _ => t
  | .drop i => { t with requests := t.requests.set i none }

/-- What acts do one after another. -/
def run (t : ServiceTraffic α) (acts : List (Act α)) : ServiceTraffic α := acts.foldl step t

/-- What holds at any time: each request has an instance of its own, which is ready until it is
called first. -/
structure Sound (t : ServiceTraffic α) : Prop where
  current : t.service.current = t.requests.length
  made : t.service.made = t.requests.length + 1
  ready : t.ready = true → isReady t.past t.service.current = true
  asks : ∀ i p, t.requests[i]? = some (some p) → Wrapper.CallsOnly i p
  called : ∀ i ∈ attempts t.past, i < t.requests.length
  taken : ∀ i < t.requests.length, isReady t.past i = true ↔ i ∉ attempts t.past
  first : FirstReady t.past

theorem sound_start (w : Wrapper) : (start w : ServiceTraffic α).Sound where
  current := rfl
  made := rfl
  ready := nofun
  asks := nofun
  called := nofun
  taken := nofun
  first := trivial

/-- A request that begins to call its instance ends its readiness, and no other's. -/
theorem Sound.noteCall (h : t.Sound) {i : Nat}
    {p : Wrapper.Program α (Except ResilienceError α)} (hget : t.requests[i]? = some (some p)) :
    { t with past := noteCall i t.past p }.Sound := by
  unfold ServiceTraffic.noteCall
  split
  · next target limit held resume =>
    obtain rfl : target = i := (h.asks i _ hget).1
    have hlt : target < t.requests.length := (List.getElem?_eq_some_iff.mp hget).1
    refine { h with ready := ?_, called := ?_, taken := ?_, first := ?_ }
    · intro hready
      rw [isReady_called_of_ne (by rw [h.current]; exact Nat.ne_of_lt hlt)]
      exact h.ready hready
    · exact List.forall_mem_cons.mpr ⟨hlt, h.called⟩
    · intro j hj
      by_cases heq : target = j
      · subst heq
        simp
      · rw [isReady_called_of_ne heq, h.taken j hj, attempts_called, List.mem_cons,
          or_iff_right (Ne.symm heq)]
    · exact ⟨h.taken target hlt, h.first⟩
  · exact h

/-- A request that goes on, or is dropped, is still the only one that calls its instance. -/
theorem Sound.set (h : t.Sound) {i : Nat}
    {rest : Option (Wrapper.Program α (Except ResilienceError α))}
    (hrest : ∀ p, rest = some p → Wrapper.CallsOnly i p) :
    { t with requests := t.requests.set i rest }.Sound where
  current := h.current.trans List.length_set.symm
  made := by rw [List.length_set]; exact h.made
  ready := h.ready
  asks j p hget := by
    rw [List.getElem?_set] at hget
    split at hget
    · next heq =>
      subst heq
      split at hget
      · exact hrest p (Option.some.inj hget)
      · cases hget
    · exact h.asks j p hget
  called := by rw [List.length_set]; exact h.called
  taken := by rw [List.length_set]; exact h.taken
  first := h.first

/-- A poll is of the instance at hand, and the service says what the instance said. -/
theorem step_poll (t : ServiceTraffic α) (reply : Replies α) :
    t.step (.poll reply) = { t with
      ready := t.ready || (reply (.ready t.service.current)).isOk
      past := .polled t.service.current (reply (.ready t.service.current)).isOk :: t.past } := by
  rw [step, GuardedService.run_ready]
  cases reply (.ready t.service.current) <;> rfl

/-- No request has the instance that is polled. -/
theorem Sound.poll (h : t.Sound) (reply : Replies α) :
    (t.step (.poll reply)).Sound := by
  rw [step_poll]
  refine { h with ready := ?_, taken := ?_ }
  · intro hready
    rw [isReady_polled_self]
    rw [Bool.or_eq_true] at hready ⊢
    exact hready.symm.imp_right h.ready
  · intro i hi
    rw [isReady_polled_of_ne (by rw [h.current]; exact Nat.ne_of_gt hi), attempts_polled]
    exact h.taken i hi

/-- A request takes the instance that said it is ready, and a new instance takes its place. -/
theorem Sound.arrive (h : t.Sound) (hready : t.ready = true) :
    Sound (α := α) ⟨(t.service.call (α := α)).2, false,
      t.requests ++ [some t.service.call.1], t.past⟩ where
  current := by
    rw [List.length_append]
    exact h.made
  made := by
    rw [List.length_append]
    exact congrArg (· + 1) h.made
  ready := nofun
  asks i p hget := by
    rcases Nat.lt_or_ge i t.requests.length with hlt | hge
    · rw [List.getElem?_append_left hlt] at hget
      exact h.asks i p hget
    · rw [List.getElem?_append_right hge, List.getElem?_singleton] at hget
      split at hget
      · next hzero =>
        obtain rfl : i = t.service.current := by
          rw [h.current]
          omega
        cases hget
        exact Wrapper.callsOnly_invoke _ _
      · cases hget
  called i hi := by
    rw [List.length_append]
    exact Nat.lt_succ_of_lt (h.called i hi)
  taken i hi := by
    rw [List.length_append] at hi
    rcases Nat.lt_succ_iff_lt_or_eq.mp hi with hlt | rfl
    · exact h.taken i hlt
    · rw [← h.current]
      refine iff_of_true (h.ready hready) fun hmem => ?_
      exact Nat.lt_irrefl _ (h.current ▸ h.called _ hmem)
  first := h.first

theorem Sound.request (h : t.Sound) : (t.step .request).Sound := by
  simp only [ServiceTraffic.step]
  split
  · next hready => exact (h.arrive hready).noteCall List.getElem?_concat_length
  · exact h

/-- Whatever a request is answered, it has not polled. -/
theorem Sound.go (h : t.Sound) (i : Nat) (reply : Replies α) :
    (t.step (.go i reply)).Sound := by
  simp only [ServiceTraffic.step]
  split
  · next ask held resume hget =>
    have hlt : i < t.requests.length := (List.getElem?_eq_some_iff.mp hget).1
    have hasks : ask.Spares i ∧ ∀ answer, Wrapper.CallsOnly i (resume answer) :=
      h.asks i _ hget
    have hpast : notePoll (α := α) t.past ask (reply ask) = t.past := by
      cases ask with
      | ready target => exact hasks.1.elim
      | _ => rfl
    rw [hpast]
    refine (h.set fun p hp => ?_).noteCall (List.getElem?_set_self hlt)
    cases hp
    exact hasks.2 _
  · exact h

theorem Sound.step (h : t.Sound) (act : Act α) : (t.step act).Sound := by
  cases act with
  | poll reply => exact h.poll reply
  | request => exact h.request
  | go i reply => exact h.go i reply
  | drop i => exact h.set nofun

theorem Sound.run (h : t.Sound) (acts : List (Act α)) : (t.run acts).Sound := by
  induction acts generalizing t with
  | nil => exact h
  | cons act acts ih => exact ih (h.step act)

/-- However a guarded service is used, as long as it is ready before each request: a call is made
on a ready instance exactly if it is the first one for its request, so all calls are exactly if no
request makes a second attempt. -/
theorem ready_iff_first_attempt (w : Wrapper) (acts : List (Act α)) :
    let past := ((start w).run acts).past
    (∀ i k older, .called i k :: older <:+ past →
      (isReady older k = true ↔ i ∉ attempts older)) ∧
    ((∀ i k older, .called i k :: older <:+ past → isReady older k = true) ↔
      (attempts past).Nodup) := by
  intro past
  have hfirst : FirstReady past := ((sound_start w).run acts).first
  exact ⟨fun i k older hcall => hfirst.of_suffix hcall, hfirst.forall_ready_iff⟩

/-- The first attempt fails and is tried again: the instance was polled once and is called twice. -/
theorem ready_iff_first_attempt_retried :
    let w : Wrapper :=
      ⟨"movies", ⟨2, .standard, .none⟩, .standard, ClassifierConfig.standard.classify⟩
    let reply : Replies Unit
      | .acquire => .ok ⟨0, false⟩
      | .ready _ => .ok ()
      | .call .. => .error (.call (.status .unavailable "down"))
      | .settle .. => ()
      | .sleep _ => ()
      | .roll => (0 : UInt64)
      | .note _ => ()
    let past := ((start w).run (.poll reply :: .request :: List.replicate 7 (.go 0 reply))).past
    past = [.called 0 0, .called 0 0, .polled 0 true] ∧
      ¬∀ i k older, .called i k :: older <:+ past → isReady older k = true := by
  intro w reply past
  have hpast : past = [.called 0 0, .called 0 0, .polled 0 true] := by decide +kernel
  refine ⟨hpast, fun hall => ?_⟩
  have honce : (attempts past).Nodup := (ready_iff_first_attempt w _).2.mp hall
  rw [hpast] at honce
  exact absurd honce (by decide)

end ServiceTraffic

end FlowControl
