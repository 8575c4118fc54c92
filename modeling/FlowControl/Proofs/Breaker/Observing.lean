import FlowControl.Proofs.Breaker.LatePermits

/-!
# Looking at a breaker

To ask a breaker for its phase may begin the half-open phase of an open breaker whose delay has
passed.  Nobody else can tell: the next one who asks for a permit would have begun it, and
until then the open phase has nothing that the half-open one lacks.  So the questions can be struck
from a run on a clock that does not go back, and every other act is answered as
before and leaves the breaker in the same phase for those who ask.

The numbers of the phases differ between the two runs from the first phase that only one of
them has begun, and so do all generations after it.  Circuits are therefore compared without their
numbers: of a permit only matters whether it is out in the phase at hand.  `Trails` is
the relation between the two runs: they agree without numbers, or one is still open and would agree
if it were asked.
-/

namespace FlowControl

/-- A breaker without the number of its phase. -/
def Breaker.unnumbered (b : Breaker) : Breaker := { b with generation := 0 }

/-- A permit without the number of its phase, out only if it was and a certain phase issued it. -/
def Ticket.unnumbered (phase : Nat) (t : Ticket) : Ticket :=
  ⟨⟨0, t.permit.isProbe⟩, 0, t.isOut && t.phase == phase⟩

/-- The permit, given back. -/
def Ticket.returned (t : Ticket) : Ticket := { t with isOut := false }

/-! ## Breakers without numbers -/

namespace Breaker

variable {b : Breaker} {permit : Permit}

theorem unnumbered_wake (b : Breaker) (now : UInt64) :
    (b.unnumbered.wake now).breaker.unnumbered = (b.wake now).breaker.unnumbered := by
  by_cases hopened : b.phase.kind = .opened
  · obtain ⟨since, hphase⟩ := Phase.exists_of_kind_opened hopened
    by_cases hlate : b.config.openMillis ≤ now.toNat - since.toNat
    · rw [wake_of_late hphase hlate, wake_of_late (b := b.unnumbered) hphase hlate]
      rfl
    · have hearly := Nat.not_le.mp hlate
      rw [wake_of_early hphase hearly, wake_of_early (b := b.unnumbered) hphase hearly]
      rfl
  · rw [wake_of_not_opened hopened, wake_of_not_opened (b := b.unnumbered) hopened]
    rfl

/-- A permit is handed out or refused by the phase alone. -/
theorem unnumbered_tryAcquire_of_not_opened (now : UInt64) (hphase : b.phase.kind ≠ .opened) :
    (b.unnumbered.tryAcquire now).breaker.unnumbered = (b.tryAcquire now).breaker.unnumbered ∧
      (b.unnumbered.tryAcquire now).answer.map Permit.isProbe =
        (b.tryAcquire now).answer.map Permit.isProbe := by
  cases hhere : b.phase with
  | opened since =>
      rw [hhere] at hphase
      exact absurd rfl hphase
  | closed window =>
      rw [tryAcquire_of_closed now hhere, tryAcquire_of_closed (b := b.unnumbered) now hhere]
      exact ⟨rfl, rfl⟩
  | halfOpen window inFlight =>
      by_cases hroom : inFlight < b.config.success.capacity
      · rw [tryAcquire_of_room now hhere hroom,
          tryAcquire_of_room (b := b.unnumbered) now hhere hroom]
        exact ⟨rfl, rfl⟩
      · have hfull := Nat.not_lt.mp hroom
        rw [tryAcquire_of_full now hhere hfull,
          tryAcquire_of_full (b := b.unnumbered) now hhere hfull]
        exact ⟨rfl, rfl⟩

theorem unnumbered_tryAcquire (b : Breaker) (now : UInt64) :
    (b.unnumbered.tryAcquire now).breaker.unnumbered = (b.tryAcquire now).breaker.unnumbered ∧
      (b.unnumbered.tryAcquire now).answer.map Permit.isProbe =
        (b.tryAcquire now).answer.map Permit.isProbe := by
  by_cases hopened : b.phase.kind = .opened
  · obtain ⟨since, hphase⟩ := Phase.exists_of_kind_opened hopened
    by_cases hlate : b.config.openMillis ≤ now.toNat - since.toNat
    · rw [tryAcquire_of_late hphase hlate, tryAcquire_of_late (b := b.unnumbered) hphase hlate]
      -- Both half-open phases that begin agree but for their numbers.
      have hwoken : ∀ b' : Breaker, b'.phase = freshHalfOpen b.config →
          b'.phase.kind ≠ .opened := by
        intro b' hfresh
        rw [hfresh]
        nofun
      obtain ⟨hbreaker, hanswer⟩ := unnumbered_tryAcquire_of_not_opened now
        (hwoken (b.enter (freshHalfOpen b.config)) rfl)
      obtain ⟨hbreaker', hanswer'⟩ := unnumbered_tryAcquire_of_not_opened now
        (hwoken (b.unnumbered.enter (freshHalfOpen b.config)) rfl)
      exact ⟨hbreaker'.symm.trans hbreaker, hanswer'.symm.trans hanswer⟩
    · have hearly := Nat.not_le.mp hlate
      rw [tryAcquire_of_early hphase hearly,
        tryAcquire_of_early (b := b.unnumbered) hphase hearly]
      exact ⟨rfl, rfl⟩
  · exact unnumbered_tryAcquire_of_not_opened now hopened

theorem unnumbered_recordClosed (b : Breaker) (window : OutcomeWindow) (failed : Bool)
    (now : UInt64) : (b.unnumbered.recordClosed window failed now).breaker.unnumbered =
      (b.recordClosed window failed now).breaker.unnumbered := by
  have hconfig : b.unnumbered.config = b.config := rfl
  unfold recordClosed
  rw [hconfig]
  by_cases hhigh : b.config.failure.threshold ≤ (window.push failed).failures
  · simp only [hhigh, if_true]
    rfl
  · simp only [hhigh, if_false]
    rfl

theorem unnumbered_recordHalfOpen (b : Breaker) (window : OutcomeWindow) (inFlight : Nat)
    (failed : Bool) (now : UInt64) :
    (b.unnumbered.recordHalfOpen window inFlight failed now).breaker.unnumbered =
      (b.recordHalfOpen window inFlight failed now).breaker.unnumbered := by
  have hconfig : b.unnumbered.config = b.config := rfl
  unfold recordHalfOpen
  rw [hconfig]
  by_cases henough : b.config.success.threshold ≤ (window.push failed).successes
  · simp only [henough, if_true]
    rfl
  · by_cases htoo : b.config.toleratedFailures < (window.push failed).failures
    · simp only [henough, htoo, if_true, if_false]
      rfl
    · simp only [henough, htoo, if_false]
      rfl

theorem unnumbered_settle (hgeneration : permit.generation = b.generation)
    (failed : Option Bool) (now : UInt64) :
    (b.unnumbered.settle ⟨0, permit.isProbe⟩ failed now).breaker.unnumbered =
      (b.settle permit failed now).breaker.unnumbered := by
  cases hphase : b.phase with
  | opened since =>
      rw [settle_of_opened failed now hphase,
        settle_of_opened (b := b.unnumbered) failed now hphase]
      rfl
  | closed window =>
      cases failed with
      | none =>
          rw [settle_none_of_closed now hphase,
            settle_none_of_closed (b := b.unnumbered) now hphase]
          rfl
      | some failed =>
          rw [settle_some_of_closed now hgeneration hphase,
            settle_some_of_closed (b := b.unnumbered) now rfl hphase]
          exact unnumbered_recordClosed ..
  | halfOpen window inFlight =>
      cases failed with
      | none =>
          rw [settle_none_of_halfOpen now hgeneration hphase,
            settle_none_of_halfOpen (b := b.unnumbered) now rfl hphase]
          rfl
      | some failed =>
          rw [settle_some_of_halfOpen now hgeneration hphase,
            settle_some_of_halfOpen (b := b.unnumbered) now rfl hphase]
          exact unnumbered_recordHalfOpen ..

end Breaker

/-! ## Circuits without numbers -/

/-- What a caller learns from an answer; the generation of a permit is not seen. -/
def Circuit.Answer.unnumbered : Circuit.Answer → Circuit.Answer
  | .admission (.ok permit) => .admission (.ok ⟨0, permit.isProbe⟩)
  | .admission (.error remaining) => .admission (.error remaining)
  | .phase kind => .phase kind
  | .done => .done

namespace Circuit

variable {c d : Circuit} {a : Act} {acts : List Act} {k : Nat} {t : Ticket} {since : UInt64}

/-- The circuit without the numbers of its phases; of a permit only matters whether it is out in
the phase at hand. -/
def unnumbered (c : Circuit) : Circuit :=
  ⟨c.breaker.unnumbered, c.now, 0, c.tickets.map (Ticket.unnumbered c.phases)⟩

theorem unnumbered_issue (c : Circuit) (permit : Permit) :
    (c.issue permit).unnumbered = c.unnumbered.issue ⟨0, permit.isProbe⟩ := by
  unfold unnumbered issue
  simp [Ticket.unnumbered]

theorem out?_unnumbered (c : Circuit) (k : Nat) :
    c.unnumbered.out? k =
      ((c.out? k).filter fun t => t.phase == c.phases).map (Ticket.unnumbered c.phases) := by
  have hmap : c.unnumbered.tickets[k]? = c.tickets[k]?.map (Ticket.unnumbered c.phases) :=
    List.getElem?_map
  unfold out?
  rw [hmap]
  cases hget : c.tickets[k]? with
  | none => rfl
  | some t =>
      obtain ⟨permit, phase, isOut⟩ := t
      cases isOut with
      | true =>
          by_cases hthis : phase = c.phases
          · simp [Ticket.unnumbered, Option.filter_some, hthis]
          · simp [Ticket.unnumbered, Option.filter_some, hthis]
      | false => simp [Ticket.unnumbered, Option.filter_some]

/-- To take a late permit back is not seen without numbers, and any other is taken back alike. -/
theorem unnumbered_giveBack (c : Circuit) (k : Nat) :
    (c.giveBack k).unnumbered = c.unnumbered.giveBack k := by
  cases hout : c.out? k with
  | none =>
      have hnone : c.unnumbered.out? k = none := by simp [out?_unnumbered, hout]
      rw [giveBack_of_none hout, giveBack_of_none hnone]
  | some t =>
      have hgiven : (c.giveBack k).unnumbered = { c.unnumbered with
          tickets := (c.tickets.set k { t with isOut := false }).map
            (Ticket.unnumbered c.phases) } := by
        rw [giveBack_of_some hout]
        rfl
      rw [hgiven, List.map_set]
      by_cases hthis : t.phase = c.phases
      · have hsome : c.unnumbered.out? k = some (t.unnumbered c.phases) := by
          simp [out?_unnumbered, hout, Option.filter_some, hthis]
        rw [giveBack_of_some hsome]
        rfl
      · have hnone : c.unnumbered.out? k = none := by simp [out?_unnumbered, hout, hthis]
        have hsame : Ticket.unnumbered c.phases { t with isOut := false } =
            t.unnumbered c.phases := by
          simp [Ticket.unnumbered, beq_eq_false_iff_ne.mpr hthis]
        obtain ⟨hlt, hget⟩ := List.getElem?_eq_some_iff.mp (out?_eq_some_iff.mp hout).1
        rw [giveBack_of_none hnone, hsame, ← List.map_set, ← hget, List.set_getElem_self]
        rfl

/-- When another phase begins, no permit of the phases before is out in it. -/
theorem map_unnumbered_next (hissued : ∀ t ∈ c.tickets, t.phase ≤ c.phases) :
    c.tickets.map (Ticket.unnumbered (c.phases + 1)) =
      c.unnumbered.tickets.map Ticket.returned := by
  show _ = (c.tickets.map (Ticket.unnumbered c.phases)).map Ticket.returned
  rw [List.map_map]
  refine List.map_congr_left fun t ht => ?_
  have hne : t.phase ≠ c.phases + 1 := Nat.ne_of_lt (Nat.lt_succ_of_le (hissued t ht))
  simp [Ticket.unnumbered, Ticket.returned, beq_eq_false_iff_ne.mpr hne]

theorem unnumbered_enter (hissued : ∀ t ∈ c.tickets, t.phase ≤ c.phases) (phase : Phase) :
    (c.enter phase).unnumbered =
      ⟨⟨c.breaker.config, phase, 0⟩, c.now, 0, c.unnumbered.tickets.map Ticket.returned⟩ :=
  congrArg (Circuit.mk _ c.now 0) (map_unnumbered_next hissued)

theorem unnumbered_follow (hissued : ∀ t ∈ c.tickets, t.phase ≤ c.phases) (b : Breaker) :
    (c.follow b).unnumbered = ⟨b.unnumbered, c.now, 0,
      if b.phase.kind = c.breaker.phase.kind then c.unnumbered.tickets
      else c.unnumbered.tickets.map Ticket.returned⟩ := by
  unfold follow
  split
  · rfl
  · exact congrArg (Circuit.mk b.unnumbered c.now 0) (map_unnumbered_next hissued)

theorem issued_unnumbered (c : Circuit) :
    ∀ t ∈ c.unnumbered.tickets, t.phase ≤ c.unnumbered.phases := by
  intro t ht
  obtain ⟨u, -, rfl⟩ := List.mem_map.mp ht
  exact Nat.le_refl 0

theorem unnumbered_unnumbered (c : Circuit) : c.unnumbered.unnumbered = c.unnumbered := by
  unfold unnumbered
  simp [Ticket.unnumbered, Breaker.unnumbered, Function.comp_def]

/-- What follows does not depend on numbers, and how many phases begin does not either. -/
theorem unnumbered_follow_unnumbered (hissued : ∀ t ∈ c.tickets, t.phase ≤ c.phases)
    {b b' : Breaker} (hbreaker : b'.unnumbered = b.unnumbered) :
    (c.unnumbered.follow b').unnumbered = (c.follow b).unnumbered ∧
      c.phases + (c.unnumbered.follow b').phases = (c.follow b).phases := by
  have hphase : b'.phase = b.phase :=
    show b'.unnumbered.phase = b.unnumbered.phase from congrArg Breaker.phase hbreaker
  have hkind : c.unnumbered.breaker.phase.kind = c.breaker.phase.kind := rfl
  constructor
  · rw [unnumbered_follow hissued, unnumbered_follow c.issued_unnumbered, unnumbered_unnumbered,
      hbreaker, hphase, hkind]
    rfl
  · unfold follow
    simp only [hphase, hkind]
    split <;> rfl

theorem Numbered.unnumbered_step_acquire (h : c.Numbered) :
    (c.unnumbered.step .acquire).unnumbered = (c.step .acquire).unnumbered ∧
      c.phases + (c.unnumbered.step .acquire).phases = (c.step .acquire).phases := by
  obtain ⟨hbreaker, hprobe⟩ := Breaker.unnumbered_tryAcquire c.breaker c.now
  obtain ⟨hsame, hphases⟩ := unnumbered_follow_unnumbered h.phase_le hbreaker
  cases hanswer : (c.breaker.tryAcquire c.now).answer with
  | ok permit =>
      cases hanswer' : (c.breaker.unnumbered.tryAcquire c.now).answer with
      | ok permit' =>
          rw [hanswer, hanswer'] at hprobe
          have hprobe : permit'.isProbe = permit.isProbe := Except.ok.inj hprobe
          rw [step_acquire_of_ok hanswer, step_acquire_of_ok (c := c.unnumbered) hanswer',
            unnumbered_issue, unnumbered_issue, hprobe]
          exact ⟨congrArg (Circuit.issue · _) hsame, hphases⟩
      | error remaining =>
          rw [hanswer, hanswer'] at hprobe
          cases hprobe
  | error remaining =>
      cases hanswer' : (c.breaker.unnumbered.tryAcquire c.now).answer with
      | ok permit =>
          rw [hanswer, hanswer'] at hprobe
          cases hprobe
      | error remaining' =>
          rw [step_acquire_of_error hanswer, step_acquire_of_error (c := c.unnumbered) hanswer']
          exact ⟨hsame, hphases⟩

theorem Numbered.unnumbered_perform_settle (h : c.Numbered) (hfew : c.phases < Word.size)
    (k : Nat) (failed : Option Bool) :
    (c.unnumbered.perform (.settle k failed)).breaker.unnumbered =
      (c.perform (.settle k failed)).breaker.unnumbered := by
  cases hout : c.out? k with
  | none =>
      have hnone : c.unnumbered.out? k = none := by simp [out?_unnumbered, hout]
      simp only [perform, hout, hnone]
      rfl
  | some t =>
      have hmem := mem_of_out? hout
      by_cases hthis : t.phase = c.phases
      · have hsome : c.unnumbered.out? k = some (t.unnumbered c.phases) := by
          simp [out?_unnumbered, hout, Option.filter_some, hthis]
        have hgeneration := (h.generation_eq_iff hfew hmem).mpr hthis
        simp only [perform, hout, hsome]
        exact Breaker.unnumbered_settle hgeneration failed c.now
      · -- The permit is late: its generation tells it from those of the phase at hand.
        have hnone : c.unnumbered.out? k = none := by simp [out?_unnumbered, hout, hthis]
        simp only [perform, hout, hnone, h.settle_of_late hfew hmem hthis]
        rfl

/-- Without numbers, every act does the same, and begins as many phases. -/
theorem Numbered.unnumbered_step (h : c.Numbered) (hfew : c.phases < Word.size) (a : Act) :
    (c.unnumbered.step a).unnumbered = (c.step a).unnumbered ∧
      c.phases + (c.unnumbered.step a).phases = (c.step a).phases := by
  cases a with
  | acquire => exact h.unnumbered_step_acquire
  | settle k failed =>
      obtain ⟨hsame, hphases⟩ :=
        unnumbered_follow_unnumbered h.phase_le (h.unnumbered_perform_settle hfew k failed)
      show (Circuit.giveBack _ k).unnumbered = (Circuit.giveBack _ k).unnumbered ∧
        c.phases + (Circuit.giveBack _ k).phases = (Circuit.giveBack _ k).phases
      rw [unnumbered_giveBack, unnumbered_giveBack, phases_giveBack, phases_giveBack]
      exact ⟨congrArg (Circuit.giveBack · k) hsame, hphases⟩
  | observe =>
      exact unnumbered_follow_unnumbered h.phase_le (Breaker.unnumbered_wake c.breaker c.now)
  | reset =>
      refine ⟨?_, rfl⟩
      show (Circuit.enter _ _).unnumbered = (Circuit.enter _ _).unnumbered
      rw [unnumbered_enter h.phase_le, unnumbered_enter c.issued_unnumbered,
        unnumbered_unnumbered]
      rfl
  | setClock reading =>
      exact ⟨congrArg (fun d : Circuit => { d with now := reading }) (unnumbered_unnumbered c), rfl⟩

/-- Circuits that agree without numbers go on to agree, and as many phases begin in both. -/
theorem Numbered.step_alike (hc : c.Numbered) (hd : d.Numbered) (hfew : c.phases < Word.size)
    (hfew' : d.phases < Word.size) (halike : d.unnumbered = c.unnumbered) (a : Act) :
    (d.step a).unnumbered = (c.step a).unnumbered ∧
      (c.step a).phases + d.phases = (d.step a).phases + c.phases := by
  obtain ⟨hsame, hphases⟩ := hc.unnumbered_step hfew a
  obtain ⟨hsame', hphases'⟩ := hd.unnumbered_step hfew' a
  rw [halike] at hsame' hphases'
  exact ⟨hsame'.symm.trans hsame, by omega⟩

/-! ## Two runs, one with questions -/

/-- The reading that a clock is set to. -/
def Act.reading? : Act → Option UInt64
  | .setClock reading => some reading
  | _ => none

/-- Is the breaker only asked for its phase? -/
def Act.isQuestion : Act → Bool
  | .observe => true
  | _ => false

theorem Act.eq_observe_of_isQuestion (h : a.isQuestion = true) : a = .observe := by
  cases a with
  | observe => rfl
  | acquire | settle k failed | reset | setClock reading => cases h

/-- The phase that those who ask are told, with its window and its slots in use. -/
def shown (c : Circuit) : Phase := (c.breaker.observe c.now).breaker.phase

/-- What is seen of an act: its answer, and the phase that those who ask then are told. -/
def seen (m : Circuit × Act) : Answer × Phase :=
  ((m.1.perform m.2).answer.unnumbered, (m.1.step m.2).shown)

/-- The first circuit has not been asked, the second one has.  Without numbers they agree, or would
agree if the first one were asked now. -/
inductive Trails (d c : Circuit) : Prop
  | level (halike : d.unnumbered = c.unnumbered) (hle : d.phases ≤ c.phases)
  | behind {since : UInt64} (hphase : d.breaker.phase = .opened since)
      (hlate : d.breaker.config.openMillis ≤ d.now.toNat - since.toNat)
      (halike : (d.enter (Breaker.freshHalfOpen d.breaker.config)).unnumbered = c.unnumbered)
      (hlt : d.phases < c.phases)

theorem breaker_of_alike (h : d.unnumbered = c.unnumbered) :
    d.breaker.config = c.breaker.config ∧ d.breaker.phase = c.breaker.phase ∧ d.now = c.now := by
  show d.unnumbered.breaker.config = c.unnumbered.breaker.config ∧
    d.unnumbered.breaker.phase = c.unnumbered.breaker.phase ∧ d.unnumbered.now = c.unnumbered.now
  rw [h]
  exact ⟨rfl, rfl, rfl⟩

theorem step_observe_of_not_opened (hphase : c.breaker.phase.kind ≠ .opened) :
    c.step .observe = c := by
  rw [step_observe, Breaker.wake_of_not_opened hphase, follow_breaker]

theorem step_observe_of_late (hphase : c.breaker.phase = .opened since)
    (hlate : c.breaker.config.openMillis ≤ c.now.toNat - since.toNat) :
    c.step .observe = c.enter (Breaker.freshHalfOpen c.breaker.config) := by
  rw [step_observe, Breaker.wake_of_late hphase hlate,
    follow_of_other (by rw [hphase]; nofun)]

/-- A circuit that is behind agrees with one that is half-open. -/
theorem kind_of_behind
    (h : (d.enter (Breaker.freshHalfOpen d.breaker.config)).unnumbered = c.unnumbered) :
    c.breaker.phase.kind ≠ .opened := by
  obtain ⟨-, hphase, -⟩ := breaker_of_alike h
  rw [← hphase]
  nofun

/-- Only the second circuit is asked. -/
theorem Trails.observe (h : Trails d c) (hc : c.Numbered) (hd : d.Numbered) :
    Trails d (c.step .observe) := by
  cases h with
  | behind hphase hlate halike hlt =>
      rw [step_observe_of_not_opened (kind_of_behind halike)]
      exact .behind hphase hlate halike hlt
  | level halike hle =>
      obtain ⟨hconfig, hphase, hnow⟩ := breaker_of_alike halike
      have heffect := effect_step c .observe
      generalize c.step .observe = c' at heffect ⊢
      cases heffect with
      | looks => exact .level halike hle
      | stirs _ hopened hlate =>
          refine .behind (hphase.trans hopened) (by rw [hconfig, hnow]; exact hlate) ?_
            (Nat.lt_succ_of_le hle)
          rw [unnumbered_enter hd.phase_le, unnumbered_enter hc.phase_le, hconfig, hnow, halike]

/-! ## Acts of both runs -/

theorem enter_giveBack (c : Circuit) (k : Nat) (phase : Phase) :
    (c.giveBack k).enter phase = (c.enter phase).giveBack k := by
  cases hout : c.out? k with
  | none => rw [giveBack_of_none hout, giveBack_of_none (c := c.enter phase) hout]
  | some t =>
      rw [giveBack_of_some hout, giveBack_of_some (c := c.enter phase) hout]
      rfl

theorem now_giveBack (c : Circuit) (k : Nat) : (c.giveBack k).now = c.now := by
  unfold giveBack
  split <;> rfl

theorem step_settle_of_opened (hphase : c.breaker.phase = .opened since) (k : Nat)
    (failed : Option Bool) : c.step (.settle k failed) = c.giveBack k := by
  cases hout : c.out? k with
  | none => rw [step_settle_of_none failed hout, giveBack_of_none hout]
  | some t =>
      rw [step_settle_of_some failed hout, Breaker.settle_of_opened failed c.now hphase,
        follow_breaker]

/-- The phase that has just begun has issued no permit. -/
theorem Numbered.step_settle_of_entered (h : c.Numbered) (hfew : c.phases + 1 < Word.size)
    (phase : Phase) (k : Nat) (failed : Option Bool) :
    (c.enter phase).step (.settle k failed) = (c.enter phase).giveBack k := by
  cases hout : (c.enter phase).out? k with
  | none => rw [step_settle_of_none failed hout, giveBack_of_none hout]
  | some t =>
      have hmem : t ∈ c.tickets := mem_of_out? hout
      have hlate : t.phase ≠ c.phases + 1 :=
        Nat.ne_of_lt (Nat.lt_succ_of_le (h.phase_le t hmem))
      rw [step_settle_of_some failed hout, (h.enter phase).settle_of_late hfew hmem hlate,
        follow_breaker]

/-- To reset a circuit is the same before it is asked and after. -/
theorem Numbered.unnumbered_reset_of_entered (h : c.Numbered) (phase : Phase) :
    (c.step .reset).unnumbered = ((c.enter phase).step .reset).unnumbered := by
  have hissued := h.phase_le
  have hissued' := (h.enter phase).phase_le
  show (c.enter _).unnumbered = ((c.enter phase).enter _).unnumbered
  rw [unnumbered_enter hissued, unnumbered_enter hissued', unnumbered_enter hissued, List.map_map]
  rfl

/-- An act in both runs, on a clock that does not go back. -/
theorem Trails.step (h : Trails d c) (hc : c.Numbered) (hd : d.Numbered)
    (hfew : c.phases < Word.size) (hact : a.isQuestion = false)
    (hclock : ∀ reading ∈ a.reading?, c.now ≤ reading) : Trails (d.step a) (c.step a) := by
  cases h with
  | level halike hle =>
      obtain ⟨hsame, hphases⟩ := hc.step_alike hd hfew (Nat.lt_of_le_of_lt hle hfew) halike a
      exact .level hsame (by omega)
  | behind hphase hlate halike hlt =>
      have hw := hd.enter (Breaker.freshHalfOpen d.breaker.config)
      have hfew' : d.phases + 1 < Word.size := Nat.lt_of_le_of_lt hlt hfew
      obtain ⟨hsame, hphases⟩ := hc.step_alike hw hfew hfew' halike a
      have hwphases : (d.enter (Breaker.freshHalfOpen d.breaker.config)).phases = d.phases + 1 :=
        rfl
      cases a with
      | acquire =>
          -- This begins the half-open phase in the first run, too.
          rw [step_acquire_of_late hphase hlate]
          exact .level hsame (by omega)
      | settle k failed =>
          rw [hd.step_settle_of_entered hfew'] at hsame hphases
          rw [phases_giveBack] at hphases
          rw [step_settle_of_opened hphase]
          refine .behind (by rw [breaker_giveBack]; exact hphase)
            (by rw [breaker_giveBack, now_giveBack]; exact hlate) ?_ ?_
          · rw [breaker_giveBack, enter_giveBack]
            exact hsame
          · rw [phases_giveBack]
            omega
      | observe => cases hact
      | reset =>
          refine .level ((hd.unnumbered_reset_of_entered _).trans hsame) ?_
          show d.phases + 1 ≤ c.phases + 1
          omega
      | setClock reading =>
          obtain ⟨-, -, hnow⟩ := breaker_of_alike halike
          have hforward : d.now ≤ reading := by
            rw [show d.now = c.now from hnow]
            exact hclock reading rfl
          have hforward' := UInt64.le_iff_toNat_le.mp hforward
          refine .behind hphase (Nat.le_trans hlate ?_) hsame hlt
          show d.now.toNat - _ ≤ reading.toNat - _
          omega

/-! ## What is seen of both runs -/

theorem shown_eq (c : Circuit) : c.shown = (c.step .observe).breaker.phase := rfl

/-- Those who ask are told the same phase. -/
theorem Trails.shown_eq (h : Trails d c) (hc : c.Numbered) (hd : d.Numbered)
    (hfew : c.phases < Word.size) : d.shown = c.shown := by
  rw [Circuit.shown_eq, Circuit.shown_eq]
  cases h with
  | level halike hle =>
      obtain ⟨hsame, -⟩ :=
        hc.step_alike hd hfew (Nat.lt_of_le_of_lt hle hfew) halike .observe
      exact (breaker_of_alike hsame).2.1
  | behind hphase hlate halike hlt =>
      rw [step_observe_of_late hphase hlate, step_observe_of_not_opened (kind_of_behind halike)]
      exact (breaker_of_alike halike).2.1

theorem unnumbered_admission {x y : Except Duration Permit}
    (h : x.map Permit.isProbe = y.map Permit.isProbe) :
    (Answer.admission x).unnumbered = (Answer.admission y).unnumbered := by
  cases x with
  | ok permit =>
      cases y with
      | ok permit' =>
          have hprobe : permit.isProbe = permit'.isProbe := Except.ok.inj h
          simp only [Answer.unnumbered, hprobe]
      | error remaining => cases h
  | error remaining =>
      cases y with
      | ok permit' => cases h
      | error remaining' => rw [show remaining = remaining' from Except.error.inj h]

/-- Circuits that agree without numbers admit alike. -/
theorem answer_of_alike (h : d.unnumbered = c.unnumbered) :
    (d.perform .acquire).answer.unnumbered = (c.perform .acquire).answer.unnumbered := by
  obtain ⟨-, -, hnow⟩ := breaker_of_alike h
  have hbreaker : d.breaker.unnumbered = c.breaker.unnumbered := congrArg Circuit.breaker h
  have hc := (Breaker.unnumbered_tryAcquire c.breaker c.now).2
  have hd := (Breaker.unnumbered_tryAcquire d.breaker d.now).2
  rw [← hbreaker, ← hnow] at hc
  refine unnumbered_admission ?_
  rw [← hd, hc, hnow]

theorem Trails.answer_eq (h : Trails d c) (hact : a.isQuestion = false) :
    (d.perform a).answer.unnumbered = (c.perform a).answer.unnumbered := by
  cases a with
  | acquire =>
      cases h with
      | level halike hle => exact answer_of_alike halike
      | behind hphase hlate halike hlt =>
          have hwoken : (d.breaker.tryAcquire d.now).answer =
              ((d.breaker.enter (Breaker.freshHalfOpen d.breaker.config)).tryAcquire
                d.now).answer := by rw [Breaker.tryAcquire_of_late hphase hlate]
          rw [← answer_of_alike halike]
          exact congrArg (fun x => (Answer.admission x).unnumbered) hwoken
  | settle k failed =>
      have hdone : ∀ e : Circuit, (e.perform (.settle k failed)).answer = .done := by
        intro e
        cases hout : e.out? k with
        | none => simp only [perform, hout]
        | some t =>
            simp only [perform, hout]
            rfl
      rw [hdone, hdone]
  | observe => cases hact
  | reset => rfl
  | setClock reading => rfl

/-- Only setting the clock moves it. -/
theorem Effect.now_eq {c' : Circuit} (h : c.Effect a c') : c'.now = a.reading?.getD c.now := by
  induction h with
  | wakes hphase hlate hthen ih => exact ih
  | late | idle | forgets | counts | trips | frees | weighs | recovers | relapses =>
      exact now_giveBack ..
  | _ => rfl

theorem inOrder_step (h : (c.now :: (a :: acts).filterMap Act.reading?).Pairwise (· ≤ ·)) :
    ((c.step a).now :: acts.filterMap Act.reading?).Pairwise (· ≤ ·) := by
  rw [(effect_step c a).now_eq]
  cases hreading : a.reading? with
  | some reading =>
      rw [List.filterMap_cons_some hreading] at h
      exact (List.pairwise_cons.mp h).2
  | none =>
      rw [List.filterMap_cons_none hreading] at h
      exact h

/-- A run without questions trails the one with them. -/
theorem Trails.trace (h : Trails d c) (hc : c.Numbered) (hd : d.Numbered)
    (hfew : (c.run acts).phases < Word.size)
    (hclock : (c.now :: acts.filterMap Act.reading?).Pairwise (· ≤ ·)) :
    (d.trace (acts.filter (!·.isQuestion))).map seen =
        ((c.trace acts).filter (!·.2.isQuestion)).map seen ∧
      (d.run (acts.filter (!·.isQuestion))).shown = (c.run acts).shown := by
  induction acts generalizing c d with
  | nil => exact ⟨rfl, h.shown_eq hc hd hfew⟩
  | cons a acts ih =>
      have hstep : (c.step a).phases < Word.size :=
        Nat.lt_of_le_of_lt (phases_le_run (c.step a) acts) hfew
      have hhere : c.phases < Word.size := Nat.lt_of_le_of_lt (phases_le_run c (a :: acts)) hfew
      have hclock' := inOrder_step hclock
      cases hact : a.isQuestion with
      | true =>
          -- Only the run with questions takes the step.
          obtain rfl := Act.eq_observe_of_isQuestion hact
          exact ih (h.observe hc hd) (hc.step .observe) hd hfew hclock'
      | false =>
          have hforward : ∀ reading ∈ a.reading?, c.now ≤ reading := by
            intro reading hreading
            refine (List.pairwise_cons.mp hclock).1 reading ?_
            exact List.mem_filterMap.mpr ⟨a, List.mem_cons_self .., hreading⟩
          have hthen := h.step hc hd hhere hact hforward
          obtain ⟨htrace, hrun⟩ := ih hthen (hc.step a) (hd.step a) hfew hclock'
          have hseen : seen (d, a) = seen (c, a) :=
            Prod.ext (h.answer_eq hact) (hthen.shown_eq (hc.step a) (hd.step a) hstep)
          rw [List.filter_cons_of_pos (by simp [hact])]
          refine ⟨?_, hrun⟩
          rw [Circuit.trace, Circuit.trace, List.filter_cons_of_pos (by simp [hact]),
            List.map_cons, List.map_cons, hseen, htrace]

/-- To ask a breaker for its phase steers nothing.  On a clock that does not go back, and as long
as generations do not wrap around, the questions can be struck from a run: every other act is
answered alike, and after it those who ask are told the same phase, with the same window and the
same slots in use. -/
theorem questions_unnoticed (config : BreakerConfig) (now : UInt64) (acts : List Act)
    (hclock : (now :: acts.filterMap Act.reading?).Pairwise (· ≤ ·))
    (hfew : ((start config now).run acts).phases < Word.size) :
    let c := start config now
    (c.trace (acts.filter (!·.isQuestion))).map seen =
        ((c.trace acts).filter (!·.2.isQuestion)).map seen ∧
      (c.run (acts.filter (!·.isQuestion))).shown = (c.run acts).shown := by
  intro c
  have hstart : c.Numbered := numbered_start config now
  exact (Trails.level rfl (Nat.le_refl _) : Trails c c).trace hstart hstart hfew hclock

/-- A breaker that is asked once its delay has passed, and then reset, has begun one phase more
than one that is only reset.  The call that follows goes the same way. -/
theorem questions_unnoticed_before_reset :
    let c := start ⟨⟨1, 1⟩, ⟨1, 1⟩, .ofSecs 1⟩ 0
    let asked : List Act := [.acquire, .settle 0 (some true), .setClock 1000, .observe, .reset,
      .acquire, .settle 1 (some true), .observe]
    let unasked : List Act := [.acquire, .settle 0 (some true), .setClock 1000, .reset, .acquire,
      .settle 1 (some true)]
    ((0 : UInt64) :: asked.filterMap Act.reading?).Pairwise (· ≤ ·) ∧
      (c.run asked).phases = 4 ∧ (c.run unasked).phases = 3 ∧
      (c.trace unasked).map seen = ((c.trace asked).filter (!·.2.isQuestion)).map seen ∧
      (c.run unasked).shown = (c.run asked).shown := by
  intro c asked unasked
  have hclock : ((0 : UInt64) :: asked.filterMap Act.reading?).Pairwise (· ≤ ·) := by decide
  have hasked : (c.run asked).phases = 4 := by decide
  have hfew : (c.run asked).phases < Word.size := by decide
  have hunasked : (c.run unasked).phases = 3 := by decide
  obtain ⟨htrace, hshown⟩ := questions_unnoticed ⟨⟨1, 1⟩, ⟨1, 1⟩, .ofSecs 1⟩ 0 asked hclock hfew
  exact ⟨hclock, hasked, hunasked, htrace, hshown⟩

end Circuit

end FlowControl
