import FlowControl.Proofs.Breaker.Circuit

/-!
# Generations number the phases

The generation of a breaker is the number of its phase in 64 bits, and a permit carries
the generation of the phase that issued it.  While fewer phases have begun than there
are words, a permit therefore has the generation of the breaker exactly if no
other phase has begun since it was issued.  After that many phases an old permit would pass for a
new one; nothing is said about such runs.
-/

namespace FlowControl.Circuit

variable {c c' : Circuit} {a : Act} {k : Nat} {t : Ticket}

/-- The generations of the breaker and of its permits are numbers of phases, in 64 bits. -/
structure Numbered (c : Circuit) : Prop where
  generation : c.breaker.generation = UInt64.ofNat c.phases
  issued : ∀ t ∈ c.tickets, t.phase ≤ c.phases ∧ t.permit.generation = UInt64.ofNat t.phase

theorem numbered_start (config : BreakerConfig) (now : UInt64) : (start config now).Numbered :=
  ⟨rfl, nofun⟩

theorem mem_of_out? (h : c.out? k = some t) : t ∈ c.tickets :=
  List.mem_of_getElem? (out?_eq_some_iff.mp h).1

/-- No permit was issued by a phase that is still to come. -/
theorem Numbered.phase_le (h : c.Numbered) : ∀ t ∈ c.tickets, t.phase ≤ c.phases :=
  fun t ht => (h.issued t ht).1

/-- Giving a permit back changes neither its permit nor its phase. -/
theorem exists_mem_of_mem_giveBack (h : t ∈ (c.giveBack k).tickets) :
    ∃ u ∈ c.tickets, t.permit = u.permit ∧ t.phase = u.phase := by
  cases hout : c.out? k with
  | none =>
      rw [giveBack_of_none hout] at h
      exact ⟨t, h, rfl, rfl⟩
  | some u =>
      rw [giveBack_of_some hout] at h
      rcases List.mem_or_eq_of_mem_set h with hmem | rfl
      · exact ⟨t, hmem, rfl, rfl⟩
      · exact ⟨u, List.mem_of_getElem? (out?_eq_some_iff.mp hout).1, rfl, rfl⟩

theorem Numbered.enter (h : c.Numbered) (phase : Phase) : (c.enter phase).Numbered where
  generation := by
    show c.breaker.generation + 1 = UInt64.ofNat (c.phases + 1)
    rw [h.generation, UInt64.ofNat_add]
    rfl
  issued t ht := by
    obtain ⟨hphase, hgeneration⟩ := h.issued t ht
    exact ⟨Nat.le_succ_of_le hphase, hgeneration⟩

theorem Numbered.inPhase (h : c.Numbered) (phase : Phase) : (c.inPhase phase).Numbered :=
  ⟨h.generation, h.issued⟩

theorem Numbered.issue (h : c.Numbered) (isProbe : Bool) :
    (c.issue ⟨c.breaker.generation, isProbe⟩).Numbered where
  generation := h.generation
  issued t ht := by
    rcases List.mem_append.mp ht with ht | ht
    · exact h.issued t ht
    · rw [List.mem_singleton.mp ht]
      exact ⟨Nat.le_refl _, h.generation⟩

theorem Numbered.giveBack (h : c.Numbered) (k : Nat) : (c.giveBack k).Numbered where
  generation := by rw [breaker_giveBack, phases_giveBack, h.generation]
  issued t ht := by
    obtain ⟨u, hu, hpermit, hphase⟩ := exists_mem_of_mem_giveBack ht
    rw [hpermit, hphase, phases_giveBack]
    exact h.issued u hu

theorem Effect.numbered (heffect : c.Effect a c') (h : c.Numbered) : c'.Numbered := by
  induction heffect with
  | clock => exact ⟨h.generation, h.issued⟩
  | looks | rejects | full | missing => exact h
  | resets | stirs => exact h.enter _
  | admits => exact h.issue false
  | probes => exact (h.inPhase _).issue true
  | wakes hphase hlate hthen ih => exact ih (h.enter _)
  | late | idle | forgets => exact h.giveBack _
  | counts | frees | weighs => exact (h.inPhase _).giveBack _
  | trips | recovers | relapses => exact (h.enter _).giveBack _

theorem Numbered.step (h : c.Numbered) (a : Act) : (c.step a).Numbered :=
  (effect_step c a).numbered h

theorem numbered_run (h : c.Numbered) (acts : List Act) : (c.run acts).Numbered :=
  run_keeps (fun _ a hd => hd.step a) h acts

theorem Effect.phases_le (heffect : c.Effect a c') : c.phases ≤ c'.phases := by
  induction heffect with
  | wakes hphase hlate hthen ih => exact Nat.le_of_succ_le ih
  | _ => simp [Circuit.enter, Circuit.inPhase, Circuit.issue]

theorem phases_le_run (c : Circuit) (acts : List Act) : c.phases ≤ (c.run acts).phases := by
  refine run_keeps (P := fun d => c.phases ≤ d.phases) ?_ (Nat.le_refl _) acts
  intro d a hle
  exact Nat.le_trans hle (effect_step d a).phases_le

/-- Before generations wrap around, they tell the permits of the phase at hand from all others. -/
theorem Numbered.generation_eq_iff (h : c.Numbered) (hfew : c.phases < Word.size)
    (ht : t ∈ c.tickets) : t.permit.generation = c.breaker.generation ↔ t.phase = c.phases := by
  obtain ⟨hle, hgeneration⟩ := h.issued t ht
  have hsize : Word.size = 18446744073709551616 := rfl
  rw [hgeneration, h.generation]
  constructor
  · intro heq
    have hnat := congrArg UInt64.toNat heq
    rw [UInt64.toNat_ofNat', UInt64.toNat_ofNat'] at hnat
    omega
  · intro heq
    rw [heq]

end FlowControl.Circuit
