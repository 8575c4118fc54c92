import FlowControl.Proofs.Call.GuardedCall

/-!
# A guarded call settles what it is admitted for

Whatever others do to the circuit, whatever the attempts give and wherever the call is
dropped: it is made once for each permit, and each attempt that is over is paid for at
once, on its own permit, with the verdict of the classifier.  A rejection ends the call.
Whenever the call is asleep, at its end or gone, none of its permits is out; a permit
that is held when the call is dropped is given back without an outcome.

Nothing is said about how many attempts are made, or what the call returns.
-/

namespace FlowControl.GuardedCall

variable {α : Type} {w : Wrapper} {s : GuardedCall α} {c : Circuit} {stage : CallStage} {k : Nat}
  {permit : Permit} {remaining : Duration} {failed : Bool} {past newer : List (CallMoment α)}
  {e : CallMoment α} {p : Wrapper.Program α (Except ResilienceError α)}

/-! ## What every act keeps -/

/-- A program that decides goes on deciding, or ends. -/
theorem Accounted.ofDeciding (hp : Wrapper.Follows w .deciding p)
    (h : Orderly w past .deciding) (hholds : Holds c (past.filterMap CallMoment.ticket?) none) :
    ∃ stage, Accounted w ⟨c, some p, CallMoment.ofNext p ++ past⟩ stage := by
  cases p with
  | done result =>
      exact ⟨.ended, by rintro _ ⟨⟩; trivial, nofun, h.moment (.returned result), hholds⟩
  | ask ask held resume =>
      cases ask with
      | acquire | roll => exact ⟨.deciding, by rintro _ ⟨⟩; exact hp, nofun, h, hholds⟩
      | note event => exact ⟨.deciding, by rintro _ ⟨⟩; exact hp, nofun, h, hholds⟩
      | sleep length =>
          exact ⟨.deciding, by rintro _ ⟨⟩; exact hp, nofun, h.moment (.slept length), hholds⟩
      | ready target => exact hp.elim
      | call target limit => exact hp.elim
      | settle permit failed => exact hp.elim

/-- A program that was refused reports it, or ends with it. -/
theorem Accounted.ofRefused (hp : Wrapper.Follows w (.refused remaining) p)
    (h : Orderly w past (.refused remaining))
    (hholds : Holds c (past.filterMap CallMoment.ticket?) none) :
    ∃ stage, Accounted w ⟨c, some p, CallMoment.ofNext p ++ past⟩ stage := by
  cases p with
  | done result =>
      obtain rfl : result = .error (.circuitOpen remaining) := hp
      exact ⟨.ended, by rintro _ ⟨⟩; trivial, nofun, h.moment (.rejected remaining), hholds⟩
  | ask ask held resume =>
      cases ask with
      | note event => exact ⟨_, by rintro _ ⟨⟩; exact hp, nofun, h, hholds⟩
      | _ => exact hp.elim

/-- A program that was admitted makes its call. -/
theorem Accounted.ofCalling (hp : Wrapper.Follows w (.calling k permit) p)
    (h : Orderly w past (.admitted k permit))
    (hholds : Holds c (past.filterMap CallMoment.ticket?) (some (k, permit))) :
    ∃ stage, Accounted w ⟨c, some p, CallMoment.ofNext p ++ past⟩ stage := by
  cases p with
  | done result => exact hp.elim
  | ask ask held resume =>
      cases ask with
      | call target limit =>
          exact ⟨.calling k permit, by rintro _ ⟨⟩; exact hp, nofun, h.moment (.called k permit),
            hholds⟩
      | _ => exact hp.elim

/-- A program that owes an outcome reports, or pays. -/
theorem Accounted.ofOwing (hp : Wrapper.Follows w (.owing k permit failed) p)
    (h : Orderly w past (.owing k permit failed))
    (hholds : Holds c (past.filterMap CallMoment.ticket?) (some (k, permit))) :
    ∃ stage, Accounted w ⟨c, some p, CallMoment.ofNext p ++ past⟩ stage := by
  cases p with
  | done result => exact hp.elim
  | ask ask held resume =>
      cases ask with
      | note event => exact ⟨_, by rintro _ ⟨⟩; exact hp, nofun, h, hholds⟩
      | settle permit' failed' => exact ⟨_, by rintro _ ⟨⟩; exact hp, nofun, h, hholds⟩
      | _ => exact hp.elim

theorem accounted_start (w : Wrapper) (target : Nat) (c : Circuit) :
    Accounted w (start w target c : GuardedCall α) .deciding where
  follows p hp := by
    cases hp
    exact Wrapper.follows_invoke w target
  gone := nofun
  orderly := .start
  holds := ⟨nofun, nofun, nofun, List.nodup_nil⟩

theorem Accounted.other (h : Accounted w s stage) (a : Circuit.Act) :
    Accounted w (s.step (.other a)) stage := by
  simp only [step]
  split
  · exact h
  · next hother =>
    refine ⟨h.follows, h.gone, h.orderly, h.holds.step ?_⟩
    rintro k hk failed rfl
    exact hother (List.contains_iff_mem.mpr hk)

/-- An answer to a program that decides. -/
theorem Accounted.go_deciding {ask : Wrapper.Ask} {held : List Permit}
    {resume : ask.Answer α → Wrapper.Program α (Except ResilienceError α)}
    (h : Accounted w s .deciding) (htask : s.task = some (.ask ask held resume))
    (latency : Duration) (result : Except CallError α) (word : UInt64) :
    ∃ stage, Accounted w (s.step (.go latency result word)) stage := by
  have hp := h.follows _ htask
  simp only [step, htask]
  cases ask with
  | acquire =>
      obtain ⟨-, hrefused, hadmitted⟩ := hp
      cases hanswer : (s.circuit.breaker.tryAcquire s.circuit.now).answer with
      | ok permit =>
          simp only [answer, hanswer]
          exact Accounted.ofCalling (hadmitted permit _) (h.orderly.moment (.granted _ permit))
            (h.holds.grant hanswer)
      | error remaining =>
          simp only [answer, hanswer]
          exact Accounted.ofRefused (hrefused remaining) (h.orderly.moment (.refused remaining))
            (h.holds.step fun _ _ _ => nofun)
  | sleep length => exact Accounted.ofDeciding hp.2 h.orderly h.holds
  | roll => exact Accounted.ofDeciding (hp.2 word) h.orderly h.holds
  | note event => exact Accounted.ofDeciding hp.2 h.orderly h.holds
  | ready target => exact hp.elim
  | call target limit => exact hp.elim
  | settle permit failed => exact hp.elim

/-- An answer to a program that owes an outcome. -/
theorem Accounted.go_owing {ask : Wrapper.Ask} {held : List Permit}
    {resume : ask.Answer α → Wrapper.Program α (Except ResilienceError α)}
    (h : Accounted w s (.owing k permit failed)) (htask : s.task = some (.ask ask held resume))
    (latency : Duration) (result : Except CallError α) (word : UInt64) :
    ∃ stage, Accounted w (s.step (.go latency result word)) stage := by
  have hp := h.follows _ htask
  simp only [step, htask]
  cases ask with
  | note event => exact Accounted.ofOwing hp.2 h.orderly h.holds
  | settle permit' failed' =>
      obtain ⟨rfl, rfl, -, hnext⟩ := hp
      have hown : s.own? permit' = some k := Holds.own? h.holds
      simp only [answer, hown]
      exact Accounted.ofDeciding hnext (h.orderly.moment (.recorded k permit' failed'))
        (h.holds.giveBack (some failed'))
  | _ => exact hp.elim

/-- Every answer leads to a stage. -/
theorem Accounted.go (h : Accounted w s stage) (latency : Duration)
    (result : Except CallError α) (word : UInt64) :
    ∃ stage, Accounted w (s.step (.go latency result word)) stage := by
  cases htask : s.task with
  | none => exact ⟨stage, by simpa only [step, htask] using h⟩
  | some p =>
      cases p with
      | done result => exact ⟨stage, by simpa only [step, htask] using h⟩
      | ask ask held resume =>
          have hp := h.follows _ htask
          cases stage with
          | deciding => exact h.go_deciding htask latency result word
          | owing k permit failed => exact h.go_owing htask latency result word
          | calling k permit =>
              simp only [step, htask]
              cases ask with
              | call target limit =>
                  exact Accounted.ofOwing (hp.2.2 _) (h.orderly.moment (.finished k permit _))
                    h.holds
              | _ => exact hp.elim
          | refused remaining =>
              simp only [step, htask]
              cases ask with
              | note event => exact Accounted.ofRefused hp.2 h.orderly h.holds
              | _ => exact hp.elim
          -- Nothing is asked in the other stages.
          | admitted k permit => cases ask <;> exact hp.elim
          | leaving k permit => cases ask <;> exact hp.elim
          | ended => cases ask <;> exact hp.elim

/-- A call that is dropped while it decides leaves nothing behind. -/
theorem Accounted.drop_deciding {ask : Wrapper.Ask} {held : List Permit}
    {resume : ask.Answer α → Wrapper.Program α (Except ResilienceError α)}
    (h : Accounted w s .deciding) (htask : s.task = some (.ask ask held resume))
    (hmay : ask.mayDrop = true) :
    s.step .drop = { s with task := none, past := .dropped :: s.past } ∧
      Accounted w (s.step .drop) .ended := by
  have hp := h.follows _ htask
  have hheld : held = [] := by
    cases ask with
    | acquire | sleep | roll | note => exact hp.1
    | _ => exact hp.elim
  subst hheld
  have hstep : s.step .drop = { s with task := none, past := .dropped :: s.past } := by
    simp only [step, htask, hmay, if_true, List.foldl_nil]
  rw [hstep]
  exact ⟨rfl, nofun, fun _ => rfl, h.orderly.moment .dropped, h.holds⟩

/-- A call that is dropped during an attempt gives its permit up. -/
theorem Accounted.drop_calling {target : Nat} {limit : TimeoutPolicy} {held : List Permit}
    {resume : (Wrapper.Ask.call target limit).Answer α →
      Wrapper.Program α (Except ResilienceError α)}
    (h : Accounted w s (.calling k permit))
    (htask : s.task = some (.ask (.call target limit) held resume)) :
    s.step .drop =
        ⟨s.circuit.step (.settle k none), none, .freed k :: .dropped :: s.past⟩ ∧
      Accounted w (s.step .drop) .ended := by
  obtain ⟨rfl, -, -⟩ := h.follows _ htask
  have hown :
        GuardedCall.own? { s with task := none, past := .dropped :: s.past } permit = some k :=
    Holds.own? h.holds
  have hstep : s.step .drop =
      ⟨s.circuit.step (.settle k none), none, .freed k :: .dropped :: s.past⟩ := by
    simp only [step, htask, Wrapper.Ask.mayDrop, if_true, List.foldl_cons, List.foldl_nil, free,
      hown]
  rw [hstep]
  exact ⟨rfl, nofun, fun _ => rfl,
    (h.orderly.moment (.broken k permit)).moment (.freed k permit), h.holds.giveBack none⟩

/-- Dropping a call leads to a stage. -/
theorem Accounted.drop (h : Accounted w s stage) : ∃ stage, Accounted w (s.step .drop) stage := by
  cases htask : s.task with
  | none => exact ⟨stage, by simpa only [step, htask] using h⟩
  | some p =>
      cases p with
      | done result => exact ⟨stage, by simpa only [step, htask] using h⟩
      | ask ask held resume =>
          by_cases hmay : ask.mayDrop = true
          · have hp := h.follows _ htask
            cases stage with
            | deciding => exact ⟨.ended, (h.drop_deciding htask hmay).2⟩
            | calling k permit =>
                cases ask with
                | call target limit => exact ⟨.ended, (h.drop_calling htask).2⟩
                | _ => exact hp.elim
            | _ =>
                -- What is asked here is done without waiting.
                cases ask with
                | settle permit failed | note event => cases hmay
                | _ => exact hp.elim
          · exact ⟨stage, by simpa only [step, htask, hmay, Bool.false_eq_true, if_false] using h⟩

theorem Accounted.step (h : Accounted w s stage) (a : Act α) :
    ∃ stage, Accounted w (s.step a) stage := by
  cases a with
  | other a => exact ⟨stage, h.other a⟩
  | go latency result word => exact h.go latency result word
  | drop => exact h.drop

/-- A guarded call stands in a stage at any time. -/
theorem Accounted.run (h : Accounted w s stage) (acts : List (Act α)) :
    ∃ stage, Accounted w (s.run acts) stage := by
  induction acts generalizing s stage with
  | nil => exact ⟨stage, h⟩
  | cons a acts ih =>
      obtain ⟨stage', h'⟩ := h.step a
      exact ih h'

/-! ## Reading the past -/

/-- The past of a past is one, too. -/
theorem Orderly.older (h : Orderly w (newer ++ past) stage) : ∃ stage, Orderly w past stage := by
  induction newer generalizing stage with
  | nil => exact ⟨stage, h⟩
  | cons e newer ih =>
      cases h with
      | moment h _ => exact ih h

/-- The call is made once for each permit, and the latest permit may wait for its call. -/
theorem Orderly.countP_isCall (h : Orderly w past stage) :
    (past.filterMap CallMoment.ticket?).length =
      past.countP CallMoment.isCall + if stage matches .admitted .. then 1 else 0 := by
  induction h with
  | start => rfl
  | moment h hnext ih =>
      cases hnext <;>
        simp_all [List.filterMap_cons, List.countP_cons, CallMoment.ticket?, CallMoment.isCall]

/-- A call that is being made was just admitted. -/
theorem Orderly.of_calling (h : Orderly w past (.calling k permit)) :
    ∃ before, past = .called :: .granted k :: before := by
  cases h with
  | moment h hnext =>
      cases hnext
      cases h with
      | moment h hnext =>
          cases hnext
          exact ⟨_, rfl⟩

/-- An outcome that is owed is that of the attempt just finished. -/
theorem Orderly.of_owing (h : Orderly w past (.owing k permit failed)) :
    ∃ result before, past = .finished result :: .called :: .granted k :: before ∧
      failed = w.counts result := by
  cases h with
  | moment h hnext =>
      cases hnext
      obtain ⟨before, rfl⟩ := h.of_calling
      exact ⟨_, before, rfl, rfl⟩

/-- After an attempt is finished its outcome is owed, until it is recorded. -/
theorem Orderly.of_finished {result : Except Failure α}
    (h : Orderly w (.finished result :: past) stage) :
    ∃ k permit, stage = .owing k permit (w.counts result) ∧
      ∃ before, past = .called :: .granted k :: before := by
  cases h with
  | moment h hnext =>
      cases hnext with
      | finished k permit => exact ⟨k, permit, rfl, h.of_calling⟩

/-- What is recorded is the outcome of the attempt just finished, on its own permit. -/
theorem Orderly.of_recorded (h : Orderly w (.recorded k failed :: past) stage) :
    ∃ result before, past = .finished result :: .called :: .granted k :: before ∧
      failed = w.counts result := by
  cases h with
  | moment h hnext =>
      cases hnext
      exact h.of_owing

/-- A permit that is freed is that of the attempt that was running, and nothing follows. -/
theorem Orderly.of_freed (h : Orderly w (.freed k :: past) stage) :
    stage = .ended ∧ ∃ before, past = .dropped :: .called :: .granted k :: before := by
  cases h with
  | moment h hnext =>
      cases hnext
      cases h with
      | moment h hnext =>
          cases hnext
          obtain ⟨before, rfl⟩ := h.of_calling
          exact ⟨rfl, before, rfl⟩

/-- Nothing happens to a call that has ended. -/
theorem Orderly.nil_of_ended (hended : ∀ stage, Orderly w past stage → stage = .ended)
    (h : Orderly w (newer ++ past) stage) : newer = [] := by
  induction newer generalizing stage with
  | nil => rfl
  | cons e newer ih =>
      cases h with
      | moment h hnext =>
          -- Before its latest moment the call had ended, and no moment follows that.
          obtain rfl := ih h
          obtain rfl := hended _ h
          cases hnext

/-- All that follows a rejection is that the call returns it. -/
theorem Orderly.after_refused (h : Orderly w (newer ++ .refused remaining :: past) stage) :
    newer = [] ∧ stage = .refused remaining ∨
      newer = [.returned (.error (.circuitOpen remaining))] ∧ stage = .ended := by
  induction newer generalizing stage with
  | nil =>
      cases h with
      | moment h hnext =>
          cases hnext
          exact .inl ⟨rfl, rfl⟩
  | cons e newer ih =>
      cases h with
      | moment h hnext =>
          obtain ⟨rfl, rfl⟩ | ⟨-, rfl⟩ := ih h
          · cases hnext
            exact .inr ⟨rfl, rfl⟩
          · cases hnext

/-- An attempt that is over is paid for before anything else happens. -/
theorem Orderly.after_finished {result : Except Failure α}
    (h : Orderly w (newer ++ .finished result :: past) stage) :
    ∃ k before, past = .called :: .granted k :: before ∧
      (newer = [] ∧ stage.held? ≠ none ∨
        ∃ later, newer = later ++ [.recorded k (w.counts result)]) := by
  -- On what came later: its oldest moment is the payment, and stays there.
  induction newer generalizing stage with
  | nil =>
      obtain ⟨k, permit, rfl, before, rfl⟩ := h.of_finished
      exact ⟨k, before, rfl, .inl ⟨rfl, nofun⟩⟩
  | cons e newer ih =>
      cases h with
      | moment h hnext =>
          obtain ⟨k, before, rfl, ⟨rfl, -⟩ | ⟨later, rfl⟩⟩ := ih h
          · obtain ⟨k', permit, rfl, before', hpast⟩ := h.of_finished
            cases hpast
            cases hnext
            exact ⟨k, before, rfl, .inr ⟨[], rfl⟩⟩
          · exact ⟨k, before, rfl, .inr ⟨e :: later, rfl⟩⟩

/-- A call that is asleep, at its end or gone holds nothing. -/
theorem Accounted.held?_of_isAtRest (h : Accounted w s stage) (hrest : s.isAtRest = true) :
    stage.held? = none := by
  unfold isAtRest at hrest
  split at hrest
  · next htask => rw [h.gone htask]; rfl
  · next htask =>
    have hp := h.follows _ htask
    cases stage with
    | deciding | refused | ended => rfl
    | _ => exact hp.elim
  · next htask =>
    have hp := h.follows _ htask
    cases stage with
    | deciding | refused | ended => rfl
    | _ => exact hp.elim
  · cases hrest

/-- A call that was admitted is already being made. -/
theorem Accounted.ne_admitted (h : Accounted w s stage) : stage ≠ .admitted k permit := by
  rintro rfl
  cases htask : s.task with
  | none => cases h.gone htask
  | some p =>
      have hp := h.follows _ htask
      cases p with
      | done result => exact hp.elim
      | ask ask held resume => cases ask <;> exact hp.elim

/-- The call was made once for each permit it was granted. -/
theorem Accounted.countP_isCall (h : Accounted w s stage) :
    s.past.countP CallMoment.isCall = s.tickets.length := by
  have hcount := h.orderly.countP_isCall
  split at hcount
  · exact absurd rfl h.ne_admitted
  · exact hcount.symm

/-! ## The theorem -/

/-- However others use the circuit, however the attempts end and wherever the call is dropped:
the call is made once for each permit; an attempt that is over is paid for next, on its own
permit, and a permit is paid for only so; a rejection is all that is left to return; no permit of
a call that is asleep, at its end or gone is out; a permit freed by dropping an attempt is one
without an outcome. -/
theorem invoke_settles (w : Wrapper) (target : Nat) (c : Circuit) (acts : List (Act α)) :
    let s := (start w target c).run acts
    (s.past.countP CallMoment.isCall = s.tickets.length ∧ s.tickets.Nodup) ∧
      (∀ newer result older, s.past = newer ++ .finished result :: older →
        ∃ k before, older = .called :: .granted k :: before ∧
          (newer = [] ∧ s.isAtRest = false ∨
            ∃ later, newer = later ++ [.recorded k (w.counts result)])) ∧
      (∀ newer k failed older, s.past = newer ++ .recorded k failed :: older →
        ∃ result before, older = .finished result :: .called :: .granted k :: before ∧
          failed = w.counts result) ∧
      (∀ newer remaining older, s.past = newer ++ .refused remaining :: older →
        newer = [] ∨ newer = [.returned (.error (.circuitOpen remaining))]) ∧
      (s.isAtRest = true → ∀ k ∈ s.tickets, s.circuit.out? k = none) ∧
      (∀ newer k older, s.past = newer ++ .freed k :: older →
        newer = [] ∧ ∃ before, older = .dropped :: .called :: .granted k :: before) ∧
      ∀ service limit held resume, s.task = some (.ask (.call service limit) held resume) →
        ∃ k ∈ s.tickets, s.step .drop =
            ⟨s.circuit.step (.settle k none), none, .freed k :: .dropped :: s.past⟩ ∧
          (s.step .drop).circuit.out? k = none ∧
          (s.step .drop).circuit.breaker.phase.window? = s.circuit.breaker.phase.window? ∧
          (s.step .drop).circuit.breaker.generation = s.circuit.breaker.generation := by
  intro s
  obtain ⟨stage, h⟩ : ∃ stage, Accounted w s stage := (accounted_start w target c).run acts
  refine ⟨⟨h.countP_isCall, h.holds.nodup⟩, ?_, ?_, ?_, ?_, ?_, ?_⟩
  · intro newer result older hpast
    obtain ⟨k, before, rfl, ⟨rfl, hheld⟩ | hlater⟩ :=
      Orderly.after_finished
        (hpast ▸ h.orderly : Orderly w (newer ++ .finished result :: older) stage)
    · refine ⟨k, before, rfl, .inl ⟨rfl, ?_⟩⟩
      exact Bool.eq_false_iff.mpr fun hrest => hheld (h.held?_of_isAtRest hrest)
    · exact ⟨k, before, rfl, .inr hlater⟩
  · intro newer k failed older hpast
    obtain ⟨stage', h'⟩ :=
      Orderly.older (hpast ▸ h.orderly : Orderly w (newer ++ .recorded k failed :: older) stage)
    exact h'.of_recorded
  · intro newer remaining older hpast
    obtain ⟨hnewer, -⟩ | ⟨hnewer, -⟩ :=
      Orderly.after_refused
        (hpast ▸ h.orderly : Orderly w (newer ++ .refused remaining :: older) stage)
    · exact .inl hnewer
    · exact .inr hnewer
  · intro hrest k hk
    refine h.holds.others k hk ?_
    rw [h.held?_of_isAtRest hrest]
    nofun
  · intro newer k older hpast
    have hall : Orderly w (newer ++ .freed k :: older) stage := hpast ▸ h.orderly
    obtain ⟨stage', h'⟩ := hall.older
    exact ⟨hall.nil_of_ended fun _ h => h.of_freed.1, h'.of_freed.2⟩
  · intro service limit held resume htask
    have hp := h.follows _ htask
    cases stage with
    | calling k permit =>
        obtain ⟨hk, -⟩ := h.holds.out k permit rfl
        obtain ⟨hdrop, -⟩ := h.drop_calling htask
        rw [hdrop]
        exact ⟨k, hk, rfl, Circuit.out?_step_settle_self _ k none,
          Circuit.window?_step_drop s.circuit k⟩
    | _ => exact hp.elim

end FlowControl.GuardedCall
