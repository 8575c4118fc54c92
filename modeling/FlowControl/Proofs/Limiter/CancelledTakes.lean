import FlowControl.Proofs.Limiter.TakeAccounts

/-!
# A take that is cancelled leaves no half state

A take may be dropped wherever it is suspended: while it waits for a lock that another holds, at
each of its store calls, and while its release is pending.  Whatever it holds there is given up by
a job in the background.  Once that job has deleted the token, the token is gone from the lock;
a lock that another token holds is never touched, not even by a job that comes so late that the
lock has expired and was taken over.

What the take has stored by then is nothing, or what it leaves of the state it loaded, which is all
that it stores if it is not cancelled.
-/

namespace FlowControl

open Limiter

namespace Bucket

variable {ι : Type} [DecidableEq ι] {b : Bucket} {token : String} {n : UInt64} {i : ι} {m₀ : Memory}
  {f : Fleet ι (Except LimitError Unit)} {held : List Guard} {stage : TakeStage}

/-- A suspended take is outside and holds nothing, or it holds its guard; it has stored nothing, or
what it leaves of the state it loaded. -/
theorem Stands.suspended (h : Stands b token n i m₀ f stage) (hheld : f.suspended? i = some held) :
    ((held = [] ∧ stage = .outside) ∨ held = [b.guardOf token]) ∧
      (storesOf i b.key.stateKey f.past = [] ∨
        ∃ now state, stage = .owing (.stored now state)) := by
  obtain ⟨p, hp, hproceeds⟩ := h.task
  obtain ⟨ask, resume, htask, hask⟩ := Fleet.task_of_suspended? hheld
  cases hp.symm.trans htask
  have hin := hproceeds.held_eq
  cases stage with
  | outside => exact ⟨.inl ⟨hin, rfl⟩, .inl h.account⟩
  | entered => exact ⟨.inr hin, .inl h.account⟩
  | clocked now => exact ⟨.inr hin, .inl h.account.2⟩
  | loaded now state => exact ⟨.inr hin, .inl h.account.2⟩
  | owing outcome =>
      cases outcome with
      | failed error => exact ⟨.inr hin, .inl h.account.2⟩
      | stored now state => exact ⟨.inr hin, .inr ⟨now, state, rfl⟩⟩
  | finished outcome =>
      -- What is left then are reports, at which a take is not suspended.
      rcases hask with ⟨c, rfl⟩ | ⟨length, rfl⟩
      · cases c <;> exact hproceeds.elim
      · exact hproceeds.elim

/-- A take that has stored once stores nothing more, however it goes on. -/
theorem Stands.storesOf_run {result : Except LimitError Unit} {more : List (Act ι)}
    (h : Stands b token n i m₀ f stage) (hstored : storesOf i b.key.stateKey f.past ≠ [])
    (hresult : (f.run more).result? i = some result) :
    storesOf i b.key.stateKey (f.run more).past = storesOf i b.key.stateKey f.past := by
  obtain ⟨newer, hpast, -⟩ := f.exists_newer_run more i
  rcases h.run more with hnone | ⟨stage', hstands⟩
  · cases hnone.symm.trans (Fleet.task_of_result? hresult)
  · have hlength := hstands.account.length_storesOf_le_one
    have hbefore := List.length_pos_iff.mpr hstored
    rw [hpast, storesOf_append] at hlength ⊢
    rw [List.length_append] at hlength
    rw [List.eq_nil_of_length_eq_zero (by omega : (storesOf i b.key.stateKey newer).length = 0)]
    rfl

/-- A suspended take has stored nothing, or just what every way to complete it stores. -/
theorem Stands.stored_suspended (h : Stands b token n i m₀ f stage)
    (hheld : f.suspended? i = some held) :
    storesOf i b.key.stateKey f.past = [] ∨
      (∃ now state, b.HasRead i f.past now state ∧
        b.HasStored i f.past (leftOf (b.refilled state now) n)) ∧
      ∀ more result, (f.run more).result? i = some result →
        storesOf i b.key.stateKey (f.run more).past = storesOf i b.key.stateKey f.past := by
  rcases (h.suspended hheld).2 with hnone | ⟨now, state, rfl⟩
  · exact .inl hnone
  · obtain ⟨hread, hstored⟩ := h.account
    refine .inr ⟨⟨now, state, hread, hstored⟩, fun more result => h.storesOf_run ?_⟩
    obtain ⟨_, -, -, -, hsingle⟩ := hstored
    rw [hsingle]
    exact List.cons_ne_nil _ _

/-- After a take is dropped where it is suspended, its token is gone once a delete of it was
answered, and if the take held nothing, at once. -/
theorem Stands.isGone_dropped {newer : List (Moment ι)} {m : Memory}
    (h : Stands b token n i m₀ f stage) (hheld : f.suspended? i = some held)
    (hlinked : Linked f.memory newer m) (hothers : ∀ e ∈ newer, e.party ≠ some i)
    (hfresh : (b.guardOf token).IsGone m₀)
    (hleaves : ∀ e ∈ newer ++ f.past, e.party ≠ some i → Leaves (b.guardOf token) e.ask)
    (hfreed : held = [] ∨ ∃ e ∈ newer, e.freed? = some (b.guardOf token)) :
    (b.guardOf token).IsGone m := by
  obtain ⟨hlater, hearlier⟩ := List.forall_mem_append.mp hleaves
  refine Guard.isGone_of_linked hlinked (fun e he => hlater e he (hothers e he)) ?_
  rcases (h.suspended hheld).1 with ⟨-, rfl⟩ | hguard
  · exact .inl (h.lock hfresh hearlier)
  · exact .inr (hfreed.resolve_left fun hnone => nomatch hguard.symm.trans hnone)

/-- A take that is cancelled where it is suspended leaves no half state.  It hands its guard, if it
holds one, to a job in the background; once such a job has deleted the token, the token is not in
the lock.  Locks of other tokens are not touched by the take, nor by a late delete of its token.
What it has stored is nothing, or what it leaves of the state it loaded, and then every way to
complete it stores just that; if nobody else writes there, the key of the state holds it, or
the entry from before, until that expires. -/
theorem cancelled_take_leaves_no_half_state (b : Bucket) (token : String) (n : UInt64)
    (m₀ : Memory) (program : ι → Program (Except LimitError Unit)) (i : ι)
    (hprogram : program i = b.take token n) (before later : List (Act ι)) (held : List Guard) :
    let f := (Fleet.start m₀ program).run before
    let g := (f.step (.drop i)).run later
    let stored := storesOf i b.key.stateKey g.past
    f.suspended? i = some held →
    ((f.step (.drop i)).jobs = f.jobs ++ held.map giveUp ∧
      (held = [] ∨ held = [b.guardOf token])) ∧
    ((b.guardOf token).IsGone m₀ →
      (∀ e ∈ g.past, e.party ≠ some i → Leaves (b.guardOf token) e.ask) →
      (held = [] ∨ ∃ newer, g.past = newer ++ f.past ∧
        ∃ e ∈ newer, e.party = none ∧ e.freed? = some (b.guardOf token)) →
      (b.guardOf token).IsGone g.memory) ∧
    (∀ e ∈ g.past, e.party = some i ∨ e.ask = b.lockRelease token → ∀ other, other ≠ token →
      e.before.live? b.key.lockKey e.reading = some other →
      e.after.find? b.key.lockKey = e.before.find? b.key.lockKey) ∧
    (stored = [] ∨
      (∃ now state, b.HasRead i f.past now state ∧
        b.HasStored i g.past (leftOf (b.refilled state now) n)) ∧
      ∀ more result, (f.run more).result? i = some result →
        storesOf i b.key.stateKey (f.run more).past = stored) ∧
    ((∀ e ∈ g.past, e.Writes b.key.stateKey → e.party = some i) →
      Remains b.key.stateKey (stored.head?.or (m₀.find? b.key.stateKey)) g.past g.memory) := by
  intro f g stored hsuspended
  obtain ⟨ask, resume, htask, -⟩ := Fleet.task_of_suspended? hsuspended
  have hdrop : f.step (.drop i) = (f.setTask i none).giveUp held := Fleet.step_drop_ask htask
  -- After the drop the take asks nothing, so it stores nothing more.
  obtain ⟨newer, hpast, hlinked, hgone⟩ := (f.step (.drop i)).exists_newer_run later i
  obtain ⟨-, hothers⟩ := hgone (by rw [hdrop]; exact if_pos rfl)
  replace hpast : g.past = newer ++ f.past := by rw [hpast, Fleet.past_step_drop]
  rw [Fleet.memory_step_drop] at hlinked
  have hrun : g = (Fleet.start m₀ program).run (before ++ .drop i :: later) := by
    rw [Fleet.run_append, Fleet.run_cons]
  rcases (stands_start hprogram).run before with hnone | ⟨stage, hstands⟩
  · cases hnone.symm.trans htask
  refine ⟨⟨by rw [hdrop]; rfl, (hstands.suspended hsuspended).1.imp_left And.left⟩, ?_, ?_, ?_, ?_⟩
  · intro hfresh hleaves hfreed
    rw [hpast] at hleaves
    refine hstands.isGone_dropped hsuspended hlinked hothers hfresh hleaves (hfreed.imp_right ?_)
    rintro ⟨newer', hpast', e, he, -, hfreed⟩
    rw [List.append_cancel_right (hpast'.symm.trans hpast)] at he
    exact ⟨e, he, hfreed⟩
  · intro e he hask other hother hheld
    rw [hrun] at he
    have hanswered : e.Answered :=
      (Fleet.linked_run (f := Fleet.start m₀ program) rfl).answered e he
    refine find?_lock_of_takeAsk (hask.elim (takeAsk_of_party hprogram _ he) fun hrelease => ?_)
      hanswered hother hheld
    rw [hrelease]
    exact .inl ⟨rfl, rfl⟩
  · have hsame : stored = storesOf i b.key.stateKey f.past := by
      show storesOf i b.key.stateKey g.past = _
      rw [hpast, storesOf_append_of_others hothers]
    rw [hsame, hpast]
    refine (hstands.stored_suspended hsuspended).imp_right ?_
    rintro ⟨⟨now, state, hread, hstored⟩, hcomplete⟩
    exact ⟨⟨now, state, hread, hstored.append hothers⟩, hcomplete⟩
  · show _ → Remains _ ((storesOf i _ g.past).head?.or _) g.past g.memory
    rw [hrun]
    exact remains_run hprogram _

/-- A take that is dropped while its release is pending.  The job in the background comes when the
lock has expired and another take has got it: the other take keeps the lock. -/
theorem cancelled_take_leaves_no_half_state_late_job :
    let b : Bucket := ⟨⟨"svc", "caller", "GET", "/movies"⟩, .standard⟩
    let token (first : Bool) := if first then "first" else "second"
    let before : List (Act Bool) :=
      [.go true 1000, .go true 1000, .go true 1000, .go true 1001, .go true 1002]
    let later : List (Act Bool) := [.go false 3500, .job 0 3600]
    let f := (Fleet.start .empty fun i => b.take (token i) 1).run before
    let g := (f.step (.drop true)).run later
    f.suspended? true = some [b.guardOf "first"] ∧
      (b.guardOf "first").IsGone g.memory ∧
      g.memory.live? b.key.lockKey 3600 = some "second" ∧
      (storesOf true b.key.stateKey g.past).length = 1 ∧
      Remains b.key.stateKey (storesOf true b.key.stateKey g.past).head? g.past g.memory := by
  intro b token before later f g
  have hsuspended : f.suspended? true = some [b.guardOf "first"] := by decide +kernel
  obtain ⟨-, hlock, -, -, hstate⟩ := cancelled_take_leaves_no_half_state b "first" 1 .empty
    (fun i => b.take (token i) 1) true rfl before later [b.guardOf "first"] hsuspended
  have hleaves : ∀ e ∈ g.past, e.party ≠ some true → Leaves (b.guardOf "first") e.ask := by
    have hrun : g = (Fleet.start .empty fun i => b.take (token i) 1).run
        (before ++ .drop true :: later) := by
      rw [Fleet.run_append, Fleet.run_cons]
    intro e he
    rw [hrun] at he
    refine leaves_of_others (fun second hsecond => ?_) _ he
    obtain rfl : second = false := (Bool.not_eq_true second).mp hsecond
    exact ⟨b, "second", 1, rfl, by decide, b.key.lockKey_ne_stateKey.symm⟩
  -- Before the drop there was no job, so the delete of the job came after it.
  have hearlier : ∀ e ∈ f.past, e.party ≠ none := by decide +kernel
  have hjob : ∃ e ∈ g.past, e.party = none ∧ e.freed? = some (b.guardOf "first") := by
    decide +kernel
  obtain ⟨newer, hpast, -⟩ := (f.step (.drop true)).exists_newer_run later true
  rw [Fleet.past_step_drop] at hpast
  obtain ⟨e, he, hnobody, hfreed⟩ := hjob
  have hnewer : e ∈ newer := by
    rw [hpast] at he
    exact (List.mem_append.mp he).resolve_right fun he => hearlier e he hnobody
  refine ⟨hsuspended, ?_, by decide +kernel, by decide +kernel, ?_⟩
  · exact hlock nofun hleaves (.inr ⟨newer, hpast, e, hnewer, hnobody, hfreed⟩)
  · have hremains := hstate (by decide +kernel)
    rwa [show Memory.empty.find? b.key.stateKey = none from rfl, Option.or_none] at hremains

end Bucket

end FlowControl
