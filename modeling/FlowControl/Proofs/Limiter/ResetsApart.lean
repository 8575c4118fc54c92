import FlowControl.Proofs.Limiter.Linearizable
import FlowControl.Proofs.Limiter.VisitHistory

/-!
# Resets beside takes

A reset stores the state and deletes the lock without having the lock.  If every holder of
the lock is timely, and no reset stores or deletes while somebody holds it, then nothing is
stored between what a take has read and what it stores, so that takes and resets are those
of some order in which they are made one after another.

Otherwise they need not be: a take stores what it leaves of the state it has read, whatever
was stored since.  A reset in between is undone (`reset_undone`), although the take has the
lock all the time it needs.  Nothing is said about takes that never get the lock, beyond that
they have no place in the order.
-/

namespace FlowControl

open Limiter

/-- Questions that write or delete whatever is stored. -/
def Limiter.overwrites : Ask → Bool
  | .store (.set ..) | .store (.delete _) => true
  | _ => false

/-- Does no token that was granted hold its lock? -/
def Unheld {ι : Type} (ttl : Duration) (past : List (Moment ι)) (t : UInt64) : Prop :=
  ∀ e ∈ past, ∀ g ∈ e.grant?, ¬ Holds g ttl past t

instance {ι : Type} {ttl : Duration} {past : List (Moment ι)} {t : UInt64} :
    Decidable (Unheld ttl past t) :=
  inferInstanceAs (Decidable (∀ e ∈ past, ∀ g ∈ e.grant?, ¬ Holds g ttl past t))

theorem Unheld.not_holds {ι : Type} {g : Guard} {ttl : Duration} {past : List (Moment ι)}
    {t : UInt64} (h : Unheld ttl past t) : ¬ Holds g ttl past t := by
  rintro ⟨newer, e, older, rfl, hgrant, hlate, hkept⟩
  exact h e (List.mem_append_right _ List.mem_cons_self) g hgrant
    ⟨newer, e, older, rfl, hgrant, hlate, hkept⟩

namespace Bucket

variable {ι : Type} [DecidableEq ι] {b : Bucket} {purpose : ι → Use} {m₀ m : Memory}
  {past newer older : List (Moment ι)} {stages : ι → VisitStage} {e : Moment ι} {i j : ι}
  {u : Use} {stage stage' : VisitStage} {r t : UInt64} {ask : Ask} {token : String} {n : UInt64}
  {state : Option TokenState}

/-- Has the party settled nothing so far, and has its token had the lock without being released
since?  Time is not looked at. -/
def InsideLock (b : Bucket) (i : ι) (token : String) (past : List (Moment ι)) : Prop :=
  (∀ d ∈ past, d.party = some i → ¬ Settles d.ask) ∧
    Since (fun e => e.party = some i ∧ e.grant? = some ⟨b.key.lockKey, token⟩)
      (fun d => d.freed? ≠ some ⟨b.key.lockKey, token⟩) past

/-- Has the party read a state while it was inside, and neither settled anything nor been released
since? -/
def LoadedInside (b : Bucket) (i : ι) (token : String) (state : Option TokenState) :
    List (Moment ι) → Prop
  | [] => False
  | e :: older =>
    ((e.party = some i → ¬ Settles e.ask) ∧ e.freed? ≠ some ⟨b.key.lockKey, token⟩) ∧
      ((e.party = some i ∧ isLoad e.ask = true ∧
          b.reads (e.before.live? b.key.stateKey e.reading) = .ok state ∧
          b.InsideLock i token older) ∨
        b.LoadedInside i token state older)

/-- Does every take store what it leaves of a state that it has read inside? -/
def Guarded (b : Bucket) (purpose : ι → Use) : List (Moment ι) → Prop
  | [] => True
  | e :: older => (∀ i token n, e.party = some i → purpose i = .take token n →
      e.Saves b.key.stateKey → ∃ now state, b.LoadedInside i token state older ∧
        e.ask = .store (.set b.key.stateKey (b.settle now state (purpose i)).2.encode
          b.config.stateTtl)) ∧ b.Guarded purpose older

/-- Does no reset store the state or delete the lock while somebody holds the lock? -/
def Apart (b : Bucket) (purpose : ι → Use) : List (Moment ι) → Prop
  | [] => True
  | e :: older => (∀ i ∈ e.party, purpose i = .reset → overwrites e.ask = true →
      Unheld b.config.lock.ttl older e.reading) ∧ b.Apart purpose older

instance decidableApart : (past : List (Moment ι)) → Decidable (b.Apart purpose past)
  | [] => .isTrue trivial
  | _ :: older =>
    have := decidableApart older
    inferInstanceAs (Decidable (_ ∧ b.Apart purpose older))

/-- Are the tokens of takes their own? -/
def OwnTokens (purpose : ι → Use) : Prop :=
  ∀ i j token n n', purpose i = .take token n → purpose j = .take token n' → i = j

/-! ## What a history says about the lock -/

theorem History.linked (h : History b purpose m₀ past stages m) : Linked m₀ past m := by
  induction h with
  | start => rfl
  | moved h hreached hmoves ih => exact ⟨rfl, ⟨_, _, _, _, rfl⟩, ih⟩

theorem History.inOrder (h : History b purpose m₀ past stages m) : Moment.InOrder past := by
  induction h with
  | start => trivial
  | moved h hreached hmoves ih => exact ⟨hreached, ih⟩

omit [DecidableEq ι] in
/-- Only resets delete the lock outright. -/
theorem Moves.lockAsk (hmoves : Moves b u e stage stage') :
    LockAsk b.key.lockKey b.config.lock.ttl e.ask ∨
      u = .reset ∧ e.ask = .store (.delete b.key.lockKey) := by
  have hne := b.key.lockKey_ne_stateKey.symm
  cases hmoves with
  | waits hu hask =>
      refine .inl ?_
      rcases hask with ⟨length, hask⟩ | ⟨event, hask⟩ | hask
      · rw [hask]; trivial
      · rw [hask]; trivial
      · rw [hask]; exact fun _ => rfl
  | enters hu hask => exact .inl (by rw [hask]; exact fun _ => rfl)
  | notes hask | clocks hask | loads hu hask | frees hu hask =>
      exact .inl (by rw [hask]; trivial)
  | saves now state hask => exact .inl (by rw [hask]; exact hne)
  | clears hu hask => exact .inr ⟨hu, hask⟩

omit [DecidableEq ι] in
/-- Only a take releases its token. -/
theorem Moves.freed? (hmoves : Moves b u e stage stage') {g : Guard} (hfreed : e.freed? = some g) :
    ∃ n, u = .take g.token n := by
  have hask := Moment.ask_of_freed? hfreed
  cases hmoves with
  | frees hu hask' =>
      have hsame := hask'.symm.trans hask
      obtain ⟨-, rfl⟩ := StoreCall.deleteIfEqual.inj (Ask.store.inj hsame)
      exact ⟨_, hu⟩
  | waits hu hask' =>
      rcases hask' with ⟨length, hask'⟩ | ⟨event, hask'⟩ | hask' <;>
        exact absurd (hask'.symm.trans hask) nofun
  | enters hu hask' | notes hask' | clocks hask' | loads hu hask' | saves now state hask'
  | clears hu hask' => exact absurd (hask'.symm.trans hask) nofun

/-! ## Inside the lock -/

omit [DecidableEq ι] in
theorem InsideLock.cons (h : b.InsideLock i token past)
    (hsettles : e.party = some i → ¬ Settles e.ask)
    (hfreed : e.freed? ≠ some ⟨b.key.lockKey, token⟩) : b.InsideLock i token (e :: past) :=
  ⟨List.forall_mem_cons.mpr ⟨hsettles, h.1⟩, since_cons.mpr (.inr ⟨hfreed, h.2⟩)⟩

omit [DecidableEq ι] in
theorem LoadedInside.inside (h : b.LoadedInside i token state past) :
    b.InsideLock i token past := by
  induction past with
  | nil => exact h.elim
  | cons e older ih =>
      obtain ⟨⟨hsettles, hfreed⟩, ⟨-, -, -, hinside⟩ | hloaded⟩ := h
      · exact hinside.cons hsettles hfreed
      · exact (ih hloaded).cons hsettles hfreed

/-- Where a take stands with the lock, in a stage. -/
def Locked (b : Bucket) (i : ι) (token : String) (past : List (Moment ι)) : VisitStage → Prop
  | .outside => ∀ d ∈ past, d.party = some i → ¬ Settles d.ask
  | .entered | .clocked _ => b.InsideLock i token past
  | .loaded _ state => b.LoadedInside i token state past
  | .settled _ => True

omit [DecidableEq ι] in
theorem Locked.cons (h : b.Locked i token past stage)
    (hsettles : e.party = some i → ¬ Settles e.ask)
    (hfreed : e.freed? ≠ some ⟨b.key.lockKey, token⟩) : b.Locked i token (e :: past) stage := by
  cases stage with
  | outside => exact List.forall_mem_cons.mpr ⟨hsettles, h⟩
  | entered | clocked now => exact InsideLock.cons h hsettles hfreed
  | loaded now state => exact ⟨⟨hsettles, hfreed⟩, .inr h⟩
  | settled result => trivial

omit [DecidableEq ι] in
/-- What settles nothing leaves a take where it is. -/
theorem Locked.passes (h : b.Locked i token past stage) (hsettles : ¬ Settles e.ask) :
    b.Locked i token (e :: past) stage := by
  refine h.cons (fun _ => hsettles) fun hfreed => hsettles ?_
  rw [Moment.ask_of_freed? hfreed]
  trivial

omit [DecidableEq ι] in
/-- A take moves on with its lock. -/
theorem Locked.moves (h : b.Locked i token past stage) (hparty : e.party = some i)
    (hmoves : Moves b (.take token n) e stage stage') : b.Locked i token (e :: past) stage' := by
  cases hmoves with
  | waits hu hask =>
      refine h.passes ?_
      rcases hask with ⟨length, hask⟩ | ⟨event, hask⟩ | hask
      · rw [hask]; exact id
      · rw [hask]; exact id
      · rw [hask]; exact id
  | enters hu hask hgrant =>
      obtain ⟨rfl, -⟩ := Use.take.inj hu
      refine ⟨List.forall_mem_cons.mpr ⟨fun _ => ?_, h⟩, since_cons.mpr (.inl ⟨hparty, hgrant⟩)⟩
      rw [hask]
      exact id
  | notes hask => exact h.passes (by rw [hask]; exact id)
  | clocks hask =>
      have hclocked : b.Locked i token past (.clocked e.reading) := h
      exact hclocked.passes (by rw [hask]; exact id)
  | loads hu hask now =>
      have hpasses : b.Locked i token (e :: past) (.clocked now) :=
        h.passes (by rw [hask]; exact id)
      cases hread : b.reads (e.before.live? b.key.stateKey e.reading) with
      | error error => trivial
      | ok state =>
          refine ⟨⟨hpasses.1 e List.mem_cons_self, fun hfreed => ?_⟩, .inl ⟨hparty, ?_, hread, h⟩⟩
          · exact absurd (hask.symm.trans (Moment.ask_of_freed? hfreed)) nofun
          · rw [hask]
            rfl
  | saves | frees | clears => trivial

/-- Every take stands with the lock as its stage says. -/
theorem History.locked (h : History b purpose m₀ past stages m) (htokens : OwnTokens purpose)
    (hpurpose : purpose i = .take token n) : b.Locked i token past (stages i) := by
  induction h with
  | start =>
      simp only [hpurpose]
      exact fun d hd => absurd hd List.not_mem_nil
  | @moved past stages m j r ask stage h hreached hmoves ih =>
      by_cases hij : i = j
      · subst hij
        rw [hpurpose] at hmoves
        simp only [if_pos]
        exact ih.moves rfl hmoves
      · -- Another party settles its own use, and releases no token but its own.
        simp only [if_neg hij]
        refine ih.cons (fun hparty => absurd (Option.some.inj hparty).symm hij) fun hfreed => hij ?_
        obtain ⟨n', hpurpose'⟩ := hmoves.freed? hfreed
        exact htokens i j token n n' hpurpose hpurpose'

omit [DecidableEq ι] in
/-- Only a use that has read a state, or is a reset, stores one. -/
theorem Moves.stage_of_saves (hmoves : Moves b u e stage stage') (hsaves : e.Saves b.key.stateKey) :
    ∃ now state, stage = .loaded now state ∧
      e.ask = .store (.set b.key.stateKey (b.settle now state u).2.encode b.config.stateTtl) := by
  obtain ⟨text, ttl, hset⟩ := hsaves
  cases hmoves with
  | saves now state hask => exact ⟨now, state, rfl, hask⟩
  | waits hu hask =>
      rcases hask with ⟨length, hask⟩ | ⟨event, hask⟩ | hask <;>
        exact absurd (hask.symm.trans hset) nofun
  | enters hu hask | notes hask | clocks hask | loads hu hask | frees hu hask | clears hu hask =>
      exact absurd (hask.symm.trans hset) nofun

/-- What a take stores is what it leaves of the state that it read under its lock. -/
theorem History.guarded (h : History b purpose m₀ past stages m) (htokens : OwnTokens purpose) :
    b.Guarded purpose past := by
  induction h with
  | start => trivial
  | @moved past stages m j r ask stage h hreached hmoves ih =>
      refine ⟨?_, ih⟩
      rintro i token n ⟨⟩ hpurpose hsaves
      obtain ⟨now, state, hstage, hask⟩ := hmoves.stage_of_saves hsaves
      have hlocked := h.locked htokens hpurpose
      rw [hstage] at hlocked
      exact ⟨now, state, hlocked, hask⟩

/-! ## Who holds the lock -/

omit [DecidableEq ι] in
theorem mem_of_mem_recent {d : Moment ι} (h : d ∈ newer ++ [e]) : d ∈ newer ++ e :: older := by
  rcases List.mem_append.mp h with h | h
  · exact List.mem_append_left _ h
  · rw [List.mem_singleton.mp h]
    exact List.mem_append_right _ List.mem_cons_self

omit [DecidableEq ι] in
/-- What is recent in a past leads from the store that its oldest moment met. -/
theorem linked_recent (h : Linked m₀ (newer ++ e :: older) m) :
    Linked e.before (newer ++ [e]) m := by
  induction newer generalizing m with
  | nil => exact ⟨h.1, h.2.1, rfl⟩
  | cons d newer ih => exact ⟨h.1, h.2.1, ih h.2.2⟩

omit [DecidableEq ι] in
theorem inOrder_recent (h : Moment.InOrder (newer ++ e :: older)) :
    Moment.InOrder (newer ++ [e]) := by
  induction newer with
  | nil => exact ⟨fun d hd => absurd hd List.not_mem_nil, trivial⟩
  | cons d newer ih => exact ⟨fun c hc => h.1 c (mem_of_mem_recent hc), ih h.2⟩

/-- Every moment treats the lock's key as a lock, if it is not a reset's delete. -/
theorem History.lockAsk (h : History b purpose m₀ past stages m) (he : e ∈ past) :
    LockAsk b.key.lockKey b.config.lock.ttl e.ask ∨
      ∃ i, e.party = some i ∧ purpose i = .reset ∧ e.ask = .store (.delete b.key.lockKey) := by
  induction h with
  | start => exact absurd he List.not_mem_nil
  | moved h hreached hmoves ih =>
      rcases List.mem_cons.mp he with rfl | he
      · exact hmoves.lockAsk.imp_right fun hreset => ⟨_, rfl, hreset⟩
      · exact ih he

omit [DecidableEq ι] in
theorem Apart.suffix (h : b.Apart purpose (newer ++ past)) : b.Apart purpose past := by
  induction newer with
  | nil => exact h
  | cons d newer ih => exact ih h.2

/-- Since a lock that is held was granted, its key was treated as a lock by everybody. -/
theorem History.lockPast_recent {g : Guard}
    (h : History b purpose m₀ (newer ++ e :: older) stages m)
    (hclock : ∀ d ∈ newer ++ e :: older,
      d.reading.toNat + b.config.lock.ttl.millis < Word.size)
    (hapart : b.Apart purpose (newer ++ e :: older)) (hreached : Reached (newer ++ e :: older) t)
    (hgrant : e.grant? = some g) (hlate : t.toNat < e.reading.toNat + b.config.lock.ttl.millis)
    (hkept : ∀ d ∈ newer, d.freed? ≠ some g) :
    LockPast b.key.lockKey b.config.lock.ttl e.before (newer ++ [e]) m := by
  refine ⟨linked_recent h.linked, inOrder_recent h.inOrder, fun d hd => ?_,
    fun d hd => hclock d (mem_of_mem_recent hd)⟩
  rcases h.lockAsk (mem_of_mem_recent hd) with hask | ⟨i, hparty, hreset, hask⟩
  · exact hask
  rcases List.mem_append.mp hd with hd | hd
  · -- The lock was held since it was granted, so no reset can have deleted it.
    obtain ⟨after, between, rfl⟩ := List.append_of_mem hd
    have hearlier := UInt64.le_iff_toNat_le.mp (hreached d (List.mem_append_left _ hd))
    have hheld : Holds g b.config.lock.ttl (between ++ e :: older) d.reading :=
      ⟨between, e, older, rfl, hgrant, by omega, fun c hc => hkept c (by simp [hc])⟩
    rw [List.append_assoc] at hapart
    exact absurd hheld (hapart.suffix.1 i hparty hreset (by rw [hask]; rfl)).not_holds
  · obtain ⟨life, hask'⟩ := Moment.ask_of_grant? hgrant
    rw [List.mem_singleton.mp hd] at hask
    exact absurd (hask.symm.trans hask') nofun

/-- Whoever holds the lock has its token stored, if no reset deletes a lock that is held. -/
theorem History.live?_of_holds (h : History b purpose m₀ past stages m)
    (hclock : ∀ e ∈ past, e.reading.toNat + b.config.lock.ttl.millis < Word.size)
    (hapart : b.Apart purpose past) (hreached : Reached past t)
    (hholds : Holds ⟨b.key.lockKey, token⟩ b.config.lock.ttl past t) :
    m.live? b.key.lockKey t = some token := by
  obtain ⟨newer, e, older, rfl, hgrant, hlate, hkept⟩ := hholds
  have hpast := h.lockPast_recent hclock hapart hreached hgrant hlate hkept
  have hheld : Holds ⟨b.key.lockKey, token⟩ b.config.lock.ttl (newer ++ [e]) t :=
    ⟨newer, e, [], rfl, hgrant, hlate, hkept⟩
  exact hpast.live?_of_holds (g := ⟨b.key.lockKey, token⟩)
    (fun d hd => hreached d (mem_of_mem_recent hd)) hheld

omit [DecidableEq ι] in
/-- Who has settled nothing is in time. -/
theorem Timely.early (htimely : Timely b (e :: past))
    (hunsettled : ∀ d ∈ past, d.party = some i → ¬ Settles d.ask) {g : Moment ι} (hg : g ∈ past)
    (hparty : g.party = some i) (hgrant : g.grant? ≠ none) :
    e.reading.toNat < g.reading.toNat + b.config.lock.ttl.millis := by
  by_contra hlate
  obtain ⟨d, hd, hdparty, hsettles, hearly⟩ := htimely g (List.mem_cons_of_mem _ hg) i hparty
    hgrant e List.mem_cons_self (Nat.not_lt.mp hlate)
  rcases List.mem_cons.mp hd with rfl | hd
  · exact hlate hearly
  · exact hunsettled d hd hdparty hsettles

omit [DecidableEq ι] in
/-- A timely take that is inside holds the lock. -/
theorem InsideLock.holds (h : b.InsideLock i token past) (htimely : Timely b (e :: past)) :
    Holds ⟨b.key.lockKey, token⟩ b.config.lock.ttl past e.reading := by
  obtain ⟨hunsettled, newer, g, older, rfl, ⟨hparty, hgrant⟩, hkept⟩ := h
  refine ⟨newer, g, older, rfl, hgrant, ?_, hkept⟩
  exact htimely.early hunsettled (List.mem_append_right _ List.mem_cons_self) hparty
    (by rw [hgrant]; nofun)

/-! ## Nothing is stored while a take is inside -/

omit [DecidableEq ι] in
theorem settles_of_saves {key : String} (h : e.Saves key) : Settles e.ask := by
  obtain ⟨text, ttl, hset⟩ := h
  rw [hset]
  trivial

/-- Nothing was stored since a take that is inside has read the state. -/
theorem History.fresh (h : History b purpose m₀ past stages m) (htokens : OwnTokens purpose)
    (hclock : ∀ e ∈ past, e.reading.toNat + b.config.lock.ttl.millis < Word.size)
    (htimely : Timely b past) (hapart : b.Apart purpose past) (hpurpose : purpose i = .take token n)
    (hloaded : b.LoadedInside i token state past) : b.Fresh i past := by
  -- On the history: whoever moved last since the take has read, it was not to store.
  induction h with
  | start => exact hloaded.elim
  | @moved past stages m j r ask stage h hreached hmoves ih =>
      have hguarded := (h.moved hreached hmoves).guarded htokens
      obtain ⟨⟨hunsettled, -⟩, ⟨hparty, hload, -⟩ | hbefore⟩ := hloaded
      · exact .inl ⟨hparty, hload⟩
      · have hclock' := fun d hd => hclock d (List.mem_cons_of_mem _ hd)
        refine .inr ⟨fun hsaves => ?_, ih hclock' (htimely.tail hreached) hapart.2 hbefore⟩
        have hholds := hbefore.inside.holds htimely
        cases hother : purpose j with
        | reset =>
            -- The take holds the lock, so the reset would not keep apart.
            obtain ⟨text, ttl, hset⟩ := hsaves
            exact (hapart.1 j rfl hother (by rw [hset]; rfl)).not_holds hholds
        | take token' n' =>
            -- The other take would be inside as well, but the lock shows one token only.
            obtain ⟨now, state', hloaded', -⟩ := hguarded.1 j token' n' rfl hother hsaves
            have hholds' := hloaded'.inside.holds htimely
            have hlive := h.live?_of_holds hclock' hapart.2 hreached hholds
            have hlive' := h.live?_of_holds hclock' hapart.2 hreached hholds'
            obtain rfl : token' = token := Option.some.inj (hlive'.symm.trans hlive)
            obtain rfl : i = j := htokens i j token' n n' hpurpose hother
            exact hunsettled rfl (settles_of_saves hsaves)

/-- If holders are timely and resets keep apart from them, no take is disturbed. -/
theorem History.undisturbed (h : History b purpose m₀ past stages m) (htokens : OwnTokens purpose)
    (hclock : ∀ e ∈ past, e.reading.toNat + b.config.lock.ttl.millis < Word.size)
    (htimely : Timely b past) (hapart : b.Apart purpose past) : b.Undisturbed purpose past := by
  induction h with
  | start => trivial
  | @moved past stages m j r ask stage h hreached hmoves ih =>
      have hguarded := (h.moved hreached hmoves).guarded htokens
      have hclock' := fun d hd => hclock d (List.mem_cons_of_mem _ hd)
      refine ⟨fun i hparty hu hsaves => ?_, ih hclock' (htimely.tail hreached) hapart.2⟩
      cases hpurpose : purpose i with
      | reset => exact absurd hpurpose hu
      | take token n =>
          obtain ⟨now, state, hloaded, -⟩ := hguarded.1 i token n hparty hpurpose hsaves
          exact h.fresh htokens hclock' (htimely.tail hreached) hapart.2 hpurpose hloaded

/-- A use that is done has its place among the uses, or never got the lock. -/
theorem Beside.done (h : Beside b purpose m₀ past stages m) {result : Except LimitError Unit}
    (hvisits : b.Visits (purpose i) (stages i) (.done result)) :
    (i, result) ∈ (b.played purpose m₀ past).1 ∨
      (∀ e ∈ past, e.party = some i → e.grant? = none) ∧ b.Unplaced past i := by
  have hknown := h.known i
  cases hstage : stages i with
  | outside =>
      rw [hstage] at hknown
      exact .inr hknown
  | settled result' =>
      rw [hstage] at hknown hvisits
      obtain rfl : result = result' := hvisits
      exact .inl hknown
  | entered | clocked now | loaded now state =>
      rw [hstage] at hvisits
      exact hvisits.elim

/-! ## A use alone -/

theorem History.party (h : History b purpose m₀ past stages m) (he : e ∈ past) :
    ∃ i, e.party = some i := by
  induction h with
  | start => exact absurd he List.not_mem_nil
  | moved h hreached hmoves ih =>
      rcases List.mem_cons.mp he with rfl | he
      · exact ⟨_, rfl⟩
      · exact ih he

omit [DecidableEq ι] in
/-- A take that stores alone is not disturbed. -/
theorem LoadedInside.fresh (h : b.LoadedInside i token state past)
    (halone : ∀ e ∈ past, e.Saves b.key.stateKey → e.party = some i) : b.Fresh i past := by
  induction past with
  | nil => exact h.elim
  | cons e older ih =>
      obtain ⟨hown, halone⟩ := List.forall_mem_cons.mp halone
      obtain ⟨⟨hunsettled, -⟩, ⟨hparty, hload, -⟩ | hbefore⟩ := h
      · exact .inl ⟨hparty, hload⟩
      · refine .inr ⟨fun hsaves => ?_, ih hbefore halone⟩
        exact hunsettled (hown hsaves) (settles_of_saves hsaves)

theorem History.undisturbed_of_alone [Subsingleton ι] (h : History b purpose m₀ past stages m) :
    b.Undisturbed purpose past := by
  have htokens : OwnTokens purpose := fun i j _ _ _ _ _ => Subsingleton.elim i j
  induction h with
  | start => trivial
  | @moved past stages m j r ask stage h hreached hmoves ih =>
      refine ⟨fun i hparty hu hsaves => ?_, ih⟩
      cases hpurpose : purpose i with
      | reset => exact absurd hpurpose hu
      | take token n =>
          obtain ⟨now, state, hloaded, -⟩ :=
            ((h.moved hreached hmoves).guarded htokens).1 i token n hparty hpurpose hsaves
          refine hloaded.fresh fun e he _ => ?_
          obtain ⟨k, hk⟩ := h.party he
          rw [hk, Subsingleton.elim k i]

/-- What `visit` says is what a use does alone: the program of the use ends with its result and
leaves its state, or it is a take that never gets the lock. -/
theorem use_alone (b : Bucket) (u : Use) (m₀ : Memory) (hup : m₀.unavailable = false)
    (schedule : List (Unit × UInt64)) (horder : schedule.Pairwise fun x y => x.2 ≤ y.2) :
    let f := (Fleet.start m₀ fun _ => b.use u).run (schedule.map fun x => .go x.1 x.2)
    ∀ result, f.task () = some (.done result) →
      (∃ v, b.visits f.past = [v] ∧ result = (b.visit u v.now v.loaded v.saved m₀).1 ∧
        ∀ t, Reached f.past t → f.memory.live? b.key.stateKey t =
          (b.visit u v.now v.loaded v.saved m₀).2.live? b.key.stateKey t) ∨
      (∀ e ∈ f.past, e.grant? = none) ∧ b.visits f.past = [] := by
  intro f result hdone
  obtain ⟨stages, hhistory, htasks⟩ := history_run
    (f := Fleet.start m₀ fun _ => b.use u) hup schedule horder
    (fun _ _ e he => absurd he List.not_mem_nil)
    (show History b (fun _ => u) m₀ [] (fun _ => u.first) m₀ from .start)
    fun _ => ⟨_, rfl, visits_use b u⟩
  have hbeside := hhistory.beside hup hhistory.undisturbed_of_alone
  obtain ⟨p, htask, hvisits⟩ := htasks ()
  obtain rfl : p = .done result := Option.some.inj (htask.symm.trans hdone)
  have hresult := hbeside.done hvisits
  have hshows := hbeside.shows
  have hnodup := hbeside.nodup
  unfold played at hresult hshows
  unfold Unplaced at hresult
  match hplaces : b.visits f.past with
  | [] =>
      rw [hplaces] at hresult
      obtain hmem | ⟨hgrants, -⟩ := hresult
      · exact absurd hmem List.not_mem_nil
      · refine .inr ⟨fun e he => ?_, rfl⟩
        obtain ⟨k, hk⟩ := hhistory.party he
        exact hgrants e he hk
  | [v] =>
      rw [hplaces] at hresult hshows
      obtain hmem | ⟨-, hplace⟩ := hresult
      · exact .inl ⟨v, rfl, congrArg Prod.snd (List.mem_singleton.mp hmem), hshows⟩
      · exact absurd (List.mem_singleton.mpr rfl) hplace
  | v :: w :: vs =>
      rw [hplaces] at hnodup
      simp at hnodup

/-! ## Serial order -/

/-- Takes and resets are serializable as long as they keep apart.  If holders of the lock are timely
and no reset stores or deletes while somebody holds it, then no take is disturbed.  If no take is
disturbed, then the uses that are done have the results that they have one after another, in the
order in which they stored and each at its own readings, but for takes that never got the lock, and
the store shows the state that is left then.  In any case a take stores what it leaves of the state
that it read while it was inside, whatever was stored since. -/
theorem takes_resets_serializable (b : Bucket) (purpose : ι → Use) (htokens : OwnTokens purpose)
    (m₀ : Memory) (hup : m₀.unavailable = false) (schedule : List (ι × UInt64))
    (horder : schedule.Pairwise fun x y => x.2 ≤ y.2)
    (hclock : ∀ x ∈ schedule, x.2.toNat + b.config.lock.ttl.millis < Word.size) :
    let f := (Fleet.start m₀ fun i => b.use (purpose i)).run
      (schedule.map fun x => .go x.1 x.2)
    let serial := b.play purpose (b.visits f.past) m₀
    (Timely b f.past → b.Apart purpose f.past → b.Undisturbed purpose f.past) ∧
    (b.Undisturbed purpose f.past →
      ((b.visits f.past).map Visit.party).Nodup ∧
      (∀ i result, f.task i = some (.done result) → (i, result) ∈ serial.1 ∨
        (∀ e ∈ f.past, e.party = some i → e.grant? = none) ∧ b.Unplaced f.past i) ∧
      ∀ t, Reached f.past t →
        f.memory.live? b.key.stateKey t = serial.2.live? b.key.stateKey t) ∧
    b.Guarded purpose f.past := by
  intro f serial
  obtain ⟨stages, hhistory, htasks⟩ := history_run
    (f := Fleet.start m₀ fun i => b.use (purpose i)) hup schedule horder
    (fun _ _ e he => absurd he List.not_mem_nil) History.start
    fun i => ⟨_, rfl, visits_use b (purpose i)⟩
  refine ⟨fun htimely hapart => ?_, fun hundisturbed => ?_, hhistory.guarded htokens⟩
  · refine hhistory.undisturbed htokens (fun e he => ?_) htimely hapart
    rcases Fleet.mem_past_run he with hstart | ⟨a, ha, hreading⟩
    · exact absurd hstart List.not_mem_nil
    · obtain ⟨x, hx, rfl⟩ := List.mem_map.mp ha
      exact Option.some.inj hreading ▸ hclock x hx
  · have hbeside := hhistory.beside hup hundisturbed
    refine ⟨hbeside.nodup, fun i result hdone => ?_, hbeside.shows⟩
    obtain ⟨p, htask, hvisits⟩ := htasks i
    obtain rfl : p = .done result := Option.some.inj (htask.symm.trans hdone)
    exact hbeside.done hvisits

omit [DecidableEq ι] in
/-- A past that is shorter than the lock's life is timely. -/
theorem timely_of_brief (h : ∀ g ∈ past, ∀ e ∈ past,
    e.reading.toNat < g.reading.toNat + b.config.lock.ttl.millis) : Timely b past :=
  fun g hg _ _ _ e he hlate => absurd (h g hg e he) (Nat.not_lt.mpr hlate)

/-- A reset reads the clock while a take is inside, and goes on when the take has given the lock
back. -/
theorem takes_resets_serializable_in_turn :
    let b : Bucket := ⟨⟨"svc", "caller", "GET", "/movies"⟩, .standard⟩
    let purpose (first : Bool) : Use := if first then .take "t" 1 else .reset
    let schedule : List (Bool × UInt64) := [(true, 500), (true, 500), (false, 501), (true, 502),
      (true, 502), (true, 502), (true, 503), (false, 504), (false, 504), (false, 504)]
    let f := (Fleet.start .empty fun i => b.use (purpose i)).run
      (schedule.map fun x => .go x.1 x.2)
    OwnTokens purpose ∧ Timely b f.past ∧ b.Apart purpose f.past ∧
      ∀ t, Reached f.past t → f.memory.live? b.key.stateKey t =
        (b.play purpose [⟨true, 502, 502, 502⟩, ⟨false, 501, 0, 504⟩] .empty).2.live?
          b.key.stateKey t := by
  intro b purpose schedule f
  have httl : b.config.lock.ttl.millis = 2000 := by decide
  have htokens : OwnTokens purpose := by
    rintro (_ | _) (_ | _) token n n' h h'
    · rfl
    · exact absurd h nofun
    · exact absurd h' nofun
    · rfl
  have htimely : Timely b f.past := timely_of_brief (by decide +kernel)
  have hapart : b.Apart purpose f.past := by decide +kernel
  have hvisits : b.visits f.past = [⟨true, 502, 502, 502⟩, ⟨false, 501, 0, 504⟩] := by
    decide +kernel
  obtain ⟨hundisturbed, hserial, -⟩ := takes_resets_serializable b purpose htokens .empty rfl
    schedule (by decide) (by simp [schedule, httl, Word.size])
  refine ⟨htokens, htimely, hapart, ?_⟩
  rw [← hvisits]
  exact (hserial (hundisturbed htimely hapart)).2.2

/-- A reset is done while a take is inside.  The take stores what it leaves of the state from
before, and no order of the two leads there. -/
theorem reset_undone :
    let b : Bucket := ⟨⟨"svc", "caller", "GET", "/movies"⟩, .standard⟩
    let purpose (first : Bool) : Use := if first then .take "t" 1 else .reset
    let spent := Memory.empty.put b.key.stateKey ⟨TokenState.encode ⟨0, 0⟩, 6000⟩
    let f := (Fleet.start spent fun i => b.use (purpose i)).run
      ([(true, 500), (true, 500), (true, 500), (true, 500), (false, 501), (false, 501),
        (false, 501), (true, 502), (true, 502), (true, 502)].map fun x => .go x.1 x.2)
    let take : Visit Bool := ⟨true, 500, 500, 502⟩
    let reset : Visit Bool := ⟨false, 501, 0, 501⟩
    Timely b f.past ∧ b.visits f.past = [reset, take] ∧
      ∀ order ∈ [[reset, take], [take, reset]],
        (b.play purpose order spent).2.live? b.key.stateKey 502 ≠
          f.memory.live? b.key.stateKey 502 :=
  ⟨timely_of_brief (by decide +kernel), by decide +kernel, by decide +kernel⟩

end Bucket

end FlowControl
