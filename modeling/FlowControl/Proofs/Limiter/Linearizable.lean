import FlowControl.Proofs.Limiter.SerialPlay
import Mathlib.Data.List.Induction

/-!
# Takes are linearizable

Takes of one bucket are interleaved question by question, each with a token of its
own.  If every holder of the lock stores the state, or gives the lock back, before the
lock's life has passed, then all takes that were granted the lock stand where they
would stand if they had been played one at a time in the order of their grants, each
at its own readings, and the store shows the state it would show then.

Nothing is said about takes that never get the lock, beyond that they touch nothing
but the lock, and nothing about holders that are later than the lock's life.
-/

namespace FlowControl

open Limiter

namespace Bucket

variable {ι : Type} [DecidableEq ι] {b : Bucket} {token : ι → String} {amount : ι → UInt64}
  {m₀ : Memory} {f : Fleet ι (Except LimitError Unit)} {e : Moment ι} {past : List (Moment ι)}
  {i : ι} {r : UInt64} {p : Program (Except LimitError Unit)}

omit [DecidableEq ι] in
/-- What is timely was timely before its latest moment. -/
theorem Timely.tail (h : Timely b (e :: past)) (hreached : Reached past e.reading) :
    Timely b past := by
  intro g hg i hparty hgrant d hd hlate
  obtain ⟨c, hc, hcparty, hsettles, hearly⟩ := h g (List.mem_cons_of_mem _ hg) i hparty hgrant d
    (List.mem_cons_of_mem _ hd) hlate
  rcases List.mem_cons.mp hc with rfl | hc
  · -- The latest moment is no earlier than the one that is too late.
    have hle := UInt64.le_iff_toNat_le.mp (hreached d hd)
    omega
  · exact ⟨c, hc, hcparty, hsettles, hearly⟩

/-- Is the party still outside, and has it settled nothing? -/
def Waiting (b : Bucket) (f : Fleet ι (Except LimitError Unit)) (token : String) (n : UInt64)
    (i : ι) : Prop :=
  ∃ p, f.task i = some p ∧ Outside b token (b.entered token n) p ∧
    ∀ e ∈ f.past, e.party = some i → ¬ Settles e.ask

/-- An act of one party leaves the others waiting. -/
theorem Waiting.others {tok : String} {n : UInt64} {j : ι}
    {q : Option (Program (Except LimitError Unit))} (h : Waiting b f tok n j)
    (he : e.party = some i) (hne : j ≠ i) : Waiting b (f.goOn i e q) tok n j := by
  obtain ⟨p, htask, hp, hbefore⟩ := h
  refine ⟨p, (if_neg hne).trans htask, hp, fun d hd hparty => ?_⟩
  rcases List.mem_cons.mp hd with rfl | hd
  · exact absurd (Option.some.inj (hparty.symm.trans he)) hne
  · exact hbefore d hd hparty

/-- The run stands where serial play of its turns leads: parties without a turn are waiting, and
the store shows what serial play leaves. -/
structure Serial (b : Bucket) (token : ι → String) (amount : ι → UInt64) (m₀ : Memory)
    (f : Fleet ι (Except LimitError Unit)) : Prop where
  waiting : ∀ i, i ∉ (turns f.past).map Prod.fst → Waiting b f (token i) (amount i) i
  nodup : ((turns f.past).map Prod.fst).Nodup
  played : ∃ last, Played b token amount f m₀ (turns f.past) last ∧
    ∀ t, Reached f.past t → b.AgreesFrom t f.memory last

/-- Before its first question every party is waiting. -/
theorem serial_start (b : Bucket) (token : ι → String) (amount : ι → UInt64)
    (hup : m₀.unavailable = false) :
    Serial b token amount m₀ (Fleet.start m₀ fun i => b.take (token i) (amount i)) where
  waiting i _ := ⟨_, rfl, outside_take b (token i) (amount i), fun _ he => absurd he
    List.not_mem_nil⟩
  nodup := List.nodup_nil
  played := ⟨m₀, .nil, fun _ _ => ⟨fun _ _ => rfl, fun _ _ => rfl, hup, hup⟩⟩

/-- A party that stays outside is not noticed. -/
theorem Serial.waits (h : Serial b token amount m₀ f) (hi : i ∉ (turns f.past).map Prod.fst)
    (he : e.party = some i) (hgrant : e.grant? = none) (hsettles : ¬ Settles e.ask)
    (hp : Outside b (token i) (b.entered (token i) (amount i)) p)
    (hreached : Reached f.past e.reading)
    (hstore : ∀ last, b.AgreesFrom e.reading f.memory last →
      b.AgreesFrom e.reading e.after last) :
    Serial b token amount m₀ (f.goOn i e (some p)) := by
  have hturns : turns (f.goOn i e (some p)).past = turns f.past :=
    (turns_of_other he hgrant).trans (map_extendTurn_of_not_mem hi)
  obtain ⟨last, hplayed, hagrees⟩ := h.played
  refine ⟨fun j hj => ?_, hturns ▸ h.nodup, last, hturns ▸ hplayed.others he hi, fun t ht => ?_⟩
  · rw [hturns] at hj
    by_cases hsame : j = i
    · subst hsame
      obtain ⟨_, _, _, hbefore⟩ := h.waiting j hj
      exact ⟨p, if_pos rfl, hp, List.forall_mem_cons.mpr ⟨fun _ => hsettles, hbefore⟩⟩
    · exact (h.waiting j hj).others he hsame
  · exact (hstore last (hagrees _ hreached)).later (ht e List.mem_cons_self)

/-- A party that is granted the lock begins a turn. -/
theorem Serial.enters (h : Serial b token amount m₀ f) (hi : i ∉ (turns f.past).map Prod.fst)
    (he : e.party = some i) (hgrant : e.grant? ≠ none) (hsettles : ¬ Settles e.ask)
    (hreached : Reached f.past e.reading)
    (hfree : f.memory.live? b.key.lockKey e.reading = none)
    (hstore : ∀ last, b.AgreesFrom e.reading f.memory last →
      b.AgreesFrom e.reading e.after
        (last.put b.key.lockKey ⟨token i, Memory.expiry e.reading b.config.lock.ttl⟩))
    (htimely : Timely b (e :: f.past))
    (hclock : ∀ d ∈ f.past, d.reading.toNat + b.config.lock.ttl.millis < Word.size) :
    Serial b token amount m₀ (f.goOn i e (some (b.entered (token i) (amount i)))) := by
  have hturns : turns (f.goOn i e (some (b.entered (token i) (amount i)))).past =
      turns f.past ++ [(i, [e.reading])] := turns_of_grant he hgrant
  have hparties : (turns f.past ++ [(i, [e.reading])]).map Prod.fst =
      (turns f.past).map Prod.fst ++ [i] := by
    rw [List.map_append]
    rfl
  obtain ⟨last, hplayed, hagrees⟩ := h.played
  have hnow := hagrees _ hreached
  obtain ⟨_, _, _, hbefore⟩ := h.waiting i hi
  refine ⟨fun j hj => ?_, ?_, _, hturns ▸ hplayed.snoc hi ?_ hnow.up' he hgrant ?_ htimely hclock,
    fun t ht => (hstore last hnow).later (ht e List.mem_cons_self)⟩
  · rw [hturns, hparties, List.mem_append, List.mem_singleton, not_or] at hj
    exact (h.waiting j hj.1).others he hj.2
  · rw [hturns, hparties]
    exact List.nodup_append.mpr ⟨h.nodup, by simp, by
      intro j hj k hk
      rw [List.mem_singleton.mp hk]
      exact fun hsame => hi (hsame ▸ hj)⟩
  · rw [← hnow.lock e.reading (UInt64.le_refl _)]
    exact hfree
  · exact List.forall_mem_cons.mpr ⟨fun _ => hsettles, hbefore⟩

/-- A party that is inside goes on with its turn. -/
theorem Serial.goesOn {ask : Ask} {held : List Guard}
    {resume : ask.Answer → Program (Except LimitError Unit)} (h : Serial b token amount m₀ f)
    (htoken : ∀ i j, token i = token j → i = j) (hi : i ∈ (turns f.past).map Prod.fst)
    (htask : f.task i = some (.ask ask held resume)) (hreached : Reached f.past r) :
    Serial b token amount m₀ (f.goOn i (.of (some i) r ask f.memory)
      (some (resume (answerAt Memory.call r ask f.memory).1))) := by
  obtain ⟨last, hplayed, hagrees⟩ := h.played
  obtain ⟨p, hp, hinside⟩ := hplayed.inside hi
  obtain rfl : p = .ask ask held resume := Option.some.inj (hp.symm.trans htask)
  have hturns : turns (Moment.of (some i) r ask f.memory :: f.past) =
      (turns f.past).map (extendTurn i r) :=
    turns_of_other rfl (grant?_of_holderAsk hinside.1)
  have hparties : ∀ q, (turns (f.goOn i (.of (some i) r ask f.memory) q).past).map Prod.fst =
      (turns f.past).map Prod.fst :=
    fun _ => (congrArg (List.map Prod.fst) hturns).trans map_fst_extendTurn
  obtain ⟨last', hplayed', hagrees'⟩ :=
    hplayed.extend hi h.nodup htoken htask hreached (hagrees r hreached)
  refine ⟨fun j hj => ?_, ?_, last', hturns ▸ hplayed',
    fun t ht => hagrees'.later (ht _ List.mem_cons_self)⟩
  · rw [hparties] at hj
    exact (h.waiting j hj).others rfl fun hsame => hj (hsame ▸ hi)
  · rw [hparties]
    exact h.nodup

/-- A try for a lock that somebody holds is not noticed. -/
theorem Serial.misses {other : String} (h : Serial b token amount m₀ f)
    (hi : i ∉ (turns f.past).map Prod.fst) (hup : f.memory.unavailable = false)
    (hreached : Reached f.past r) (hlive : f.memory.live? b.key.lockKey r = some other)
    (hp : Outside b (token i) (b.entered (token i) (amount i)) p) :
    Serial b token amount m₀
      (f.goOn i (.of (some i) r (b.lockTry (token i)) f.memory) (some p)) := by
  have hcall : answerAt Memory.call r (b.lockTry (token i)) f.memory =
      (.ok false, f.memory.purge b.key.lockKey r) := answerAt_try_of_live hup hlive
  have hgrant : (Moment.of (some i) r (b.lockTry (token i)) f.memory).grant? = none :=
    congrArg (granted? (b.lockTry (token i))) (congrArg Prod.fst hcall)
  have hafter : (Moment.of (some i) r (b.lockTry (token i)) f.memory).after =
      f.memory.purge b.key.lockKey r := congrArg Prod.snd hcall
  refine h.waits hi rfl hgrant id hp hreached fun last hlast => ?_
  rw [hafter]
  exact hlast.purge _

/-- A try for a free lock begins a turn. -/
theorem Serial.hits (h : Serial b token amount m₀ f)
    (hi : i ∉ (turns f.past).map Prod.fst) (hup : f.memory.unavailable = false)
    (hreached : Reached f.past r) (hlive : f.memory.live? b.key.lockKey r = none)
    (htimely : Timely b (.of (some i) r (b.lockTry (token i)) f.memory :: f.past))
    (hclock : ∀ d ∈ f.past, d.reading.toNat + b.config.lock.ttl.millis < Word.size) :
    Serial b token amount m₀ (f.goOn i (.of (some i) r (b.lockTry (token i)) f.memory)
      (some (b.entered (token i) (amount i)))) := by
  have hcall : answerAt Memory.call r (b.lockTry (token i)) f.memory = (.ok true, _) :=
    answerAt_try_of_free hup hlive
  have hgrant : (Moment.of (some i) r (b.lockTry (token i)) f.memory).grant? =
      some ⟨b.key.lockKey, token i⟩ :=
    congrArg (granted? (b.lockTry (token i))) (congrArg Prod.fst hcall)
  refine h.enters hi rfl (by rw [hgrant]; nofun) id hreached hlive
    (fun last (hlast : b.AgreesFrom r f.memory last) => ?_) htimely hclock
  have hfree : last.live? b.key.lockKey r = none :=
    (hlast.lock r (UInt64.le_refl r)).symm.trans hlive
  have hcall' : answerAt Memory.call r (b.lockTry (token i)) last =
      (.ok true, last.put b.key.lockKey ⟨token i, Memory.expiry r b.config.lock.ttl⟩) :=
    answerAt_try_of_free hlast.up' hfree
  have hown : OwnAsk b (b.lockTry (token i)) := .inr rfl
  have hnext := (hlast.answer hown (r := r)).2
  rwa [hcall'] at hnext

/-- Every act keeps the run beside serial play. -/
theorem Serial.step (h : Serial b token amount m₀ f) (htoken : ∀ i j, token i = token j → i = j)
    (hreached : Reached f.past r) (htimely : Timely b (f.step (.go i r)).past)
    (hclock : ∀ d ∈ f.past, d.reading.toNat + b.config.lock.ttl.millis < Word.size) :
    Serial b token amount m₀ (f.step (.go i r)) := by
  obtain ⟨last, hplayed, hagrees⟩ := h.played
  by_cases hi : i ∈ (turns f.past).map Prod.fst
  · obtain ⟨p, htask, _⟩ := hplayed.inside hi
    cases p with
    | done result => rwa [Fleet.step_go_done htask]
    | ask ask held resume =>
        rw [Fleet.step_go_ask htask]
        exact h.goesOn htoken hi htask hreached
  · obtain ⟨p, htask, hp, _⟩ := h.waiting i hi
    cases p with
    | done result => rwa [Fleet.step_go_done htask]
    | ask ask held resume =>
        rw [Fleet.step_go_ask htask] at htimely ⊢
        cases ask with
        | now => exact hp.elim
        | pause length => exact h.waits hi rfl rfl id hp hreached fun _ hlast => hlast
        | note event => exact h.waits hi rfl rfl id hp hreached fun _ hlast => hlast
        | store c =>
            cases c with
            | setIfAbsent key value ttl =>
                obtain ⟨rfl, rfl, rfl, hentered, hagain⟩ := hp
                have hup := (hagrees r hreached).up
                cases hlive : f.memory.live? b.key.lockKey r with
                | some other =>
                    rw [answerAt_try_of_live hup hlive]
                    exact h.misses hi hup hreached hlive hagain
                | none =>
                    rw [answerAt_try_of_free hup hlive, hentered]
                    exact h.hits hi hup hreached hlive htimely hclock
            | _ => exact hp.elim

/-- A run of takes in which all holders are timely goes on beside serial play. -/
theorem serial_run (b : Bucket) (token : ι → String)
    (htoken : ∀ i j, token i = token j → i = j) (amount : ι → UInt64)
    (hup : m₀.unavailable = false) (schedule : List (ι × UInt64))
    (horder : schedule.Pairwise fun x y => x.2 ≤ y.2)
    (hclock : ∀ x ∈ schedule, x.2.toNat + b.config.lock.ttl.millis < Word.size)
    (htimely : Timely b ((Fleet.start m₀ fun i => b.take (token i) (amount i)).run
      (schedule.map fun x => .go x.1 x.2)).past) :
    Serial b token amount m₀ ((Fleet.start m₀ fun i => b.take (token i) (amount i)).run
      (schedule.map fun x => .go x.1 x.2)) := by
  -- On the last act: all holders were timely before it, since readings never go back.
  induction schedule using List.reverseRecOn with
  | nil => exact serial_start b token amount hup
  | append_singleton schedule x ih =>
      obtain ⟨i, r⟩ := x
      rw [List.map_append, List.map_singleton, Fleet.run_concat] at htimely ⊢
      obtain ⟨horder, -, hlast⟩ := List.pairwise_append.mp horder
      have hearlier : ∀ e ∈ ((Fleet.start m₀ fun i => b.take (token i) (amount i)).run
          (schedule.map fun x => .go x.1 x.2)).past, ∃ x ∈ schedule, x.2 = e.reading := by
        intro e he
        rcases Fleet.mem_past_run he with hstart | ⟨a, ha, hreading⟩
        · exact absurd hstart List.not_mem_nil
        · obtain ⟨x, hx, rfl⟩ := List.mem_map.mp ha
          exact ⟨x, hx, Option.some.inj hreading⟩
      generalize (Fleet.start m₀ fun i => b.take (token i) (amount i)).run
        (schedule.map fun x => .go x.1 x.2) = f at *
      have hreached : Reached f.past r := by
        intro e he
        obtain ⟨x, hx, hreading⟩ := hearlier e he
        exact hreading ▸ hlast x hx (i, r) List.mem_cons_self
      refine (ih horder (fun x hx => hclock x (List.mem_append_left _ hx)) ?_).step htoken
        hreached htimely ?_
      · rcases Fleet.step_cases f (.go i r) with ⟨party, reading, ask, ha, hpast, -⟩ | ⟨hpast, -⟩
        · cases ha
          rw [hpast] at htimely
          exact htimely.tail hreached
        · rwa [hpast] at htimely
      · intro e he
        obtain ⟨x, hx, hreading⟩ := hearlier e he
        exact hreading ▸ hclock x (List.mem_append_left _ hx)

/-- Takes are linearizable.  If holders are timely, then the takes that were granted the lock
stand where serial play of their turns leaves them, and are done after nine answers more at most;
the store shows the same state, and each state that was stored is the one that serial play leaves
after the turn of its party. -/
theorem takes_linearizable (b : Bucket) (token : ι → String)
    (htoken : ∀ i j, token i = token j → i = j) (amount : ι → UInt64) (m₀ : Memory)
    (hup : m₀.unavailable = false) (schedule : List (ι × UInt64))
    (horder : schedule.Pairwise fun x y => x.2 ≤ y.2)
    (hclock : ∀ x ∈ schedule, x.2.toNat + b.config.lock.ttl.millis < Word.size) :
    let f := (Fleet.start m₀ fun i => b.take (token i) (amount i)).run
      (schedule.map fun x => .go x.1 x.2)
    let serial := b.takeTurns token amount (turns f.past) m₀
    Timely b f.past →
    (∀ e ∈ f.past, ∀ i, e.party = some i → e.grant? ≠ none → ∃ p, (i, p) ∈ serial.1) ∧
    (∀ x ∈ serial.1, f.task x.1 = some x.2 ∧ x.2.Within 9) ∧
    (∀ t, Reached f.past t →
      f.memory.live? b.key.stateKey t = serial.2.live? b.key.stateKey t) ∧
    ∀ e ∈ f.past, ∀ i, e.party = some i → e.Saves b.key.stateKey →
      ∃ before rs after, turns f.past = before ++ (i, rs) :: after ∧
        e.after.find? b.key.stateKey =
          (b.takeTurns token amount (before ++ [(i, rs)]) m₀).2.find? b.key.stateKey := by
  intro f serial htimely
  have hserial := serial_run b token htoken amount hup schedule horder hclock htimely
  obtain ⟨last, hplayed, hagrees⟩ := hserial.played
  obtain ⟨hlast, hparties⟩ := hplayed.takeTurns
  refine ⟨?_, hparties, ?_, ?_⟩
  · intro e he i hparty hgrant
    have hi := mem_turns_of_grant he hparty hgrant
    rw [← map_fst_takeTurns b token amount _ m₀] at hi
    obtain ⟨x, hx, rfl⟩ := List.mem_map.mp hi
    exact ⟨x.2, hx⟩
  · intro t ht
    rw [(hagrees t ht).state t (UInt64.le_refl t), ← hlast]
  · intro e he i hparty hsaves
    by_cases hi : i ∈ (turns f.past).map Prod.fst
    · exact hplayed.saved hi he hparty hsaves
    · obtain ⟨_, _, _, hbefore⟩ := hserial.waiting i hi
      obtain ⟨text, ttl, hset⟩ := hsaves
      exact absurd (by rw [hset]; trivial) (hbefore e he hparty)

/-- Two takes of a standard bucket: the second finds the lock held, pauses, and gets it when the
first has given it back. -/
theorem takes_linearizable_two_parties :
    let b : Bucket := ⟨⟨"svc", "caller", "GET", "/movies"⟩, .standard⟩
    let token (first : Bool) := if first then "first" else "second"
    let f := (Fleet.start .empty fun i => b.take (token i) 1).run
      ([(true, 1000), (false, 1000), (true, 1001), (true, 1001), (true, 1001), (false, 1001),
        (true, 1002), (true, 1003), (false, 1010), (false, 1011), (false, 1011)].map fun x =>
          .go x.1 x.2)
    Timely b f.past ∧ (turns f.past).map Prod.fst = [true, false] ∧
      ∀ x ∈ (b.takeTurns token (fun _ => 1) (turns f.past) .empty).1,
        f.task x.1 = some x.2 ∧ x.2.Within 9 := by
  intro b token f
  have httl : b.config.lock.ttl.millis = 2000 := by decide
  have htimely : Timely b f.past := by
    have hreadings : ∀ e ∈ f.past, 1000 ≤ e.reading.toNat ∧ e.reading.toNat ≤ 1011 := by
      decide +kernel
    intro g hg i hparty hgrant e he hlate
    have hfirst := hreadings g hg
    have hlast := hreadings e he
    omega
  refine ⟨htimely, by decide +kernel, ?_⟩
  exact (takes_linearizable b token (by decide) (fun _ => 1) .empty rfl _ (by decide)
    (by simp [httl, Word.size]) htimely).2.1

end Bucket

end FlowControl
