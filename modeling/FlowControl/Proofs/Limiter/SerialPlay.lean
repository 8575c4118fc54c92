import FlowControl.Proofs.Limiter.Turns

/-!
# Serial play beside a run

`Played` is the play of turns one after another, seen beside a run of the same
parties: every turn begins with a free lock and ends where its party stands in the
run.  An act of the run is matched by one reading more in the turn of its party.

Only the party of the latest turn can still touch the state.  An earlier one can only
give the lock back late or report, which no later turn notices, so its questions are
added in the middle of the play (`Played.extend`).  A grant adds a turn at the end; it
needs that the party before has settled in time (`Played.snoc`).
-/

namespace FlowControl

open Limiter

/-- Is the moment a store of a text under a key? -/
def Moment.Saves {ι : Type} (key : String) (e : Moment ι) : Prop :=
  ∃ text ttl, e.ask = .store (.set key text ttl)

namespace Bucket

variable {ι : Type} [DecidableEq ι]

/-- Has every holder of the lock stored the state, or given the lock back, before the lock's
life had passed since its grant? -/
def Timely (b : Bucket) (past : List (Moment ι)) : Prop :=
  ∀ g ∈ past, ∀ i, g.party = some i → g.grant? ≠ none → ∀ e ∈ past,
    g.reading.toNat + b.config.lock.ttl.millis ≤ e.reading.toNat →
    ∃ d ∈ past, d.party = some i ∧ Settles d.ask ∧
      d.reading.toNat < g.reading.toNat + b.config.lock.ttl.millis

/-- How a turn of a party ends in serial play: the party stands where its take stands, and the
store keeps its last state and nobody else's lock. -/
structure TurnEnds (b : Bucket) (f : Fleet ι (Except LimitError Unit)) (token : String) (i : ι)
    (granted : UInt64) (p : Program (Except LimitError Unit)) (m : Memory) : Prop where
  task : f.task i = some p
  inside : Inside b token p
  within : p.Within 9
  grant : ∃ g ∈ f.past, g.party = some i ∧ g.grant? ≠ none ∧ g.reading = granted
  saved : ∀ e ∈ f.past, e.party = some i → e.Saves b.key.stateKey →
    e.after.find? b.key.stateKey = m.find? b.key.stateKey
  settled : ∀ e ∈ f.past, e.party = some i → Settles e.ask → Quiet b token p
  lock : Quiet b token p ∨
    m.find? b.key.lockKey = some ⟨token, Memory.expiry granted b.config.lock.ttl⟩
  owner : ∀ entry, m.find? b.key.lockKey = some entry → entry.value = token
  up : m.unavailable = false

/-- Serial play of turns from one store to another, each turn beginning with a free lock and
leaving its party quiet if another turn follows. -/
inductive Played (b : Bucket) (token : ι → String) (amount : ι → UInt64)
    (f : Fleet ι (Except LimitError Unit)) :
    Memory → List (ι × List UInt64) → Memory → Prop where
  | nil {m : Memory} : Played b token amount f m [] m
  | cons {i : ι} {r : UInt64} {rest : List UInt64} {more : List (ι × List UInt64)}
      {m m' last : Memory} {p : Program (Except LimitError Unit)}
      (hfree : m.live? b.key.lockKey r = none)
      (hplay : answerAll (r :: rest) (b.take (token i) (amount i)) m = (p, m'))
      (hends : TurnEnds b f (token i) i r p m')
      (hquiet : more ≠ [] → Quiet b (token i) p)
      (hmore : Played b token amount f m' more last) :
      Played b token amount f m ((i, r :: rest) :: more) last

variable {b : Bucket} {token : ι → String} {amount : ι → UInt64}
  {f : Fleet ι (Except LimitError Unit)} {i j : ι} {granted r : UInt64} {tok : String}
  {p : Program (Except LimitError Unit)} {m m' last : Memory}
  {more played : List (ι × List UInt64)}

omit [DecidableEq ι] in
/-- Stores that agree end a turn alike. -/
theorem TurnEnds.congr (h : TurnEnds b f tok i granted p m) (hagrees : b.Agrees m m') :
    TurnEnds b f tok i granted p m' where
  task := h.task
  inside := h.inside
  within := h.within
  grant := h.grant
  saved e he hi hsaves := (h.saved e he hi hsaves).trans hagrees.state
  settled := h.settled
  lock := h.lock.imp_right fun hlock => hagrees.lock.symm.trans hlock
  owner entry hentry := h.owner entry (hagrees.lock.trans hentry)
  up := hagrees.up'

omit [DecidableEq ι] in
/-- Turns go alike from a store with the same state in which the lock is free when it was. -/
theorem Played.congr (h : Played b token amount f m played last) (hne : played ≠ [])
    (hstate : m.find? b.key.stateKey = m'.find? b.key.stateKey) (hup : m.unavailable = false)
    (hup' : m'.unavailable = false)
    (hlock : ∀ t, m.live? b.key.lockKey t = none → m'.live? b.key.lockKey t = none) :
    ∃ last', Played b token amount f m' played last' ∧ b.Agrees last last' := by
  induction h generalizing m' with
  | nil => exact absurd rfl hne
  | @cons i r rest more m m₁ last p hfree hplay hends hquiet hmore ih =>
      have hkeys := b.key.lockKey_ne_stateKey
      -- The first try overwrites whatever entry the lock had, so the stores agree after it.
      have hentry : b.Agrees
          (m.put b.key.lockKey ⟨token i, Memory.expiry r b.config.lock.ttl⟩)
          (m'.put b.key.lockKey ⟨token i, Memory.expiry r b.config.lock.ttl⟩) := by
        refine ⟨?_, ?_, hup, hup'⟩
        · rw [Memory.find?_put_of_ne _ hkeys.symm, Memory.find?_put_of_ne _ hkeys.symm, hstate]
        · rw [Memory.find?_put_self, Memory.find?_put_self]
      obtain ⟨hsame, hagrees⟩ := hentry.answers (inside_entered b (token i) (amount i)) rest
      rw [← answerAll_take hup hfree, ← answerAll_take hup' (hlock r hfree), hplay]
        at hsame hagrees
      have hplay' : answerAll (r :: rest) (b.take (token i) (amount i)) m' =
          (p, (answerAll (r :: rest) (b.take (token i) (amount i)) m').2) :=
        Prod.ext hsame.symm rfl
      by_cases hlast : more = []
      · subst hlast
        cases hmore
        exact ⟨_, .cons (hlock r hfree) hplay' (hends.congr hagrees) hquiet .nil, hagrees⟩
      · obtain ⟨last', hmore', hlast'⟩ := ih hlast hagrees.state hends.up hagrees.up'
          fun t ht => by rw [← Memory.live?_congr hagrees.lock]; exact ht
        exact ⟨last', .cons (hlock r hfree) hplay' (hends.congr hagrees) hquiet hmore', hlast'⟩

/-! ## What an act leaves of the turns -/

variable {e : Moment ι} {ask : Ask} {held : List Guard}
  {resume : ask.Answer → Program (Except LimitError Unit)}
  {q : Option (Program (Except LimitError Unit))}

/-- An act of one party leaves the turns of the others. -/
theorem TurnEnds.others (h : TurnEnds b f tok j granted p m) (he : e.party = some i)
    (hne : j ≠ i) : TurnEnds b (f.goOn i e q) tok j granted p m := by
  have hparty : ∀ d ∈ (f.goOn i e q).past, d.party = some j → d ∈ f.past := by
    intro d hd hj
    rcases List.mem_cons.mp hd with rfl | hd
    · exact absurd (Option.some.inj (hj.symm.trans he)) hne
    · exact hd
  obtain ⟨g, hg, hgrant⟩ := h.grant
  exact {
    task := (if_neg hne).trans h.task
    inside := h.inside
    within := h.within
    grant := ⟨g, List.mem_cons_of_mem _ hg, hgrant⟩
    saved := fun d hd hj => h.saved d (hparty d hd hj) hj
    settled := fun d hd hj => h.settled d (hparty d hd hj) hj
    lock := h.lock
    owner := h.owner
    up := h.up }

theorem Played.others (h : Played b token amount f m played last) (he : e.party = some i)
    (hi : i ∉ played.map Prod.fst) :
    Played b token amount (f.goOn i e q) m played last := by
  induction h with
  | nil => exact .nil
  | @cons j r rest more m m₁ last p hfree hplay hends hquiet hmore ih =>
      obtain ⟨hne, hmem⟩ := not_or.mp fun h => hi (List.mem_cons.mpr h)
      exact .cons hfree hplay (hends.others he fun hj => hne hj.symm) hquiet (ih hmem)

omit [DecidableEq ι] in
/-- A take that is inside is not granted the lock again. -/
theorem grant?_of_holderAsk (hask : HolderAsk b tok e.ask) : e.grant? = none := by
  cases hgrant : e.grant? with
  | none => rfl
  | some g =>
      obtain ⟨life, hwrite⟩ := Moment.ask_of_grant? hgrant
      rw [hwrite] at hask
      exact hask.elim

/-- A holder's question changes the lock's entry only if it gives the lock back. -/
theorem lock_of_holderAsk (hask : HolderAsk b tok ask) (hup : m.unavailable = false) :
    Settles ask ∧ (∀ entry, (answerAt Memory.call r ask m).2.find? b.key.lockKey = some entry →
      m.find? b.key.lockKey = some entry) ∨
    (answerAt Memory.call r ask m).2.find? b.key.lockKey = m.find? b.key.lockKey := by
  have hkeys := b.key.lockKey_ne_stateKey
  unfold HolderAsk at hask
  split at hask
  · subst hask
    refine .inr ?_
    show (m.call r _).2.find? _ = _
    rw [Memory.call_of_available hup]
    exact Memory.find?_answer_of_ne _ hkeys.symm
  · subst hask
    refine .inr ?_
    show (m.call r _).2.find? _ = _
    rw [Memory.call_of_available hup]
    exact Memory.find?_answer_of_ne _ hkeys.symm
  · obtain ⟨rfl, rfl⟩ := hask
    refine .inl ⟨trivial, fun entry => ?_⟩
    show (m.call r _).2.find? _ = _ → _
    rw [Memory.call_of_available hup]
    exact Memory.find?_of_deleteIfEqual
  · exact .inr rfl
  · exact .inr rfl
  · exact hask.elim

omit [DecidableEq ι] in
/-- A late question leaves the state alone. -/
theorem state_of_lateAsk (hask : LateAsk b tok ask) (hup : m.unavailable = false) :
    (answerAt Memory.call r ask m).2.find? b.key.stateKey = m.find? b.key.stateKey := by
  unfold LateAsk at hask
  split at hask
  · obtain ⟨rfl, rfl⟩ := hask
    show (m.call r _).2.find? _ = _
    rw [Memory.call_of_available hup]
    exact Memory.find?_answer_of_ne _ b.key.lockKey_ne_stateKey
  · rfl
  · exact hask.elim

theorem saved_alike {key text : String} {ttl : Duration} (hup : m.unavailable = false)
    (hup' : m'.unavailable = false) :
    (answerAt Memory.call r (.store (.set key text ttl)) m).2.find? key =
      (answerAt Memory.call r (.store (.set key text ttl)) m').2.find? key := by
  show (m.call r _).2.find? key = (m'.call r _).2.find? key
  rw [Memory.call_of_available hup, Memory.call_of_available hup']
  exact (Memory.find?_put_self _).trans (Memory.find?_put_self _).symm

/-- A turn goes on beside its party: the same answer leads both to the same place. -/
theorem TurnEnds.goesOn (h : TurnEnds b f tok i granted (.ask ask held resume) m)
    (hup : f.memory.unavailable = false)
    (hanswer : (answerAt Memory.call r ask f.memory).1 = (answerAt Memory.call r ask m).1) :
    TurnEnds b (f.goOn i (.of (some i) r ask f.memory)
        (some (resume (answerAt Memory.call r ask f.memory).1))) tok i granted
      (resume (answerAt Memory.call r ask m).1) (answerAt Memory.call r ask m).2 := by
  obtain ⟨hholder, hnext⟩ := h.inside
  have hlock := lock_of_holderAsk (r := r) hholder h.up
  obtain ⟨g, hg, hgrant⟩ := h.grant
  exact {
    task := by
      rw [← hanswer]
      exact if_pos rfl
    inside := (hnext _).1
    within := (h.within _).mono (by decide)
    grant := ⟨g, List.mem_cons_of_mem _ hg, hgrant⟩
    saved := by
      intro d hd hi hsaves
      rcases List.mem_cons.mp hd with rfl | hd
      · obtain ⟨text, ttl, rfl⟩ := hsaves
        exact saved_alike hup h.up
      · -- It was stored before: since then the party asks late questions only.
        obtain ⟨text, ttl, hset⟩ := hsaves
        have hquiet := h.settled d hd hi (by rw [hset]; trivial)
        rw [state_of_lateAsk hquiet.1 h.up]
        exact h.saved d hd hi ⟨text, ttl, hset⟩
    settled := by
      intro d hd hi hsettles
      rcases List.mem_cons.mp hd with rfl | hd
      · exact (hnext _).2 hsettles
      · exact (h.settled d hd hi hsettles).2 _
    lock := by
      rcases h.lock with hquiet | hentry
      · exact .inl (hquiet.2 _)
      · rcases hlock with ⟨hsettles, _⟩ | hsame
        · exact .inl ((hnext _).2 hsettles)
        · exact .inr (hsame.trans hentry)
    owner := by
      intro entry hentry
      rcases hlock with ⟨_, hfound⟩ | hsame
      · exact h.owner entry (hfound entry hentry)
      · exact h.owner entry (hsame.symm.trans hentry)
    up := by
      cases ask with
      | store c =>
          show (m.call r c).2.unavailable = false
          rw [Memory.call_of_available h.up]
          exact (Memory.unavailable_answer c).trans h.up
      | _ => exact h.up }

omit [DecidableEq ι] in
/-- After some turns the lock's entry, if there is one, is the last party's. -/
theorem Played.owner (h : Played b token amount f m played last) (hne : played ≠ []) :
    ∃ x ∈ played, ∀ entry, last.find? b.key.lockKey = some entry → entry.value = token x.1 := by
  induction h with
  | nil => exact absurd rfl hne
  | @cons i r rest more m m₁ last p hfree hplay hends hquiet hmore ih =>
      by_cases hlast : more = []
      · subst hlast
        cases hmore
        exact ⟨(i, r :: rest), List.mem_cons_self, hends.owner⟩
      · obtain ⟨x, hx, howner⟩ := ih hlast
        exact ⟨x, List.mem_cons_of_mem _ hx, howner⟩

omit [DecidableEq ι] in
/-- Each turn begins at a reading of the past, with a free lock. -/
theorem Played.free (h : Played b token amount f m played last) (hne : played ≠ [])
    (hreached : Reached f.past r) : m.live? b.key.lockKey r = none := by
  cases h with
  | nil => exact absurd rfl hne
  | cons hfree hplay hends hquiet hmore =>
      obtain ⟨g, hg, -, -, rfl⟩ := hends.grant
      exact Memory.live?_none_of_le hfree (hreached g hg)

omit [DecidableEq ι] in
/-- A late question is answered alike before the turns that follow and after them, and they do
not notice it. -/
theorem Played.late (h : Played b token amount f m played last) (hne : played ≠ [])
    (hi : i ∉ played.map Prod.fst) (htoken : ∀ i j, token i = token j → i = j)
    (hask : LateAsk b (token i) ask) (hup : m.unavailable = false)
    (hreached : Reached f.past r) (hagrees : b.AgreesFrom r f.memory last) :
    (answerAt Memory.call r ask f.memory).1 = (answerAt Memory.call r ask m).1 ∧
      ∃ last', Played b token amount f (answerAt Memory.call r ask m).2 played last' ∧
        b.AgreesFrom r (answerAt Memory.call r ask f.memory).2 last' := by
  unfold LateAsk at hask
  split at hask
  · obtain ⟨rfl, rfl⟩ := hask
    -- The lock was free when the next turn began, so in the play there is nothing to delete;
    -- in the run the lock shows the last party's token, if any.
    have hfree := h.free hne hreached
    have hother : f.memory.live? b.key.lockKey r ≠ some (token i) := by
      intro hlive
      rw [hagrees.lock r (UInt64.le_refl r)] at hlive
      obtain ⟨entry, hentry, -, hvalue⟩ := Memory.live?_eq_some_iff.mp hlive
      obtain ⟨x, hx, howner⟩ := h.owner hne
      have hsame := htoken x.1 i ((howner entry hentry).symm.trans hvalue)
      exact hi (hsame ▸ List.mem_map_of_mem hx)
    rw [answerAt_delete_of_ne hup (by rw [hfree]; nofun), answerAt_delete_of_ne hagrees.up hother]
    have hstate : m.find? b.key.stateKey = (m.purge b.key.lockKey r).find? b.key.stateKey :=
      (Memory.find?_purge_of_ne b.key.lockKey_ne_stateKey.symm).symm
    obtain ⟨last', hplayed, hlast⟩ := h.congr hne hstate hup (by simpa using hup)
      fun t => Memory.live?_purge_of_none
    exact ⟨rfl, last', hplayed, (hagrees.purge _).trans (hlast.from r)⟩
  · exact ⟨rfl, last, h, hagrees⟩
  · exact hask.elim

/-- A question of a party whose turn is played is matched by one reading more in that turn. -/
theorem Played.extend (h : Played b token amount f m played last)
    (hi : i ∈ played.map Prod.fst) (hnodup : (played.map Prod.fst).Nodup)
    (htoken : ∀ i j, token i = token j → i = j) (htask : f.task i = some (.ask ask held resume))
    (hreached : Reached f.past r) (hagrees : b.AgreesFrom r f.memory last) :
    ∃ last', Played b token amount (f.goOn i (.of (some i) r ask f.memory)
        (some (resume (answerAt Memory.call r ask f.memory).1))) m
        (played.map (extendTurn i r)) last' ∧
      b.AgreesFrom r (answerAt Memory.call r ask f.memory).2 last' := by
  induction h with
  | nil => exact absurd hi List.not_mem_nil
  | @cons j r₀ rest more m m₁ last p hfree hplay hends hquiet hmore ih =>
      obtain ⟨hj, hnodup⟩ := List.nodup_cons.mp hnodup
      by_cases hsame : j = i
      · subst hsame
        have hp : p = .ask ask held resume :=
          Option.some.inj (hends.task.symm.trans htask)
        subst hp
        have hmap : ((j, r₀ :: rest) :: more).map (extendTurn j r) =
            (j, r₀ :: (rest ++ [r])) :: more := by
          rw [List.map_cons, map_extendTurn_of_not_mem hj, extendTurn, if_pos rfl,
            List.cons_append]
        have hplay' : answerAll (r₀ :: (rest ++ [r])) (b.take (token j) (amount j)) m =
            (resume (answerAt Memory.call r ask m₁).1, (answerAt Memory.call r ask m₁).2) := by
          rw [← List.cons_append, answerAll_concat, hplay]
          rfl
        rw [hmap]
        by_cases hlast : more = []
        · subst hlast
          cases hmore
          obtain ⟨hanswer, hagrees'⟩ := hagrees.answer (ownAsk_of_holderAsk hends.inside.1)
          exact ⟨_, .cons hfree hplay' (hends.goesOn hagrees.up hanswer) (fun h => absurd rfl h)
            .nil, hagrees'⟩
        · -- Others had their turns since, so the party only asks late questions.
          have hlate := hquiet hlast
          obtain ⟨hanswer, last', hmore', hagrees'⟩ :=
            hmore.late hlast hj htoken hlate.1 hends.up hreached hagrees
          exact ⟨last', .cons hfree hplay' (hends.goesOn hagrees.up hanswer)
            (fun _ => hlate.2 _) (hmore'.others rfl hj), hagrees'⟩
      · obtain ⟨last', hmore', hagrees'⟩ :=
          ih ((List.mem_cons.mp hi).resolve_left fun h => hsame h.symm) hnodup hagrees
        refine ⟨last', ?_, hagrees'⟩
        rw [List.map_cons, extendTurn, if_neg hsame]
        refine .cons hfree hplay (hends.others rfl hsame) (fun hne => hquiet ?_) hmore'
        exact fun hnil => hne (by rw [hnil]; rfl)

omit [DecidableEq ι] in
/-- If a lock is free again, the party of the turn before has settled. -/
theorem TurnEnds.quiet_of_free (h : TurnEnds b f tok j granted p m)
    (hfree : m.live? b.key.lockKey e.reading = none) (he : e.party = some i) (hne : j ≠ i)
    (htimely : Timely b (e :: f.past))
    (hclock : ∀ d ∈ f.past, d.reading.toNat + b.config.lock.ttl.millis < Word.size) :
    Quiet b tok p := by
  rcases h.lock with hquiet | hentry
  · exact hquiet
  · obtain ⟨g, hg, hparty, hgrant, rfl⟩ := h.grant
    have hexpired := Memory.live?_eq_none_iff.mp hfree _ hentry
    -- The entry has run out, so a timely party has settled, and not just now.
    rw [UInt64.le_iff_toNat_le, Memory.toNat_expiry (hclock g hg)] at hexpired
    obtain ⟨d, hd, hdparty, hsettles, -⟩ := htimely g (List.mem_cons_of_mem _ hg) j hparty hgrant
      e List.mem_cons_self hexpired
    rcases List.mem_cons.mp hd with rfl | hd
    · exact absurd (Option.some.inj (hdparty.symm.trans he)) hne
    · exact h.settled d hd hdparty hsettles

/-- A grant is matched by a new turn at the end. -/
theorem Played.snoc (h : Played b token amount f m played last)
    (hi : i ∉ played.map Prod.fst) (hfree : last.live? b.key.lockKey e.reading = none)
    (hup : last.unavailable = false) (he : e.party = some i) (hgrant : e.grant? ≠ none)
    (hunsettled : ∀ d ∈ e :: f.past, d.party = some i → ¬ Settles d.ask)
    (htimely : Timely b (e :: f.past))
    (hclock : ∀ d ∈ f.past, d.reading.toNat + b.config.lock.ttl.millis < Word.size) :
    Played b token amount (f.goOn i e (some (b.entered (token i) (amount i)))) m
      (played ++ [(i, [e.reading])])
      (last.put b.key.lockKey ⟨token i, Memory.expiry e.reading b.config.lock.ttl⟩) := by
  induction h with
  | @nil m =>
      have hplay : answerAll [e.reading] (b.take (token i) (amount i)) m =
          (b.entered (token i) (amount i),
            m.put b.key.lockKey ⟨token i, Memory.expiry e.reading b.config.lock.ttl⟩) :=
        answerAll_take hup hfree []
      refine .cons hfree hplay ?_ (fun hne => absurd rfl hne) .nil
      exact {
        task := if_pos rfl
        inside := inside_entered b (token i) (amount i)
        within := within_entered b (token i) (amount i)
        grant := ⟨e, List.mem_cons_self, he, hgrant, rfl⟩
        saved := fun d hd hparty ⟨text, ttl, hset⟩ =>
          absurd (by rw [hset]; trivial) (hunsettled d hd hparty)
        settled := fun d hd hparty hsettles => absurd hsettles (hunsettled d hd hparty)
        lock := .inr (Memory.find?_put_self _)
        owner := fun entry hentry => by
          rw [Memory.find?_put_self] at hentry
          cases hentry
          rfl
        up := hup }
  | @cons j r rest more m m₁ last p hfree' hplay hends hquiet hmore ih =>
      obtain ⟨hj, hmem⟩ := not_or.mp fun h => hi (List.mem_cons.mpr h)
      have hne : j ≠ i := fun hsame => hj hsame.symm
      refine .cons hfree' hplay (hends.others he hne) (fun _ => ?_) (ih hmem hfree hup)
      -- Only the last party so far could still be inside and not quiet.
      by_cases hlast : more = []
      · subst hlast
        cases hmore
        exact hends.quiet_of_free hfree he hne htimely hclock
      · exact hquiet hlast

/-! ## What the play shows -/

omit [DecidableEq ι] in
theorem Played.inside (h : Played b token amount f m played last)
    (hi : i ∈ played.map Prod.fst) : ∃ p, f.task i = some p ∧ Inside b (token i) p := by
  induction h with
  | nil => exact absurd hi List.not_mem_nil
  | @cons j r rest more m m₁ last p hfree hplay hends hquiet hmore ih =>
      rcases List.mem_cons.mp hi with rfl | hi
      · exact ⟨p, hends.task, hends.inside⟩
      · exact ih hi

omit [DecidableEq ι] in
/-- Serial play leaves its parties where they stand in the run. -/
theorem Played.takeTurns (h : Played b token amount f m played last) :
    (b.takeTurns token amount played m).2 = last ∧
      ∀ x ∈ (b.takeTurns token amount played m).1,
        f.task x.1 = some x.2 ∧ x.2.Within 9 := by
  induction h with
  | nil => exact ⟨rfl, fun x hx => absurd hx List.not_mem_nil⟩
  | @cons i r rest more m m₁ last p hfree hplay hends hquiet hmore ih =>
      simp only [Bucket.takeTurns, hplay]
      refine ⟨ih.1, fun x hx => ?_⟩
      rcases List.mem_cons.mp hx with rfl | hx
      · exact ⟨hends.task, hends.within⟩
      · exact ih.2 x hx

/-- The state a party has stored is the state after its turn. -/
theorem Played.saved (h : Played b token amount f m played last)
    (hi : i ∈ played.map Prod.fst) (he : e ∈ f.past) (hparty : e.party = some i)
    (hsaves : e.Saves b.key.stateKey) :
    ∃ before rs after, played = before ++ (i, rs) :: after ∧
      e.after.find? b.key.stateKey =
        (b.takeTurns token amount (before ++ [(i, rs)]) m).2.find? b.key.stateKey := by
  induction h with
  | nil => exact absurd hi List.not_mem_nil
  | @cons j r rest more m m₁ last p hfree hplay hends hquiet hmore ih =>
      by_cases hsame : j = i
      · subst hsame
        refine ⟨[], r :: rest, more, rfl, ?_⟩
        rw [hends.saved e he hparty hsaves, List.nil_append, Bucket.takeTurns, hplay]
        rfl
      · obtain ⟨before, rs, after, rfl, hstate⟩ :=
          ih ((List.mem_cons.mp hi).resolve_left fun h => hsame h.symm)
        refine ⟨(j, r :: rest) :: before, rs, after, rfl, ?_⟩
        rw [hstate, List.cons_append, Bucket.takeTurns, hplay]

end Bucket

end FlowControl
