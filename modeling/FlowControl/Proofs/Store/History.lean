import FlowControl.Proofs.Store.Live

/-!
# A store in memory against its history

The history of a store lists the calls with their readings and answers, the latest one first.
What is live under a key is read off the history alone: the latest successful write of the key,
if it is not over yet and nothing has removed it since.  Every answer of a store in memory is the
one that the history before it determines, so long as the clock does not go back, and so is the
number of live keys.

An entry that has expired stays in the store until something removes it.  Here that may happen
at any moment, not only at the next call of its key, and nothing of it is seen.
-/

namespace FlowControl

/-- A call of a store, its reading and its answer. -/
structure StoreEvent where
  now : UInt64
  call : StoreCall
  answer : Except StoreFault call.Value

namespace StoreEvent

/-- The value that was written under a key, if any was, and the reading from which on it is gone. -/
def written? (key : String) : StoreEvent → Option (String × Nat)
  | ⟨now, .set k value ttl, .ok ()⟩ =>
    if k = key then some (value, min (now.toNat + ttl.millis) Word.maxNat) else none
  | ⟨now, .setIfAbsent k value ttl, .ok true⟩ =>
    if k = key then some (value, min (now.toNat + ttl.millis) Word.maxNat) else none
  | _ => none

/-- Was the value under a key removed? -/
def removes (key : String) : StoreEvent → Bool
  | ⟨_, .deleteIfEqual k _, .ok true⟩ => k == key
  | ⟨_, .delete k, .ok ()⟩ => k == key
  | _ => false

end StoreEvent

/-- Is a value live under a key at a reading, judged by history? It was written by the latest
successful write of the key, it is not over yet, and nothing has removed it since. -/
def LiveIn (past : List StoreEvent) (key : String) (t : UInt64) (value : String) : Prop :=
  ∃ later e earlier gone, past = later ++ e :: earlier ∧ e.written? key = some (value, gone) ∧
    t.toNat < gone ∧ ∀ d ∈ later, d.written? key = none ∧ d.removes key = false

/-- Is this the answer that history determines for a call? -/
def Explains (past : List StoreEvent) (now : UInt64) :
    (c : StoreCall) → Except StoreFault c.Value → Prop
  | .get key, answer =>
    ∃ found, answer = .ok found ∧ ∀ value, found = some value ↔ LiveIn past key now value
  | .set .., answer => answer = .ok ()
  | .setIfAbsent key _ _, answer =>
    ∃ done, answer = .ok done ∧ (done = true ↔ ∀ value, ¬ LiveIn past key now value)
  | .deleteIfEqual key expected, answer =>
    ∃ done, answer = .ok done ∧ (done = true ↔ LiveIn past key now expected)
  | .delete _, answer => answer = .ok ()

/-- Is this an event that the history before it determines? -/
def StoreEvent.ExplainedBy (e : StoreEvent) (past : List StoreEvent) : Prop :=
  Explains past e.now e.call e.answer

/-- A call, or the removal of an entry that has expired, at a reading. -/
inductive StoreStep where
  | call (now : UInt64) (call : StoreCall)
  | purge (now : UInt64) (key : String)

namespace StoreStep

/-- The reading of a step. -/
def now : StoreStep → UInt64
  | .call now _ | .purge now _ => now

/-- Is it a call? -/
def isCall : StoreStep → Bool
  | .call .. => true
  | .purge .. => false

end StoreStep

/-- A store in memory with its history, the latest event first. -/
structure RecordedStore where
  past : List StoreEvent
  memory : Memory

namespace RecordedStore

/-- A store without entries, and without history. -/
def fresh : RecordedStore := ⟨[], .empty⟩

/-- A call is answered and recorded; a removal is not seen. -/
def step (s : RecordedStore) : StoreStep → RecordedStore
  | .call now c => ⟨⟨now, c, (s.memory.call now c).1⟩ :: s.past, (s.memory.call now c).2⟩
  | .purge now key => { s with memory := s.memory.purge key now }

/-- One step after another. -/
def run (s : RecordedStore) (steps : List StoreStep) : RecordedStore := steps.foldl step s

end RecordedStore

/-! ## History after one more event -/

section History

variable {past : List StoreEvent} {e : StoreEvent} {key value : String} {now t : UInt64}

/-- What is live after an event was written by it, or it was live before and is left alone. -/
theorem liveIn_cons :
    LiveIn (e :: past) key t value ↔
      (∃ gone, e.written? key = some (value, gone) ∧ t.toNat < gone) ∨
        e.written? key = none ∧ e.removes key = false ∧ LiveIn past key t value := by
  constructor
  · rintro ⟨later, d, earlier, gone, hpast, hwritten, hlive, hlater⟩
    cases later with
    | nil =>
        obtain ⟨rfl, rfl⟩ := List.cons.inj hpast
        exact .inl ⟨gone, hwritten, hlive⟩
    | cons x later =>
        obtain ⟨rfl, rfl⟩ := List.cons.inj hpast
        obtain ⟨⟨hnone, hleft⟩, hlater⟩ := List.forall_mem_cons.mp hlater
        exact .inr ⟨hnone, hleft, later, d, earlier, gone, rfl, hwritten, hlive, hlater⟩
  · rintro (⟨gone, hwritten, hlive⟩ |
      ⟨hnone, hleft, later, d, earlier, gone, rfl, hwritten, hlive, hlater⟩)
    · exact ⟨[], e, past, gone, rfl, hwritten, hlive, nofun⟩
    · exact ⟨e :: later, d, earlier, gone, rfl, hwritten, hlive,
        List.forall_mem_cons.mpr ⟨⟨hnone, hleft⟩, hlater⟩⟩

theorem not_liveIn_nil : ¬ LiveIn [] key t value := by
  rintro ⟨later, e, earlier, gone, hpast, -⟩
  cases later <;> cases hpast

/-- An event that writes a key decides what is live under it. -/
theorem liveIn_cons_of_written {gone : Nat} {other : String}
    (h : e.written? key = some (other, gone)) :
    LiveIn (e :: past) key t value ↔ other = value ∧ t.toNat < gone := by
  rw [liveIn_cons, h]
  constructor
  · rintro (⟨_, ⟨⟩, hlive⟩ | ⟨hnone, -⟩)
    · exact ⟨rfl, hlive⟩
    · cases hnone
  · rintro ⟨rfl, hlive⟩
    exact .inl ⟨gone, rfl, hlive⟩

/-- Nothing is live under a key when an event has removed it. -/
theorem not_liveIn_cons_of_removes (hnone : e.written? key = none) (h : e.removes key = true) :
    ¬ LiveIn (e :: past) key t value := by
  rw [liveIn_cons, hnone, h]
  rintro (⟨_, ⟨⟩, -⟩ | ⟨-, ⟨⟩, -⟩)

/-- Any other event leaves what is live under a key. -/
theorem liveIn_cons_of_not (hnone : e.written? key = none) (h : e.removes key = false) :
    LiveIn (e :: past) key t value ↔ LiveIn past key t value := by
  rw [liveIn_cons, hnone, h]
  constructor
  · rintro (⟨_, ⟨⟩, -⟩ | ⟨-, -, hlive⟩)
    exact hlive
  · exact fun hlive => .inr ⟨rfl, rfl, hlive⟩

/-- An event about another key does not touch what is under a key. -/
theorem StoreEvent.of_key_ne {c : StoreCall} {answer : Except StoreFault c.Value}
    (h : c.key ≠ key) :
    written? key ⟨now, c, answer⟩ = none ∧ removes key ⟨now, c, answer⟩ = false := by
  constructor
  · unfold written?
    split
    · next heq => cases heq; exact if_neg h
    · next heq => cases heq; exact if_neg h
    · rfl
  · unfold removes
    split
    · next heq => cases heq; exact beq_false_of_ne h
    · next heq => cases heq; exact beq_false_of_ne h
    · rfl

/-- History determines one answer. -/
theorem Explains.unique {c : StoreCall} {answer answer' : Except StoreFault c.Value}
    (h : Explains past now c answer) (h' : Explains past now c answer') : answer = answer' := by
  cases c with
  | get key =>
      obtain ⟨found, rfl, hfound⟩ := h
      obtain ⟨found', rfl, hfound'⟩ := h'
      exact congrArg Except.ok (Option.ext fun value => (hfound value).trans (hfound' value).symm)
  | set key value ttl => exact h.trans h'.symm
  | setIfAbsent key value ttl =>
      obtain ⟨done, rfl, hdone⟩ := h
      obtain ⟨done', rfl, hdone'⟩ := h'
      exact congrArg Except.ok (Bool.eq_iff_iff.mpr (hdone.trans hdone'.symm))
  | deleteIfEqual key expected =>
      obtain ⟨done, rfl, hdone⟩ := h
      obtain ⟨done', rfl, hdone'⟩ := h'
      exact congrArg Except.ok (Bool.eq_iff_iff.mpr (hdone.trans hdone'.symm))
  | delete key => exact h.trans h'.symm

end History

/-! ## The keys of a store -/

namespace Memory

variable {m : Memory} {key value : String} {now t : UInt64}

/-- The reading at which a value expires: after its time to live, or the last reading there is. -/
theorem toNat_expiry_eq_min (now : UInt64) (ttl : Duration) :
    (expiry now ttl).toNat = min (now.toNat + ttl.millis) Word.maxNat := by
  rw [expiry, Word.toNat_add, Duration.toNat_millisWord]
  omega

theorem live?_put_self_iff {other : String} {ttl : Duration} :
    (m.put key ⟨other, expiry now ttl⟩).live? key t = some value ↔
      other = value ∧ t.toNat < min (now.toNat + ttl.millis) Word.maxNat := by
  rw [live?_eq_some_iff, find?_put_self, ← toNat_expiry_eq_min, ← UInt64.lt_iff_toNat_lt]
  constructor
  · rintro ⟨_, ⟨⟩, hlive, rfl⟩
    exact ⟨rfl, hlive⟩
  · rintro ⟨rfl, hlive⟩
    exact ⟨_, rfl, hlive, rfl⟩

/-- Is there one entry at most for each key? -/
def Distinct (m : Memory) : Prop := (m.entries.map Prod.fst).Nodup

theorem distinct_empty : Distinct .empty := List.nodup_nil

theorem Distinct.erase (h : m.Distinct) (key : String) : (m.erase key).Distinct :=
  h.sublist (List.filter_sublist.map Prod.fst)

theorem Distinct.put (h : m.Distinct) (key : String) (e : MemoryEntry) :
    (m.put key e).Distinct := by
  refine List.nodup_cons.mpr ⟨fun hmem => ?_, h.erase key⟩
  obtain ⟨p, hp, rfl⟩ := List.mem_map.mp hmem
  simpa using (List.mem_filter.mp hp).2

theorem Distinct.purge (h : m.Distinct) (key : String) (now : UInt64) :
    (m.purge key now).Distinct := by
  unfold Memory.purge
  split
  · split
    · exact h.erase key
    · exact h
  · exact h

theorem Distinct.answer (h : m.Distinct) (now : UInt64) (c : StoreCall) :
    (m.answer now c).2.Distinct := by
  have halike : m.live? c.key now = m.live? c.key now := rfl
  rcases (answer_alike c halike).2 with ⟨hm, -⟩ | ⟨e, hm, -⟩ | ⟨hm, -⟩
  · rw [hm]
    exact h.purge c.key now
  · rw [hm]
    exact h.put c.key e
  · rw [hm]
    exact h.erase c.key

/-- The entries of a store are those that are found under their keys. -/
theorem Distinct.mem_entries_iff (h : m.Distinct) {e : MemoryEntry} :
    (key, e) ∈ m.entries ↔ m.find? key = some e := by
  rw [find?, List.lookup_eq_some_iff]
  constructor
  · intro hmem
    obtain ⟨before, after, hentries⟩ := List.append_of_mem hmem
    refine ⟨before, after, hentries, fun p hp => bne_iff_ne.mpr fun hkey => ?_⟩
    rw [Distinct, hentries, List.map_append] at h
    exact (List.nodup_append.mp h).2.2 p.1 (List.mem_map_of_mem hp) key List.mem_cons_self hkey.symm
  · rintro ⟨before, after, hentries, -⟩
    rw [hentries]
    exact List.mem_append_right _ List.mem_cons_self

/-- The keys that are live at a reading. -/
def liveKeys (m : Memory) (t : UInt64) : List String :=
  (m.entries.filter fun p => t < p.2.expiresAt).map Prod.fst

theorem liveCount_eq_length (m : Memory) (t : UInt64) : m.liveCount t = (m.liveKeys t).length :=
  (List.length_map _).symm

theorem Distinct.nodup_liveKeys (h : m.Distinct) (t : UInt64) : (m.liveKeys t).Nodup :=
  h.sublist (List.filter_sublist.map Prod.fst)

theorem Distinct.mem_liveKeys_iff (h : m.Distinct) :
    key ∈ m.liveKeys t ↔ ∃ value, m.live? key t = some value := by
  simp only [liveKeys, List.mem_map, List.mem_filter, live?_eq_some_iff]
  constructor
  · rintro ⟨⟨_, e⟩, ⟨hmem, hlive⟩, rfl⟩
    exact ⟨e.value, e, h.mem_entries_iff.mp hmem, of_decide_eq_true hlive, rfl⟩
  · rintro ⟨_, e, he, hlive, rfl⟩
    exact ⟨(key, e), ⟨h.mem_entries_iff.mpr he, decide_eq_true hlive⟩, rfl⟩

end Memory

/-! ## Step by step -/

namespace RecordedStore

variable {s : RecordedStore} {x : StoreStep} {steps : List StoreStep} {key value : String}
  {now reading t : UInt64}

/-- From a reading on, does a store show what is live by its history, with one entry at most for
each key? -/
structure Shows (now : UInt64) (s : RecordedStore) : Prop where
  available : s.memory.unavailable = false
  distinct : s.memory.Distinct
  live : ∀ t, now ≤ t → ∀ key value,
    s.memory.live? key t = some value ↔ LiveIn s.past key t value

theorem shows_fresh (now : UInt64) : Shows now fresh :=
  ⟨rfl, Memory.distinct_empty, fun _ _ _ _ => ⟨nofun, fun h => (not_liveIn_nil h).elim⟩⟩

theorem Shows.later (h : Shows now s) (hle : now ≤ reading) : Shows reading s :=
  ⟨h.available, h.distinct, fun t ht => h.live t (UInt64.le_trans hle ht)⟩

theorem step_call (h : Shows now s) (c : StoreCall) :
    s.step (.call t c) =
      ⟨⟨t, c, .ok (s.memory.answer t c).1⟩ :: s.past, (s.memory.answer t c).2⟩ := by
  rw [step, Memory.call_of_available h.available]

/-- A store that shows what is live answers as history determines. -/
theorem Shows.explains (h : Shows now s) (c : StoreCall) :
    Explains s.past now c (.ok (s.memory.answer now c).1) := by
  have hlive := h.live now (UInt64.le_refl now)
  cases c with
  | get key => exact ⟨_, rfl, hlive key⟩
  | set key value ttl => rfl
  | setIfAbsent key value ttl =>
      refine ⟨_, rfl, ?_⟩
      cases hkey : s.memory.live? key now with
      | some other =>
          rw [Memory.answer_setIfAbsent_of_live hkey]
          exact ⟨nofun, fun hnone => (hnone other ((hlive key other).mp hkey)).elim⟩
      | none =>
          rw [Memory.answer_setIfAbsent_of_free hkey]
          refine ⟨fun _ other hother => ?_, fun _ => rfl⟩
          cases hkey.symm.trans ((hlive key other).mpr hother)
  | deleteIfEqual key expected =>
      refine ⟨_, rfl, ?_⟩
      rw [← hlive key expected]
      by_cases hkey : s.memory.live? key now = some expected
      · rw [Memory.answer_deleteIfEqual_of_live hkey]
        exact iff_of_true rfl hkey
      · rw [Memory.answer_deleteIfEqual_of_ne hkey]
        exact iff_of_false nofun hkey
  | delete key => rfl

/-- What is live under the key of a call after it, by the store and by history. -/
theorem Shows.live_call_self (h : Shows now s) (c : StoreCall) (ht : now ≤ t) :
    (s.memory.answer now c).2.live? c.key t = some value ↔
      LiveIn (⟨now, c, .ok (s.memory.answer now c).1⟩ :: s.past) c.key t value := by
  -- A call purges its key, removes it or writes it.
  have hpurged : ∀ {key} {e : StoreEvent}, e.written? key = none → e.removes key = false →
      ((s.memory.purge key now).live? key t = some value ↔ LiveIn (e :: s.past) key t value) := by
    intro key e hnone hleft
    rw [Memory.live?_purge ht, liveIn_cons_of_not hnone hleft]
    exact h.live t ht key value
  have herased : ∀ {key} {e : StoreEvent}, e.written? key = none → e.removes key = true →
      ((s.memory.erase key).live? key t = some value ↔ LiveIn (e :: s.past) key t value) := by
    intro key e hnone hremoved
    rw [Memory.live?_of_find?_none Memory.find?_erase_self]
    exact iff_of_false nofun (not_liveIn_cons_of_removes hnone hremoved)
  have hwritten : ∀ {key other} {ttl : Duration} {e : StoreEvent},
      e.written? key = some (other, min (now.toNat + ttl.millis) Word.maxNat) →
      ((s.memory.put key ⟨other, Memory.expiry now ttl⟩).live? key t = some value ↔
        LiveIn (e :: s.past) key t value) := by
    intro key other ttl e hwritten
    rw [Memory.live?_put_self_iff, liveIn_cons_of_written hwritten]
  cases c with
  | get key => exact hpurged rfl rfl
  | set key other ttl => exact hwritten (if_pos rfl)
  | setIfAbsent key other ttl =>
      cases hkey : s.memory.live? key now with
      | some found =>
          rw [Memory.answer_setIfAbsent_of_live hkey]
          exact hpurged rfl rfl
      | none =>
          rw [Memory.answer_setIfAbsent_of_free hkey]
          exact hwritten (if_pos rfl)
  | deleteIfEqual key expected =>
      by_cases hkey : s.memory.live? key now = some expected
      · rw [Memory.answer_deleteIfEqual_of_live hkey]
        exact herased rfl (beq_self_eq_true key)
      · rw [Memory.answer_deleteIfEqual_of_ne hkey]
        exact hpurged rfl rfl
  | delete key => exact herased rfl (beq_self_eq_true key)

/-- A step keeps what a store shows. -/
theorem Shows.step (h : Shows x.now s) : Shows x.now (s.step x) := by
  cases x with
  | purge now key =>
      refine ⟨Memory.unavailable_purge.trans h.available, h.distinct.purge key now,
        fun t ht other value => ?_⟩
      have ht : now ≤ t := ht
      have hunseen : (s.memory.purge key now).live? other t = s.memory.live? other t :=
        Memory.live?_purge ht
      exact (iff_of_eq (congrArg (· = some value) hunseen)).trans (h.live t ht other value)
  | call now c =>
      have h : Shows now s := h
      rw [step_call h]
      refine ⟨(Memory.unavailable_answer c).trans h.available, h.distinct.answer now c,
        fun t ht key value => ?_⟩
      by_cases hkey : c.key = key
      · subst hkey
        exact h.live_call_self c ht
      · obtain ⟨hnone, hleft⟩ := StoreEvent.of_key_ne hkey
        rw [Memory.live?_congr (Memory.find?_answer_of_ne c hkey), liveIn_cons_of_not hnone hleft]
        exact h.live t ht key value

/-- Is every event of a history determined by the events before it? -/
def Explained (past : List StoreEvent) : Prop :=
  ∀ later e earlier, past = later ++ e :: earlier → e.ExplainedBy earlier

theorem explained_nil : Explained [] := by
  intro later e earlier hpast
  cases later <;> cases hpast

theorem Explained.cons {e : StoreEvent} {past : List StoreEvent} (he : e.ExplainedBy past)
    (h : Explained past) : Explained (e :: past) := by
  intro later d earlier hpast
  cases later with
  | nil =>
      obtain ⟨rfl, rfl⟩ := List.cons.inj hpast
      exact he
  | cons x later =>
      obtain ⟨rfl, hrest⟩ := List.cons.inj hpast
      exact h later d earlier hrest

/-- The answer to a call is the one that history determines. -/
theorem Explained.step (h : Explained s.past) (hshows : Shows x.now s) :
    Explained (s.step x).past := by
  cases x with
  | purge now key => exact h
  | call now c =>
      have hshows : Shows now s := hshows
      rw [step_call hshows]
      exact h.cons (hshows.explains c)

/-! ## Runs -/

/-- A run records answers that history determines, and shows what is live from its last reading
on. -/
theorem Shows.run (h : Shows now s) (hexplained : Explained s.past)
    (hnow : ∀ x ∈ steps, now ≤ x.now) (horder : steps.Pairwise fun x y => x.now ≤ y.now) :
    Explained (s.run steps).past ∧
      ∀ reading, now ≤ reading → (∀ x ∈ steps, x.now ≤ reading) → Shows reading (s.run steps) := by
  induction steps generalizing s now with
  | nil => exact ⟨hexplained, fun reading hle _ => h.later hle⟩
  | cons x steps ih =>
      obtain ⟨hfirst, horder⟩ := List.pairwise_cons.mp horder
      have hshows : Shows x.now s := h.later (hnow x List.mem_cons_self)
      obtain ⟨hall, hend⟩ := ih hshows.step (hexplained.step hshows) hfirst horder
      refine ⟨hall, fun reading _ hlast => ?_⟩
      obtain ⟨hx, hlast⟩ := List.forall_mem_cons.mp hlast
      exact hend reading hx hlast

/-- Every call of a run is recorded, and nothing else. -/
theorem calls_run (s : RecordedStore) (steps : List StoreStep) :
    (s.run steps).past.map (fun e => StoreStep.call e.now e.call) =
      (steps.filter StoreStep.isCall).reverse ++
        s.past.map fun e => StoreStep.call e.now e.call := by
  induction steps generalizing s with
  | nil => rfl
  | cons x steps ih =>
      refine (ih (s.step x)).trans ?_
      cases x with
      | purge now key => rfl
      | call now c =>
          rw [List.filter_cons_of_pos rfl, List.reverse_cons, List.append_assoc]
          rfl

/-- Stores with the same history, whatever they have removed, go on to have the same history, and
removals on the way do not matter. -/
theorem past_run_isCall {s' : RecordedStore} (h : Shows now s) (h' : Shows now s')
    (hpast : s'.past = s.past) (hnow : ∀ x ∈ steps, now ≤ x.now)
    (horder : steps.Pairwise fun x y => x.now ≤ y.now) :
    (s'.run (steps.filter StoreStep.isCall)).past = (s.run steps).past := by
  induction steps generalizing s s' now with
  | nil => exact hpast
  | cons x steps ih =>
      obtain ⟨hfirst, hrest⟩ := List.pairwise_cons.mp horder
      have hle := hnow x List.mem_cons_self
      cases x with
      | purge reading key =>
          have hx : Shows reading s := h.later hle
          exact ih (hx.step (x := .purge reading key)) (h'.later hle) hpast hfirst hrest
      | call reading c =>
          have hx : Shows reading s := h.later hle
          have hx' : Shows reading s' := h'.later hle
          have hnext : Shows reading (s.step (.call reading c)) := hx.step (x := .call reading c)
          have hnext' : Shows reading (s'.step (.call reading c)) :=
            hx'.step (x := .call reading c)
          refine ih hnext hnext' ?_ hfirst hrest
          have hexplains := hx'.explains c
          rw [hpast] at hexplains
          rw [step_call hx, step_call hx', hpast, hexplains.unique (hx.explains c)]

/-- The keys that a store counts are those that are live by its history. -/
theorem Shows.mem_liveKeys_iff (h : Shows now s) :
    key ∈ s.memory.liveKeys now ↔ ∃ value, LiveIn s.past key now value := by
  rw [h.distinct.mem_liveKeys_iff]
  exact exists_congr fun value => h.live now (UInt64.le_refl now) key value

/-- Stores with the same history have the same number of live keys. -/
theorem Shows.liveCount_eq {s' : RecordedStore} (h : Shows now s) (h' : Shows now s')
    (hpast : s'.past = s.past) : s'.memory.liveCount now = s.memory.liveCount now := by
  rw [Memory.liveCount_eq_length, Memory.liveCount_eq_length]
  refine ((List.perm_ext_iff_of_nodup (h'.distinct.nodup_liveKeys now)
    (h.distinct.nodup_liveKeys now)).mpr fun key => ?_).length_eq
  rw [h.mem_liveKeys_iff, h'.mem_liveKeys_iff, hpast]

/-- A store in memory answers from its history.  While the clock does not go back, every call is
recorded with the answer that the calls before it determine, and the live keys are counted, each
once.  When entries that have expired are removed changes neither answers nor counts. -/
theorem answers_determined_by_history (steps : List StoreStep)
    (horder : steps.Pairwise fun x y => x.now ≤ y.now) :
    let s := fresh.run steps
    let unpurged := fresh.run (steps.filter StoreStep.isCall)
    s.past.map (fun e => StoreStep.call e.now e.call) = (steps.filter StoreStep.isCall).reverse ∧
      (∀ later e earlier, s.past = later ++ e :: earlier → e.ExplainedBy earlier) ∧
      unpurged.past = s.past ∧
      ∀ now, (∀ x ∈ steps, x.now ≤ now) →
        ∃ keys : List String, keys.Nodup ∧
          (∀ key, key ∈ keys ↔ ∃ value, LiveIn s.past key now value) ∧
          s.memory.liveCount now = keys.length ∧ unpurged.memory.liveCount now = keys.length := by
  intro s unpurged
  have hzero : ∀ x : StoreStep, 0 ≤ x.now := fun x => UInt64.zero_le
  obtain ⟨hexplained, hshows⟩ :=
    (shows_fresh 0).run explained_nil (fun x _ => hzero x) horder
  obtain ⟨-, hshows'⟩ := (shows_fresh 0).run explained_nil
    (fun x _ => hzero x) (horder.filter StoreStep.isCall)
  have hpast : unpurged.past = s.past :=
    past_run_isCall (shows_fresh 0) (shows_fresh 0) rfl (fun x _ => hzero x) horder
  refine ⟨(calls_run fresh steps).trans (List.append_nil _), hexplained, hpast, fun now hnow => ?_⟩
  have hs : Shows now s := hshows now UInt64.zero_le hnow
  have hs' : Shows now unpurged :=
    hshows' now UInt64.zero_le fun x hx => hnow x (List.mem_filter.mp hx).1
  have hcount : s.memory.liveCount now = (s.memory.liveKeys now).length :=
    Memory.liveCount_eq_length _ _
  exact ⟨s.memory.liveKeys now, hs.distinct.nodup_liveKeys now, fun key => hs.mem_liveKeys_iff,
    hcount, (hs.liveCount_eq hs' hpast).trans hcount⟩

/-- A value that is there for the last time, then removed at the reading at which it has expired,
and a value that is written for no time. -/
theorem answers_determined_by_history_expired :
    let steps : List StoreStep :=
      [.call 10 (.set "a" "x" (.ofMillis 5)), .call 14 (.get "a"), .purge 15 "a",
        .call 15 (.setIfAbsent "a" "y" .zero), .call 15 (.get "a")]
    steps.Pairwise (fun x y => x.now ≤ y.now) ∧
      (fresh.run (steps.filter StoreStep.isCall)).past =
        [⟨15, .get "a", .ok none⟩, ⟨15, .setIfAbsent "a" "y" .zero, .ok true⟩,
          ⟨14, .get "a", .ok (some "x")⟩, ⟨10, .set "a" "x" (.ofMillis 5), .ok ()⟩] := by
  intro steps
  have horder : steps.Pairwise (fun x y => x.now ≤ y.now) := by decide
  exact ⟨horder, (answers_determined_by_history steps horder).2.2.1.trans rfl⟩

end RecordedStore

end FlowControl
