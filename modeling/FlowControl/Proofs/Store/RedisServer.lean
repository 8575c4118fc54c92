import FlowControl.Proofs.Store.Contract
import FlowControl.Store.Redis.Client
import Mathlib.Control.Monad.Basic

/-!
# A Redis server that does what it documents

The client is not told how a server stores anything, so a server is given by its replies,
by what it has under each key at each reading of its clock, and by whether it knows the
script that deletes conditionally.  `Server.Documented` lists what a server is relied on
for, command by command.  Nothing is assumed about how long a script stays known, except
right after it was loaded.

Over such a server the client keeps the contract of a store, hence its answers are those
of a store in memory.  Both clocks show the same reading at a call, and a script that has
to be loaded first is loaded and called at that reading.
-/

namespace FlowControl.Redis

/-- The conditional delete, command by command. -/
theorem call_deleteIfEqual (key expected : String) :
    let c : StoreCall := .deleteIfEqual key expected
    call c = .ask (command c) [] fun reply =>
      if reply.isNoScript then
        .ask loadScript [] fun loaded =>
          match loaded.asDone with
          | .error fault => .done (.error fault.toStore)
          | .ok () => .ask (command c) [] fun reply =>
            .done ((valueOf c reply).mapError Fault.toStore)
      else .done ((valueOf c reply).mapError Fault.toStore) := by
  intro c
  refine congrArg (Routine.ask (I := interface) (command c) []) (funext fun reply => ?_)
  conv => lhs; arg 1; whnf
  cases Reply.isNoScript reply with
  | false => rfl
  | true =>
      refine congrArg (Routine.ask (I := interface) loadScript []) (funext fun loaded => ?_)
      conv => lhs; arg 1; whnf
      cases Reply.asDone loaded with
      | ok _ => rfl
      | error _ => rfl

/-- A server: the reply to a command at a reading, the contents, and whether the script that deletes
conditionally is known. -/
structure Server (σ : Type) where
  answer : Nat → List String → σ → Reply × σ
  contents : σ → Contents
  knows : σ → Bool

namespace Server

variable {σ : Type} {server : Server σ} {s : σ} {now : Nat} {call : StoreCall} {ttl : Duration}

/-- Does a command get this reply, and are these the contents from then on? -/
def Does (server : Server σ) (now : Nat) (s : σ) (command : List String) (reply : Reply)
    (after : Contents) : Prop :=
  (server.answer now command s).1 = reply ∧
    (server.contents (server.answer now command s).2).SameFrom now after

/-- What a server is relied on for.  A time to live of `p` is over `p` milliseconds after the
command, and any one but zero is accepted. -/
structure Documented (server : Server σ) : Prop where
  get : ∀ now s key,
    server.Does now s ["GET", key] ((server.contents s now key).elim .nil .bulk)
      (server.contents s)
  set : ∀ now s key value p, 1 ≤ p →
    server.Does now s ["SET", key, value, "PX", toString p] (.status "OK")
      ((server.contents s).put key value (now + p))
  setAbsent : ∀ now s key value p, 1 ≤ p → server.contents s now key = none →
    server.Does now s ["SET", key, value, "NX", "PX", toString p] (.status "OK")
      ((server.contents s).put key value (now + p))
  setPresent : ∀ now s key value p, 1 ≤ p → server.contents s now key ≠ none →
    server.Does now s ["SET", key, value, "NX", "PX", toString p] .nil (server.contents s)
  delete : ∀ now s key, ∃ removed : Int,
    server.Does now s ["DEL", key] (.int removed) ((server.contents s).erase key)
  compareEqual : ∀ now s key expected, server.knows s = true →
    server.contents s now key = some expected →
    server.Does now s ["EVALSHA", deleteDigest, "1", key, expected] (.int 1)
      ((server.contents s).erase key)
  compareOther : ∀ now s key expected, server.knows s = true →
    server.contents s now key ≠ some expected →
    server.Does now s ["EVALSHA", deleteDigest, "1", key, expected] (.int 0) (server.contents s)
  unknown : ∀ now s key expected, server.knows s = false → ∃ detail : String,
    server.Does now s ["EVALSHA", deleteDigest, "1", key, expected]
      (.error ("NOSCRIPT " ++ detail)) (server.contents s)
  load : ∀ now s,
    server.Does now s ["SCRIPT", "LOAD", deleteScript] (.bulk deleteDigest)
      (server.contents s) ∧
    server.knows (server.answer now ["SCRIPT", "LOAD", deleteScript] s).2 = true

/-- Does the command of a call do what the contract says of the call? -/
def Obeys (server : Server σ) (now : Nat) (s : σ) (call : StoreCall) : Prop :=
  let demanded := (server.contents s).answer now call
  ∃ reply, server.Does now s (command call) reply demanded.2 ∧ reply.isNoScript = false ∧
    valueOf call reply = .ok demanded.1

/-- Does a call of the client do what the contract says of the call? -/
def Keeps (server : Server σ) (now : Nat) (s : σ) (call : StoreCall) : Prop :=
  let after := (Redis.call call).run (server.answer now) s
  let demanded := (server.contents s).answer now call
  after.1 = .ok demanded.1 ∧ (server.contents after.2).SameFrom now demanded.2

/-- A call is one command, unless its reply says that the script is not known. -/
theorem run_call_once (hreply : (server.answer now (command call) s).1.isNoScript = false) :
    (Redis.call call).run (server.answer now) s =
      ((valueOf call (server.answer now (command call) s).1).mapError Fault.toStore,
        (server.answer now (command call) s).2) := by
  cases call with
  | deleteIfEqual key expected =>
      rw [call_deleteIfEqual]
      show Routine.run _ (if Reply.isNoScript (server.answer now _ s).1 then _ else _) _ = _
      rw [hreply]
      rfl
  | _ => rfl

/-- If the script is not known, the same command is sent again after it was loaded. -/
theorem run_call_again {key expected : String} {loaded : σ}
    (hfirst : (server.answer now (command (.deleteIfEqual key expected)) s).1.isNoScript = true)
    (hload : server.answer now loadScript
      (server.answer now (command (.deleteIfEqual key expected)) s).2 =
        (.bulk deleteDigest, loaded)) :
    (Redis.call (.deleteIfEqual key expected)).run (server.answer now) s =
      let after := server.answer now (command (.deleteIfEqual key expected)) loaded
      ((valueOf (.deleteIfEqual key expected) after.1).mapError Fault.toStore, after.2) := by
  rw [call_deleteIfEqual]
  show Routine.run _ (if Reply.isNoScript (server.answer now _ s).1 then _ else _) _ = _
  rw [hfirst]
  show Routine.run _ (match Reply.asDone (server.answer now loadScript _).1 with
    | .error _ => _
    | .ok () => _) (server.answer now loadScript _).2 = _
  rw [hload]
  rfl

theorem Obeys.keeps (h : server.Obeys now s call) : server.Keeps now s call := by
  obtain ⟨reply, ⟨rfl, hcontents⟩, hscript, hvalue⟩ := h
  rw [Keeps, run_call_once hscript, hvalue]
  exact ⟨rfl, hcontents⟩

/-- A time to live that fits is sent as it is, in milliseconds. -/
theorem ttlText_of_fits (hmin : 1 ≤ ttl.millis) (hmax : now + ttl.millis < Word.size) :
    ttlText ttl = toString ttl.millis := by
  have hsize : Word.size = Word.maxNat + 1 := rfl
  rw [ttlText, Duration.toNat_millisWord, Nat.min_eq_left (by omega), Nat.max_eq_left hmin]

/-- An error line with this code says that the script is not known. -/
theorem isNoScript_of_code (detail : String) :
    (Reply.error ("NOSCRIPT " ++ detail)).isNoScript = true := by
  have hcode : "NOSCRIPT ".toList = ['N', 'O', 'S', 'C', 'R', 'I', 'P', 'T', ' '] := rfl
  have hkind : kinds.lookup "NOSCRIPT" = some "NoScriptError" := rfl
  simp [Reply.isNoScript, Fault.ofLine, hcode, hkind, Fault.isNoScript]

namespace Documented

variable {key value expected : String}

theorem obeys_get (h : server.Documented) : server.Obeys now s (.get key) := by
  refine ⟨_, h.get now s key, ?_, ?_⟩
  · cases server.contents s now key <;> rfl
  · simp only [valueOf, Contents.answer]
    cases server.contents s now key <;> rfl

theorem obeys_set (h : server.Documented) (hmin : 1 ≤ ttl.millis)
    (hmax : now + ttl.millis < Word.size) : server.Obeys now s (.set key value ttl) := by
  have hdoes := h.set now s key value ttl.millis hmin
  rw [← ttlText_of_fits hmin hmax] at hdoes
  exact ⟨_, hdoes, rfl, rfl⟩

theorem obeys_setIfAbsent (h : server.Documented) (hmin : 1 ≤ ttl.millis)
    (hmax : now + ttl.millis < Word.size) : server.Obeys now s (.setIfAbsent key value ttl) := by
  have hcommand : command (.setIfAbsent key value ttl) =
      ["SET", key, value, "NX", "PX", toString ttl.millis] := by
    rw [command, ttlText_of_fits hmin hmax]
  rw [Obeys, hcommand]
  cases hkey : server.contents s now key with
  | none =>
      simp only [Contents.answer, hkey]
      exact ⟨_, h.setAbsent now s key value ttl.millis hmin hkey, rfl, rfl⟩
  | some other =>
      simp only [Contents.answer, hkey]
      have hthere : server.contents s now key ≠ none := hkey ▸ Option.some_ne_none other
      exact ⟨_, h.setPresent now s key value ttl.millis hmin hthere, rfl, rfl⟩

theorem obeys_delete (h : server.Documented) : server.Obeys now s (.delete key) := by
  obtain ⟨removed, hdoes⟩ := h.delete now s key
  exact ⟨_, hdoes, rfl, rfl⟩

theorem obeys_deleteIfEqual (h : server.Documented) (hknown : server.knows s = true) :
    server.Obeys now s (.deleteIfEqual key expected) := by
  by_cases hkey : server.contents s now key = some expected
  · simp only [Obeys, Contents.answer, hkey, if_true]
    exact ⟨_, h.compareEqual now s key expected hknown hkey, rfl, rfl⟩
  · simp only [Obeys, Contents.answer, hkey, if_false]
    exact ⟨_, h.compareOther now s key expected hknown hkey, rfl, rfl⟩

/-- Without the script, the conditional delete does what it does with it. -/
theorem keeps_deleteIfEqual (h : server.Documented) (hunknown : server.knows s = false) :
    server.Keeps now s (.deleteIfEqual key expected) := by
  obtain ⟨detail, hfirst, hrefused⟩ := h.unknown now s key expected hunknown
  obtain ⟨⟨hreply, hloaded⟩, hknown⟩ :=
    h.load now (server.answer now (command (.deleteIfEqual key expected)) s).2
  have hagain : server.Obeys now _ (.deleteIfEqual key expected) := h.obeys_deleteIfEqual hknown
  obtain ⟨reply, ⟨hsecond, hcontents⟩, -, hvalue⟩ := hagain
  -- Neither the refusal nor the load changes what there is.
  obtain ⟨hanswer, hafter⟩ := (hloaded.trans hrefused).answer (.deleteIfEqual key expected)
  have hscript :
      (server.answer now (command (.deleteIfEqual key expected)) s).1.isNoScript = true :=
    hfirst ▸ isNoScript_of_code detail
  rw [Keeps, run_call_again hscript (Prod.ext hreply rfl)]
  have hgiven := hvalue.trans (congrArg Except.ok hanswer)
  have hread := (congrArg (valueOf (.deleteIfEqual key expected)) hsecond).trans hgiven
  exact ⟨congrArg (Except.mapError Fault.toStore) hread, hcontents.trans hafter⟩

/-- Every call of the client does what the contract says. -/
theorem keeps (h : server.Documented) {now : UInt64} (s : σ) {call : StoreCall}
    (hfits : call.FitsAt now) : server.Keeps now.toNat s call := by
  cases call with
  | get key => exact h.obeys_get.keeps
  | set key value ttl => exact (h.obeys_set hfits.1 hfits.2).keeps
  | setIfAbsent key value ttl => exact (h.obeys_setIfAbsent hfits.1 hfits.2).keeps
  | deleteIfEqual key expected =>
      cases hknown : server.knows s with
      | true => exact (h.obeys_deleteIfEqual hknown).keeps
      | false => exact h.keeps_deleteIfEqual hknown
  | delete key => exact h.obeys_delete.keeps

/-- The client keeps the contract of a store. -/
theorem keepsContract (h : server.Documented) :
    KeepsContract (fun now call => (Redis.call call).run (server.answer now.toNat))
      (fun now s c => (server.contents s).SameFrom now.toNat c) where
  call {now s c} call hfits hshows := by
    obtain ⟨hanswer, hafter⟩ := h.keeps s hfits
    obtain ⟨hsame, hsameAfter⟩ := hshows.answer call
    exact ⟨hanswer.trans (congrArg Except.ok hsame), hafter.trans hsameAfter⟩
  later hle hshows := hshows.later (UInt64.le_iff_toNat_le.mp hle)

end Documented

/-- A client over a server that has nothing at first gives, call by call, the answers of a store in
memory without entries, if the readings do not go back and the times to live are in range. -/
theorem redis_answers_as_memory (server : Server σ) (hserver : server.Documented) (s : σ)
    (hempty : server.contents s = .empty) (calls : List (UInt64 × StoreCall))
    (hreadings : calls.Pairwise fun x y => x.1 ≤ y.1) (hfits : ∀ x ∈ calls, x.2.FitsAt x.1) :
    answersTo (fun now call => (Redis.call call).run (server.answer now.toNat)) calls s =
      answersTo (fun now call m => m.call now call) calls Memory.empty := by
  have hfirst : ∀ x ∈ calls, 0 ≤ x.1 := fun x _ => UInt64.zero_le
  have hstart : (server.contents s).SameFrom (UInt64.toNat 0) .empty := by
    rw [hempty]
    exact .refl _ _
  have hclient := hserver.keepsContract.answers hreadings hfits hfirst hstart
  have hmemory := Memory.keepsContract.answers hreadings hfits hfirst (Memory.showsFrom_empty 0)
  exact hclient.trans hmemory.symm

/-! ## A server made of contents -/

/-- The number that digits stand for. -/
def digitsValue (text : String) : Nat := Nat.ofDigitChars 10 text.toList 0

theorem digitsValue_toString (p : Nat) : digitsValue (toString p) = p := by
  show Nat.ofDigitChars 10 p.repr.toList 0 = p
  rw [Nat.toList_repr, Nat.ofDigitChars_toDigits (by decide) (by decide)]

/-- A server that is its contents and whether it knows the script. -/
def plain : Server (Contents × Bool) where
  contents s := s.1
  knows s := s.2
  answer now command s :=
    match command with
    | ["GET", key] => ((s.1 now key).elim .nil .bulk, s)
    | ["SET", key, value, "PX", millis] =>
      (.status "OK", s.1.put key value (now + digitsValue millis), s.2)
    | ["SET", key, value, "NX", "PX", millis] =>
      if (s.1 now key).isSome then (.nil, s)
      else (.status "OK", s.1.put key value (now + digitsValue millis), s.2)
    | ["DEL", key] => (.int (if (s.1 now key).isSome then 1 else 0), s.1.erase key, s.2)
    | ["EVALSHA", _, "1", key, expected] =>
      if !s.2 then (.error "NOSCRIPT No matching script. Please use EVAL.", s)
      else if s.1 now key = some expected then (.int 1, s.1.erase key, s.2)
      else (.int 0, s)
    | ["SCRIPT", "LOAD", _] => (.bulk deleteDigest, s.1, true)
    | _ => (.error "ERR unknown command", s)

theorem plain_documented : plain.Documented where
  get now s key := ⟨rfl, .refl now _⟩
  set now s key value p _ := by
    refine ⟨rfl, ?_⟩
    show Contents.SameFrom now (s.1.put key value (now + digitsValue (toString p))) _
    rw [digitsValue_toString]
    exact .refl now _
  setAbsent now s key value p _ hnone := by
    have hfree : s.1 now key = none := hnone
    simp only [Does, plain, hfree, Option.isSome_none, Bool.false_eq_true, if_false,
      digitsValue_toString, true_and]
    exact .refl now _
  setPresent now s key value p _ hsome := by
    have hthere : (s.1 now key).isSome = true := Option.isSome_iff_ne_none.mpr hsome
    simp only [Does, plain, hthere, if_true, true_and]
    exact .refl now _
  delete now s key := ⟨_, rfl, .refl now _⟩
  compareEqual now s key expected hknown hkey := by
    have hscript : s.2 = true := hknown
    have hequal : s.1 now key = some expected := hkey
    simp only [Does, plain, hscript, hequal, Bool.not_true, Bool.false_eq_true, if_true, if_false,
      true_and]
    exact .refl now _
  compareOther now s key expected hknown hkey := by
    have hscript : s.2 = true := hknown
    have hother : ¬ s.1 now key = some expected := hkey
    simp only [Does, plain, hscript, hother, Bool.not_true, Bool.false_eq_true, if_false, true_and]
    exact .refl now _
  unknown now s key expected hunknown := by
    have hscript : s.2 = false := hunknown
    refine ⟨"No matching script. Please use EVAL.", ?_⟩
    simp only [Does, plain, hscript, Bool.not_false, if_true]
    exact ⟨rfl, .refl now _⟩
  load now s := ⟨⟨rfl, .refl now _⟩, rfl⟩

/-- A lock that expires and is taken over, and that is deleted by its new owner only. -/
theorem redis_answers_as_memory_lock :
    let ttl : Duration := .ofMillis 100
    let calls : List (UInt64 × StoreCall) := [
      (0, .setIfAbsent "lock" "a" ttl), (99, .setIfAbsent "lock" "b" ttl),
      (100, .setIfAbsent "lock" "b" ttl), (120, .deleteIfEqual "lock" "a"), (120, .get "lock"),
      (130, .deleteIfEqual "lock" "b"), (130, .get "lock")]
    plain.Documented ∧ calls.Pairwise (fun x y => x.1 ≤ y.1) ∧ (∀ x ∈ calls, x.2.FitsAt x.1) ∧
      answersTo (fun now call => (Redis.call call).run (plain.answer now.toNat)) calls
        (.empty, false) =
        [⟨.setIfAbsent "lock" "a" ttl, .ok true⟩, ⟨.setIfAbsent "lock" "b" ttl, .ok false⟩,
          ⟨.setIfAbsent "lock" "b" ttl, .ok true⟩, ⟨.deleteIfEqual "lock" "a", .ok false⟩,
          ⟨.get "lock", .ok (some "b")⟩, ⟨.deleteIfEqual "lock" "b", .ok true⟩,
          ⟨.get "lock", .ok none⟩] := by
  intro ttl calls
  have hreadings : calls.Pairwise fun x y => x.1 ≤ y.1 := by
    simp only [calls]
    decide
  have hfits : ∀ x ∈ calls, x.2.FitsAt x.1 := by
    simp only [calls]
    decide +kernel
  refine ⟨plain_documented, hreadings, hfits, ?_⟩
  rw [redis_answers_as_memory plain plain_documented _ rfl calls hreadings hfits]
  decide +kernel

end Server

end FlowControl.Redis
