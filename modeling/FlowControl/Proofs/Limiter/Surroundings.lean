import FlowControl.Limiter.Bucket
import FlowControl.Proofs.Limiter.StoreKeys
import FlowControl.Proofs.Store.Live

/-!
# The surroundings of locks and buckets

At one reading of the clock a question of a lock or a bucket is answered from the
store alone: store calls by a rule, the clock by its reading, pauses and reports by
nothing.  How long a pause takes is not seen here; it shows in the reading at which
the next question is answered.
-/

namespace FlowControl

/-- How a store answers a call at a reading of the clock. -/
abbrev StoreRule := Memory → UInt64 → (c : StoreCall) → Except StoreFault c.Value × Memory

/-- Answers what a program asks while the clock shows one reading. -/
def Limiter.answerAt (rule : StoreRule) (now : UInt64) :
    (ask : Limiter.interface.Request) → Memory → Limiter.interface.Answer ask × Memory
  | .store call, m => rule m now call
  | .now, m => (now, m)
  | .pause _, m => ((), m)
  | .note _, m => ((), m)

namespace Limiter

variable {rule : StoreRule} {now : UInt64} {m : Memory}

theorem run_store (c : StoreCall) : (store c).run (answerAt rule now) m = rule m now c := rfl

theorem run_now : Limiter.now.run (answerAt rule now) m = (now, m) := rfl

theorem run_note (event : LimiterEvent) :
    (note event).run (answerAt rule now) m = ((), m) := rfl

theorem answerAt_try_of_live {key token other : String} {ttl : Duration}
    (hup : m.unavailable = false) (h : m.live? key now = some other) :
    answerAt Memory.call now (.store (.setIfAbsent key token ttl)) m =
      (.ok false, m.purge key now) := by
  show m.call now _ = _
  rw [Memory.call_of_available hup, Memory.answer_setIfAbsent_of_live h]

theorem answerAt_try_of_free {key token : String} {ttl : Duration}
    (hup : m.unavailable = false) (h : m.live? key now = none) :
    answerAt Memory.call now (.store (.setIfAbsent key token ttl)) m =
      (.ok true, m.put key ⟨token, Memory.expiry now ttl⟩) := by
  show m.call now _ = _
  rw [Memory.call_of_available hup, Memory.answer_setIfAbsent_of_free h]

theorem answerAt_delete_of_ne {key token : String} (hup : m.unavailable = false)
    (h : m.live? key now ≠ some token) :
    answerAt Memory.call now (.store (.deleteIfEqual key token)) m =
      (.ok false, m.purge key now) := by
  show m.call now _ = _
  rw [Memory.call_of_available hup, Memory.answer_deleteIfEqual_of_ne h]

end Limiter

theorem LimiterKey.lockKey_ne_stateKey (k : LimiterKey) : k.lockKey ≠ k.stateKey :=
  (stateKey_ne_lockKey rfl).symm

end FlowControl
