import FlowControl.Json.Record
import FlowControl.Limiter.TokenState

/-!
# The stored text of a bucket

A state is stored as an object of its two numbers.  Reading accepts any such
object with both numbers, in either order and among other members.
-/

namespace FlowControl.TokenState

/-- The text under which a state is stored. -/
def encode (s : TokenState) : String :=
  "\x7b\"tokens\":" ++ toString s.tokens.toNat ++ ",\"last_refill_at\":" ++
    toString s.lastRefillAt.toNat ++ "\x7d"

/-- A number of 64 bits. -/
def number : Json.Reader UInt64 := fun s =>
  (Json.natural Word.maxNat "u64" s).map fun (n, rest) => (UInt64.ofNat n, rest)

/-- The two numbers of a state, both required. -/
def shape : Json.Shape TokenState where
  name := "TokenBucketState"
  fields := [
    Json.field "tokens" number fun n s => { s with tokens := n },
    Json.field "last_refill_at" number fun n s => { s with lastRefillAt := n }]
  base := ⟨0, 0⟩
  complete := true

/-- The state that a text holds. -/
def parse (text : String) : Except Json.Fault TokenState := Json.readText shape.read text

end FlowControl.TokenState
