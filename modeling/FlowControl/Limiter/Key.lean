/-!
# Identities of limiters

A limiter belongs to a service, a caller and a route.  Its state and its lock are
kept in the store under two keys that join these parts by colons.  The parts are
not escaped, so parts that hold colons themselves may join to the same key.
-/

namespace FlowControl

/-- Who is limited on which route of which service. -/
structure LimiterKey where
  service : String
  caller : String
  method : String
  path : String
  deriving DecidableEq, Repr

namespace LimiterKey

/-- The parts joined by colons, with a marker behind the service. -/
def join (k : LimiterKey) (marker : String) : String :=
  k.service ++ ":" ++ marker ++ ":" ++ k.caller ++ ":" ++ k.method ++ ":" ++ k.path

/-- The store key of the limiter's state. -/
def stateKey (k : LimiterKey) : String := k.join "rl"

/-- The store key of the limiter's lock. -/
def lockKey (k : LimiterKey) : String := k.join "rll"

/-- How a key is named in messages and events. -/
def text (k : LimiterKey) : String := k.stateKey

/-- The parts in the order in which keys are compared. -/
def parts (k : LimiterKey) : List String := [k.service, k.caller, k.method, k.path]

/-- Is one list of parts before or equal to another, part by part? -/
def partsLe : List String → List String → Bool
  | [], _ => true
  | _ :: _, [] => false
  | a :: as, b :: bs => if a = b then partsLe as bs else decide (a < b)

/-- The order of keys: by service, then caller, method and path. -/
def le (a b : LimiterKey) : Bool := partsLe a.parts b.parts

/-- The positions of a list of keys in the order of the keys; equal keys keep their order. -/
def order (ks : List LimiterKey) : List Nat :=
  ((ks.zipIdx).mergeSort (fun a b => le a.1 b.1)).map Prod.snd

/-- The number of different keys in a list. -/
def distinct (ks : List LimiterKey) : Nat := ks.eraseDups.length

end LimiterKey

end FlowControl
