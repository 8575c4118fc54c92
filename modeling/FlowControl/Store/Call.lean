import FlowControl.Duration

/-!
# The calls of a shared store

Limiters keep their state and locks in a store of texts, each with a time to
live.  A conditional write and a conditional delete are single steps; locks are
built on these two.
-/

namespace FlowControl

/-- Why a store could not answer. -/
inductive StoreFault where
  | unavailable (reason : String)
  | corrupt (key reason : String)
  deriving DecidableEq, Repr

/-- The wording of a store fault. -/
def StoreFault.message : StoreFault → String
  | .unavailable reason => s!"store unavailable: {reason}"
  | .corrupt key reason => s!"corrupt value under {key}: {reason}"

/-- A call of the store. -/
inductive StoreCall where
  | get (key : String)
  | set (key value : String) (ttl : Duration)
  | setIfAbsent (key value : String) (ttl : Duration)
  | deleteIfEqual (key expected : String)
  | delete (key : String)
  deriving DecidableEq, Repr

/-- The kinds of calls, by which faults and delays are set. -/
inductive StoreMethod where
  | get
  | set
  | setIfAbsent
  | deleteIfEqual
  | delete
  deriving DecidableEq, Repr

namespace StoreCall

/-- The kind of a call. -/
def method : StoreCall → StoreMethod
  | .get _ => .get
  | .set .. => .set
  | .setIfAbsent .. => .setIfAbsent
  | .deleteIfEqual .. => .deleteIfEqual
  | .delete _ => .delete

/-- The key a call is about. -/
def key : StoreCall → String
  | .get key | .set key _ _ | .setIfAbsent key _ _ | .deleteIfEqual key _ | .delete key => key

/-- What a call answers: a text if there is one, whether a condition held, or nothing. -/
abbrev Value : StoreCall → Type
  | .get _ => Option String
  | .set .. => Unit
  | .setIfAbsent .. => Bool
  | .deleteIfEqual .. => Bool
  | .delete _ => Unit

end StoreCall

/-- The name of a kind of call. -/
def StoreMethod.name : StoreMethod → String
  | .get => "get"
  | .set => "set"
  | .setIfAbsent => "set_nx"
  | .deleteIfEqual => "delete_if_eq"
  | .delete => "delete"

/-- The kinds of calls by name. -/
def StoreMethod.named : List (String × StoreMethod) :=
  [.get, .set, .setIfAbsent, .deleteIfEqual, .delete].map fun m => (m.name, m)

/-- The kind of calls of a name. -/
def StoreMethod.ofName? (name : String) : Option StoreMethod := named.lookup name

theorem StoreMethod.ofName?_name (m : StoreMethod) : ofName? m.name = some m := by
  cases m <;> decide

end FlowControl
