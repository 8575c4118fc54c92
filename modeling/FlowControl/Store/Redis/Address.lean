import FlowControl.Store.Redis.Client
import FlowControl.Text.Locator
import FlowControl.Text.Percent

/-!
# Addresses of Redis servers

An address is a locator that names an endpoint of a host or a socket among the files, a
database, and perhaps a user and a password.  Connecting fails if the address cannot be
read or if the network cannot reach the place.
-/

namespace FlowControl.Redis

open Text (Locator)

/-- Where a server listens. -/
inductive Place where
  | endpoint (host : String) (number : Nat)
  | socket (path : String)
  deriving DecidableEq, Repr

/-- A place, a database, and who connects. -/
structure Address where
  place : Place
  database : Int
  user : Option String
  password : Option String
  deriving DecidableEq, Repr

namespace Address

/-- The endpoint of an address that names none. -/
def standardEndpoint : Nat := 6379

/-- A name that a locator gives with percent signs; an empty one is none. -/
def decoded (fault : Fault) (s : List Char) : Except Fault (Option String) :=
  if s.isEmpty then .ok none
  else
    match Text.percentDecoded? s with
    | some name => .ok (some name)
    | none => .error fault

/-- The database that the steps of a path name. -/
def databaseOf (steps : List String) : Except Fault Int :=
  let isSlash := fun c : Char => c == '/'
  let name := ("/".intercalate steps).toList.dropWhile isSlash
  let name := (name.reverse.dropWhile isSlash).reverse
  if name.isEmpty then .ok 0
  else
    match Reply.number? (String.ofList name) with
    | some number => .ok number
    | none => .error .badDatabase

/-- The address of an endpoint of a host. -/
def ofHost (l : Locator) : Except Fault Address := do
  if l.host.isEmpty then throw .noHost
  if l.scheme = "rediss" then throw .noEncryption
  let database ← databaseOf l.steps
  let user ← decoded .badUser l.user
  let password ← decoded .badPassword l.password
  let host := String.ofList (l.host.filter fun c => c != '[' && c != ']')
  pure ⟨.endpoint host (l.endpoint.getD standardEndpoint), database, user, password⟩

/-- The last value of a name in a query. -/
def valueIn (query : List (Option String × Option String)) (name : String) :
    Option (Option String) :=
  query.reverse.lookup (some name)

/-- The address of a socket among the files, on this machine. -/
def ofFile (l : Locator) : Except Fault Address := do
  if l.steps.isEmpty || !(l.host.isEmpty || l.host == "localhost".toList) then throw .noPath
  let values := Text.formValues l.query
  let database ← match valueIn values "db" with
    | none => pure 0
    | some text =>
      match text >>= Reply.number? with
      | some number => pure number
      | none => throw .badDatabase
  let place := Place.socket ("/" ++ "/".intercalate l.steps)
  pure ⟨place, database, (valueIn values "user").join, (valueIn values "pass").join⟩

/-- The address that a text gives. -/
def parse (text : String) : Except Fault Address :=
  match Locator.parse? text with
  | none => .error .badAddress
  | some l =>
    if l.scheme = "redis" ∨ l.scheme = "rediss" then ofHost l
    else if l.scheme = "unix" ∨ l.scheme = "redis+unix" then ofFile l
    else .error .badAddress

end Address

/-- Can hosts be reached? -/
inductive Network where
  | reachable
  | unreachable
  deriving DecidableEq, Repr

/-- Is a host known without asking for its address? -/
def isKnownHost (host : String) : Bool :=
  host = "localhost" || host.toList.contains ':' || Text.isDottedAddress host.toList

/-- The fault of a place where no network reaches a host and no socket is open. -/
def unreachable : Place → Fault
  | .endpoint host _ =>
    if isKnownHost host then .network "Network is unreachable (os error 101)"
    else
      .network "failed to lookup address information: Temporary failure in name resolution"
  | .socket _ => .network "No such file or directory (os error 2)"

/-- Connects to the server at an address. -/
def connect (network : Network) (text : String) : Except StoreFault Address :=
  match Address.parse text, network with
  | .error fault, _ => .error fault.toStore
  | .ok address, .unreachable => .error (unreachable address.place).toStore
  | .ok address, .reachable => .ok address

end FlowControl.Redis
