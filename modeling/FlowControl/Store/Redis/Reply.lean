import FlowControl.Text.Quoted

/-!
# Replies of a Redis server

A reply is nothing, a text, a number, a status, or an error line.  What a command
expects decides how a reply is read; one that cannot be read, and every error
line, becomes a fault with the wording the client gives it.
-/

namespace FlowControl.Redis

/-- A reply of the server. -/
inductive Reply where
  | nil
  | bulk (text : String)
  | int (value : Int)
  | status (text : String)
  | error (line : String)
  deriving DecidableEq, Repr

/-- Why a command gave no value. -/
inductive Fault where
  | signalled (kind : String) (detail : Option String)
  | unknownCode (code : String) (detail : Option String)
  | unreadable (expected : String) (reply : Reply)
  | badAddress
  | badDatabase
  | noHost
  | noPath
  | noEncryption
  | badUser
  | badPassword
  | network (reason : String)
  deriving DecidableEq, Repr

/-- The codes of error lines that have a kind of their own. -/
def kinds : List (String × String) := [
  ("ERR", "ResponseError"), ("EXECABORT", "ExecAbortError"), ("LOADING", "BusyLoadingError"),
  ("NOSCRIPT", "NoScriptError"), ("MOVED", "Moved"), ("ASK", "Ask"), ("TRYAGAIN", "TryAgain"),
  ("CLUSTERDOWN", "ClusterDown"), ("CROSSSLOT", "CrossSlot"), ("MASTERDOWN", "MasterDown"),
  ("READONLY", "ReadOnly"), ("NOTBUSY", "NotBusy")]

/-- The fault of an error line: its first word is a code, the rest is the detail. -/
def Fault.ofLine (line : String) : Fault :=
  let cs := line.toList
  let code := String.ofList (cs.takeWhile (· != ' '))
  let detail := match cs.dropWhile (· != ' ') with
    | [] => none
    | _ :: rest => some (String.ofList rest)
  match kinds.lookup code with
  | some kind => .signalled kind detail
  | none => .unknownCode code detail

/-- Does the fault say that the server does not know a script? -/
def Fault.isNoScript : Fault → Bool
  | .signalled kind _ => kind == "NoScriptError"
  | _ => false

/-- How a reply is named in a message. -/
def Reply.describe : Reply → String
  | .nil => "nil"
  | .bulk text => s!"string-data('{Text.quoted text}')"
  | .int n => s!"int({n})"
  | .status text => if text = "OK" then "ok" else s!"status({Text.quoted text})"
  | .error line => s!"status({Text.quoted line})"

/-- A description and a kind, with a detail if there is one. -/
def worded (description kind : String) : Option String → String
  | some detail => s!"{description} - {kind}: {detail}"
  | none => s!"{description}- {kind}"

/-- The wording of a fault of an address. -/
def badConfig (description : String) : String := worded description "InvalidClientConfig" none

/-- The wording of a fault. -/
def Fault.message : Fault → String
  | .signalled kind detail => worded "An error was signalled by the server" kind detail
  | .unknownCode code detail =>
    code ++ ": " ++ detail.getD "Unknown extension error encountered"
  | .unreadable expected reply =>
    worded "Response was of incompatible type" "TypeError"
      (some s!"{Text.quoted expected} (response was {reply.describe})")
  | .badAddress => badConfig "Redis URL did not parse"
  | .badDatabase => badConfig "Invalid database number"
  | .noHost => badConfig "Missing hostname"
  | .noPath => badConfig "Missing path"
  | .noEncryption => badConfig "can't connect with TLS, the feature is not enabled"
  | .badUser => badConfig "Username is not valid UTF-8 string"
  | .badPassword => badConfig "Password is not valid UTF-8 string"
  | .network reason => reason

namespace Reply

/-- A reply whose value does not matter. -/
def asDone : Reply → Except Fault Unit
  | .error line => .error (.ofLine line)
  | _ => .ok ()

/-- A reply as a text, if there is one. -/
def asText : Reply → Except Fault (Option String)
  | .nil => .ok none
  | .bulk text | .status text => .ok (some text)
  | .int n => .error (.unreadable "Response type not string compatible." (.int n))
  | .error line => .error (.ofLine line)

/-- A number of 64 bits with its sign, in decimal digits. -/
def number? (text : String) : Option Int := do
  let (negative, ds) := match text.toList with
    | '-' :: ds => (true, ds)
    | '+' :: ds => (false, ds)
    | ds => (false, ds)
  if ds.isEmpty || !ds.all Char.isDigit then none
  else
    let n : Int := Nat.ofDigitChars 10 ds 0
    let n := if negative then -n else n
    if -9223372036854775808 ≤ n ∧ n ≤ 9223372036854775807 then some n else none

/-- A reply as a number. -/
def asNumber (r : Reply) : Except Fault Int :=
  let fromText (text : String) : Except Fault Int :=
    match number? text with
    | some n => .ok n
    | none => .error (.unreadable "Could not convert from string." r)
  match r with
  | .int n => .ok n
  | .bulk text => fromText text
  | .status text =>
    if text = "OK" then .error (.unreadable "Response type not convertible to numeric." r)
    else fromText text
  | .nil => .error (.unreadable "Response type not convertible to numeric." r)
  | .error line => .error (.ofLine line)

end Reply

end FlowControl.Redis
