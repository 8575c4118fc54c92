import FlowControl.Routine
import FlowControl.Store.Call
import FlowControl.Store.Redis.Reply

/-!
# A store on a Redis server

Every call of the store becomes one command, or for the conditional delete a
script.  Times to live are whole milliseconds and at least one.  The script is
called by its digest; a server that does not know it is given its text first.
-/

namespace FlowControl.Redis

/-- Commands are lists of texts, answered by replies; nothing is held. -/
def interface : Interface := ⟨List String, fun _ => Reply, Empty⟩

/-- A program that sends commands. -/
abbrev Program (α : Type) := Routine interface α

/-- Sends a command. -/
def send (command : List String) : Program Reply := Routine.request (I := interface) command

/-- The script that deletes a key if it holds a value. -/
def deleteScript : String :=
  "\nif redis.call(\"GET\", KEYS[1]) == ARGV[1] then\n    return redis.call(\"DEL\", KEYS[1])\n" ++
    "else\n    return 0\nend\n"

/-- The digest by which the server knows the script. -/
def deleteDigest : String := "aefc6bbfaac1ed02c135d12b12c8c42cdfb36af4"

/-- A time to live in whole milliseconds, at least one. -/
def ttlText (ttl : Duration) : String := toString (max ttl.millisWord.toNat 1)

/-- The command of a call. -/
def command : StoreCall → List String
  | .get key => ["GET", key]
  | .set key value ttl => ["SET", key, value, "PX", ttlText ttl]
  | .setIfAbsent key value ttl => ["SET", key, value, "NX", "PX", ttlText ttl]
  | .deleteIfEqual key expected => ["EVALSHA", deleteDigest, "1", key, expected]
  | .delete key => ["DEL", key]

/-- The command that makes the script known. -/
def loadScript : List String := ["SCRIPT", "LOAD", deleteScript]

/-- The value of a call from the reply to its command. -/
def valueOf : (c : StoreCall) → Reply → Except Fault c.Value
  | .get _, r => r.asText
  | .set .., r => r.asDone
  | .setIfAbsent .., r => r.asText.map Option.isSome
  | .deleteIfEqual .., r => r.asNumber.map (· == 1)
  | .delete _, r => r.asDone

/-- The store fault of a fault of the client. -/
def Fault.toStore (f : Fault) : StoreFault := .unavailable f.message

/-- Does a reply say that the server does not know a script? -/
def Reply.isNoScript : Reply → Bool
  | .error line => (Fault.ofLine line).isNoScript
  | _ => false

/-- The reply to the command of a call, after making the script known if need be. -/
def replyTo (c : StoreCall) : Program (Except Fault Reply) := do
  let reply ← send (command c)
  match c, reply.isNoScript with
  | .deleteIfEqual .., true =>
    match (← send loadScript).asDone with
    | .error fault => pure (.error fault)
    | .ok () => pure (.ok (← send (command c)))
  | _, _ => pure (.ok reply)

/-- Makes a call of the store. -/
def call (c : StoreCall) : Program (Except StoreFault c.Value) := do
  match ← replyTo c with
  | .error fault => pure (.error fault.toStore)
  | .ok reply => pure ((valueOf c reply).mapError Fault.toStore)

/-- A server that plays a script: the replies it has left, and the commands it was sent,
last first. -/
structure ScriptedServer where
  replies : List Reply
  received : List (List String)

/-- The next reply of the script, nothing once it has ended. -/
def ScriptedServer.answer (command : List String) (s : ScriptedServer) :
    Reply × ScriptedServer :=
  (s.replies.head?.getD .nil, ⟨s.replies.drop 1, command :: s.received⟩)

/-- Makes a call to a server that plays a script: its value, and the commands sent. -/
def callScripted (c : StoreCall) (replies : List Reply) :
    Except StoreFault c.Value × List (List String) :=
  let (value, s) := (call c).run ScriptedServer.answer ⟨replies, []⟩
  (value, s.received.reverse)

end FlowControl.Redis
