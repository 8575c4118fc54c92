/-!
# Writing values

Texts of values without any blanks.  Strings are quoted so that readers give the
same characters back: quotes, backslashes and control characters are escaped and
nothing else is.
-/

namespace FlowControl.Json

/-- A digit in base sixteen. -/
def hexDigit (n : Nat) : Char := Nat.digitChar n

/-- One character of a quoted string. -/
def escapedChar (c : Char) : List Char :=
  if c = '"' then ['\\', '"']
  else if c = '\\' then ['\\', '\\']
  else if c = '\n' then ['\\', 'n']
  else if c = '\r' then ['\\', 'r']
  else if c = '\t' then ['\\', 't']
  else if c = '\x08' then ['\\', 'b']
  else if c = '\x0c' then ['\\', 'f']
  else if c.toNat < 0x20 then
    ['\\', 'u', '0', '0', hexDigit (c.toNat / 16), hexDigit (c.toNat % 16)]
  else [c]

/-- The text of a string value. -/
def stringText (s : String) : String :=
  String.ofList ('"' :: s.toList.flatMap escapedChar ++ ['"'])

/-- The text of a truth value. -/
def boolText (b : Bool) : String := if b then "true" else "false"

/-- The text of a list of values from their texts. -/
def listText (items : List String) : String := "[" ++ String.intercalate "," items ++ "]"

/-- The text of an object from names and the texts of values. -/
def objectText (members : List (String × String)) : String :=
  "\x7b" ++ String.intercalate "," (members.map fun m => stringText m.1 ++ ":" ++ m.2) ++ "\x7d"

end FlowControl.Json
