import FlowControl.Text.Hex

/-!
# Octets written with percent signs

A percent sign with two hexadecimal digits stands for one octet, every other character
for the octets of its UTF-8 form.  The octets need not be a text.
-/

namespace FlowControl.Text

/-- The octets that a text with percent signs stands for. -/
def octets : List Char → List UInt8
  | '%' :: a :: b :: s =>
    match hexDigit? a, hexDigit? b with
    | some high, some low => (high * 16 + low).toUInt8 :: octets s
    | _, _ => 37 :: octets (a :: b :: s)
  | c :: s => String.utf8EncodeChar c ++ octets s
  | [] => []

/-- The text that a text with percent signs stands for, if its octets are one. -/
def percentDecoded? (s : List Char) : Option String :=
  String.fromUTF8? (octets s).toByteArray

/-- The same where a plus sign stands for a blank. -/
def formDecoded? (s : List Char) : Option String :=
  percentDecoded? (s.map fun c => if c = '+' then ' ' else c)

/-- The named values of a form, in order; a part without an equals sign has an empty value. -/
def formValues (s : List Char) : List (Option String × Option String) :=
  let parts := ((String.ofList s).splitOn "&").filter (!·.isEmpty)
  parts.map fun part =>
    let (name, value) := part.toList.span (· != '=')
    (formDecoded? name, formDecoded? (value.drop 1))

end FlowControl.Text
