/-!
# Blank characters

The characters with the white-space property, beyond the ASCII ones that core's
`Char.isWhitespace` knows.
-/

namespace FlowControl.Text

/-- Does the character have the white-space property? -/
def isBlank (c : Char) : Bool :=
  let n := c.toNat
  (9 ≤ n && n ≤ 13) || n == 0x20 || n == 0x85 || n == 0xA0 || n == 0x1680 ||
    (0x2000 ≤ n && n ≤ 0x200A) || n == 0x2028 || n == 0x2029 || n == 0x202F ||
    n == 0x205F || n == 0x3000

end FlowControl.Text
