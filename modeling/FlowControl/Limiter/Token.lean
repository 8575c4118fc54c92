import FlowControl.Text.Hex

/-!
# Tokens of lock owners

A token is an identifier: groups of eight, four, four, four and twelve hexadecimal
digits with hyphens between them.  Tokens are numbered, and a seed that nobody else
knows keeps others from guessing them.
-/

namespace FlowControl.Limiter

/-- The token of a number under a seed. -/
def tokenText (seed : UInt64) (number : Nat) : String :=
  let digits := (Text.hexText 16 seed.toNat).toList
  let part (skipped length : Nat) := String.ofList ((digits.drop skipped).take length)
  "-".intercalate
    [part 0 8, part 8 4, "4" ++ part 12 3, "8" ++ part 15 1 ++ "00", Text.hexText 12 number]

/-- Is a text a token? -/
def isToken (text : String) : Bool :=
  let groups := text.splitOn "-"
  groups.map String.length == [8, 4, 4, 4, 12] && groups.all (·.toList.all Text.isHexDigit)

end FlowControl.Limiter
