import HttpRouter.Text.Hex

set_option autoImplicit false

/-!
# Tables of code points

A table lists closed ranges of code points in ascending order.  Tables are written down as lines of
text, each range as `first-last` or as a single code point, in hexadecimal and with blanks between
them.
-/
namespace HttpRouter.Unicode

abbrev Ranges := List (Nat × Nat)

def Ranges.contains : Ranges → Nat → Bool
  | [], _ => false
  | (first, last) :: rest, n => first ≤ n && (n ≤ last || contains rest n)

def Ranges.read? (range : Text) : Option (Nat × Nat) := do
  let (first, last) := Text.cut '-' range
  let first ← Hex.number? first
  if last.isEmpty then pure (first, first) else pure (first, ← Hex.number? last)

def Ranges.ofHex (lines : List String) : Ranges :=
  lines.flatMap fun line => (Text.pieces ' ' line.toList).filterMap Ranges.read?

end HttpRouter.Unicode
