import HttpRouter.Text.Cut

set_option autoImplicit false

/-!
# UTF-8

`encode` writes characters as bytes.  `scan` reads bytes back, one byte at a time, and marks every
longest malformed run with `none`; `decode?` refuses such a run and `decodeLossy` puts the
replacement character in its place.
-/
namespace HttpRouter

abbrev Bytes := List UInt8

namespace Utf8

def byte (n : Nat) : UInt8 := UInt8.ofNat n

def encodeChar (c : Char) : Bytes :=
  let n := c.toNat
  if n < 0x80 then [byte n]
  else if n < 0x800 then [byte (0xc0 + n / 64), byte (0x80 + n % 64)]
  else if n < 0x10000 then
    [byte (0xe0 + n / 4096), byte (0x80 + n / 64 % 64), byte (0x80 + n % 64)]
  else
    [byte (0xf0 + n / 262144), byte (0x80 + n / 4096 % 64), byte (0x80 + n / 64 % 64),
      byte (0x80 + n % 64)]

def encode (text : Text) : Bytes := text.flatMap encodeChar

/-- Where the reader stands: between characters, or `missing` bytes before the end of one, the next
of which must lie between `low` and `high`; `value` holds the bits read so far. -/
inductive State where
  | start
  | inside (missing low high value : Nat)
deriving DecidableEq, Repr

/-- The first byte of a character: what it completes or spoils, and the state after it. -/
def first (b : Nat) : List (Option Char) × State :=
  if b < 0x80 then ([some (Char.ofNat b)], .start)
  else if b < 0xc2 then ([none], .start)
  else if b < 0xe0 then ([], .inside 1 0x80 0xbf (b - 0xc0))
  else if b = 0xe0 then ([], .inside 2 0xa0 0xbf 0)
  else if b = 0xed then ([], .inside 2 0x80 0x9f 0xd)
  else if b < 0xf0 then ([], .inside 2 0x80 0xbf (b - 0xe0))
  else if b = 0xf0 then ([], .inside 3 0x90 0xbf 0)
  else if b < 0xf4 then ([], .inside 3 0x80 0xbf (b - 0xf0))
  else if b = 0xf4 then ([], .inside 3 0x80 0x8f 4)
  else ([none], .start)

/-- One byte: the characters or malformed runs that end with or before it, and the next state. -/
def step : State → Nat → List (Option Char) × State
  | .start, b => first b
  | .inside missing low high value, b =>
    if low ≤ b ∧ b ≤ high then
      let value := value * 64 + (b - 0x80)
      if missing ≤ 1 then ([some (Char.ofNat value)], .start)
      else ([], .inside (missing - 1) 0x80 0xbf value)
    else
      let (out, next) := first b
      (none :: out, next)

def scanFrom : State → Bytes → List (Option Char)
  | .start, [] => []
  | .inside .., [] => [none]
  | state, b :: rest =>
    let (out, next) := step state b.toNat
    out ++ scanFrom next rest

def scan (bytes : Bytes) : List (Option Char) := scanFrom .start bytes

def decode? (bytes : Bytes) : Option Text := (scan bytes).mapM id

/-- Malformed runs become U+FFFD, one for each. -/
def decodeLossy (bytes : Bytes) : Text := (scan bytes).map (·.getD '\uFFFD')

end Utf8
end HttpRouter
