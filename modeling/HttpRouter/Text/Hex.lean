import HttpRouter.Text.Utf8

set_option autoImplicit false

namespace HttpRouter.Hex

def value? (c : Char) : Option Nat :=
  if '0' ≤ c ∧ c ≤ '9' then some (c.toNat - '0'.toNat)
  else if 'a' ≤ c ∧ c ≤ 'f' then some (c.toNat - 'a'.toNat + 10)
  else if 'A' ≤ c ∧ c ≤ 'F' then some (c.toNat - 'A'.toNat + 10)
  else none

def digit (n : Nat) : Char := Nat.digitChar (n % 16)

/-- The number that a text of hexadecimal digits spells; empty text spells zero. -/
def number? (text : Text) : Option Nat :=
  text.foldlM (fun n c => (value? c).map (n * 16 + ·)) 0

/-- Digits of a number without leading zeros. -/
def ofNat (n : Nat) : Text := Nat.toDigits 16 n

def ofByte (b : UInt8) : Text := [digit (b.toNat / 16), digit b.toNat]

def ofBytes (bytes : Bytes) : Text := bytes.flatMap ofByte

def bytes? : Text → Option Bytes
  | [] => some []
  | a :: b :: rest => do
    let high ← value? a
    let low ← value? b
    let others ← bytes? rest
    pure (Utf8.byte (high * 16 + low) :: others)
  | [_] => none

end HttpRouter.Hex
