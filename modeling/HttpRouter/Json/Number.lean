import HttpRouter.Text.Cut

set_option autoImplicit false

/-!
# Numbers of JSON

A number is an integer of 64 bits, signed or unsigned, or a decimal.  Decimals are kept in lowest
terms, so that a value has one form however many zeros it was written with.
-/
namespace HttpRouter.Json

/-- The number `coefficient * 10 ^ exponent` with its sign. -/
structure Decimal where
  negative : Bool
  coefficient : Nat
  exponent : Int
deriving DecidableEq, Repr

namespace Decimal

/-- Takes the factors of ten out of a coefficient, of which there are fewer than `fuel`. -/
def reduce : Nat → Nat → Int → Nat × Int
  | 0, n, e => (n, e)
  | fuel + 1, n, e => if n ≠ 0 ∧ n % 10 = 0 then reduce fuel (n / 10) (e + 1) else (n, e)

/-- The least magnitude that the largest finite number of double precision does not stand for. -/
def bound : Nat := Nat.pow 2 1024 - Nat.pow 2 970

/-- The decimal in lowest terms, if it lies in the range of double precision. -/
def make? (negative : Bool) (n : Nat) (e : Int) : Option Decimal :=
  let digits := (Nat.toDigits 10 n).length
  if n = 0 ∨ digits + e < -330 then some ⟨negative, 0, 0⟩
  else if digits + e > 400 then none
  else if n * Nat.pow 10 e.toNat ≥ bound * Nat.pow 10 (-e).toNat then none
  else
    let (n, e) := reduce digits n e
    some ⟨negative, n, e⟩

/-- Positional notation with a point, or scientific notation when the point lies beyond the
sixteenth digit or more than five zeros before the first. -/
def render (d : Decimal) : Text :=
  let digits := Nat.toDigits 10 d.coefficient
  let sign := if d.negative then ['-'] else []
  let point : Int := digits.length + d.exponent
  let zeros (n : Int) : Text := List.replicate n.toNat '0'
  sign ++
    if d.coefficient = 0 then ['0', '.', '0']
    else if 0 ≤ d.exponent ∧ point ≤ 16 then digits ++ zeros d.exponent ++ ['.', '0']
    else if 0 < point ∧ point ≤ 16 then
      digits.take point.toNat ++ '.' :: digits.drop point.toNat
    else if -5 < point ∧ point ≤ 0 then '0' :: '.' :: (zeros (-point) ++ digits)
    else
      let fraction := if digits.length = 1 then [] else '.' :: digits.drop 1
      digits.take 1 ++ fraction ++ 'e' :: (toString (point - 1)).toList

end Decimal

inductive Number where
  | int (n : Int)
  | decimal (d : Decimal)
deriving DecidableEq, Repr

namespace Number

/-- Integers beyond 64 bits are decimals, and so is the negative zero. -/
def ofInteger? (negative : Bool) (n : Nat) : Option Number :=
  if negative then
    if 0 < n ∧ n ≤ Nat.pow 2 63 then some (.int (-n)) else (Decimal.make? true n 0).map .decimal
  else if n < Nat.pow 2 64 then some (.int n) else (Decimal.make? false n 0).map .decimal

def render : Number → Text
  | int n => (toString n).toList
  | decimal d => d.render

def digits : Text → Text × Text := List.span Char.isDigit

def value (digits : Text) : Nat := digits.foldl (fun n c => n * 10 + (c.toNat - '0'.toNat)) 0

/-- Digits behind a point; the point must be followed by one. -/
def readFraction : Text → Option (Text × Text)
  | '.' :: rest =>
    match digits rest with
    | ([], _) => none
    | found => some found
  | rest => some ([], rest)

def readExponent (text : Text) : Option (Option Int × Text) :=
  let signed (negative : Bool) (rest : Text) : Option (Option Int × Text) :=
    match digits rest with
    | ([], _) => none
    | (found, rest) => some (some (if negative then -(value found) else value found), rest)
  match text with
  | 'e' :: '-' :: rest | 'E' :: '-' :: rest => signed true rest
  | 'e' :: '+' :: rest | 'E' :: '+' :: rest => signed false rest
  | 'e' :: rest | 'E' :: rest => signed false rest
  | rest => some (none, rest)

/-- A number after its sign.  The whole part has no leading zero. -/
def readUnsigned (negative : Bool) (text : Text) : Option (Number × Text) := do
  let (whole, rest) := digits text
  guard (whole == ['0'] || (!whole.isEmpty && whole.head? != some '0'))
  let (fraction, rest) ← readFraction rest
  let (exponent, rest) ← readExponent rest
  if fraction.isEmpty && exponent.isNone then
    pure (← ofInteger? negative (value whole), rest)
  else
    let d ← Decimal.make? negative (value (whole ++ fraction))
      (exponent.getD 0 - fraction.length)
    pure (.decimal d, rest)

def read : Text → Option (Number × Text)
  | '-' :: rest => readUnsigned true rest
  | rest => readUnsigned false rest

end Number
end HttpRouter.Json
