import HttpRouter.Text.Cut

set_option autoImplicit false

namespace HttpRouter.Scalar

def digits? (text : Text) : Option Nat := do
  guard (!text.isEmpty && text.all Char.isDigit)
  pure (text.foldl (fun n c => n * 10 + (c.toNat - '0'.toNat)) 0)

def int? (least greatest : Int) (text : Text) : Option Int := do
  let n : Int ← match text with
    | '+' :: rest => (digits? rest).map Int.ofNat
    | '-' :: rest => if least < 0 then (digits? rest).map fun n => -(n : Int) else none
    | rest => (digits? rest).map Int.ofNat
  guard (least ≤ n && n ≤ greatest)
  pure n

def int64? : Text → Option Int := int? (-9223372036854775808) 9223372036854775807

def nat64? : Text → Option Int := int? 0 18446744073709551615

def nat8? : Text → Option Int := int? 0 255

def bool? (text : Text) : Option Bool :=
  if text = "true".toList then some true
  else if text = "false".toList then some false
  else none

def char? : Text → Option Char
  | [c] => some c
  | _ => none

end HttpRouter.Scalar
