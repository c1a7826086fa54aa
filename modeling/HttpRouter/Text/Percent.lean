import HttpRouter.Text.Hex

set_option autoImplicit false

namespace HttpRouter.Percent

def digit? (b : UInt8) : Option Nat := Hex.value? (Char.ofNat b.toNat)

def escaped? (sign high low : UInt8) : Option UInt8 := do
  guard (sign = 0x25)
  let h ← digit? high
  let l ← digit? low
  pure (Utf8.byte (h * 16 + l))

def decode : Bytes → Bytes
  | sign :: high :: low :: rest =>
    match escaped? sign high low with
    | some b => b :: decode rest
    | none => sign :: decode (high :: low :: rest)
  | short => short

end HttpRouter.Percent
