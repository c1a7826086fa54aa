import HttpRouter.Text.Percent

set_option autoImplicit false

namespace HttpRouter.Query

def plusToBlank (text : Text) : Text := text.map fun c => if c = '+' then ' ' else c

def decode (text : Text) : Text :=
  Utf8.decodeLossy (Percent.decode (Utf8.encode (plusToBlank text)))

/-- A pair without an equals sign has an empty value. -/
def pair (text : Text) : Text × Text :=
  let (key, value) := Text.cut '=' text
  (decode key, decode value)

/-- The pairs in the order in which they are written; empty pairs are left out. -/
def pairs (query : Text) : List (Text × Text) :=
  ((Text.pieces '&' query).filter (!·.isEmpty)).map pair

def first? (key : Text) (pairs : List (Text × Text)) : Option Text :=
  (pairs.find? fun pair => pair.1 == key).map (·.2)

end HttpRouter.Query
