import HttpRouter.Json.Basic
import HttpRouter.Text.Utf8
import HttpRouter.Text.Hex

set_option autoImplicit false

namespace HttpRouter.Json

def isBlank (c : Char) : Bool := c == ' ' || c == '\t' || c == '\n' || c == '\r'

def skip (text : Text) : Text := text.dropWhile isBlank

def readUnit : Text → Option (Nat × Text)
  | a :: b :: c :: d :: rest => (Hex.number? [a, b, c, d]).map (·, rest)
  | _ => none

/-- The character of one escaped unit, or of two where the first is the upper half of a pair. -/
def readEscaped (text : Text) : Option (Char × Text) := do
  let (unit, rest) ← readUnit text
  if 0xd800 ≤ unit ∧ unit < 0xdc00 then
    let '\\' :: 'u' :: rest := rest | none
    let (low, rest) ← readUnit rest
    guard (0xdc00 ≤ low && low < 0xe000)
    pure (Char.ofNat (0x10000 + (unit - 0xd800) * 0x400 + (low - 0xdc00)), rest)
  else
    guard (unit < 0xdc00 || 0xe000 ≤ unit)
    pure (Char.ofNat unit, rest)

/-- A string after its opening quotation mark; `read` holds its characters, latest first. -/
def readString : Nat → Text → Text → Option (Text × Text)
  | 0, _, _ => none
  | fuel + 1, read, text =>
    match text with
    | [] => none
    | '"' :: rest => some (read.reverse, rest)
    | '\\' :: c :: rest =>
      match c with
      | '"' | '\\' | '/' => readString fuel (c :: read) rest
      | 'b' => readString fuel ('\x08' :: read) rest
      | 'f' => readString fuel ('\x0c' :: read) rest
      | 'n' => readString fuel ('\n' :: read) rest
      | 'r' => readString fuel ('\r' :: read) rest
      | 't' => readString fuel ('\t' :: read) rest
      | 'u' =>
        match readEscaped rest with
        | some (c, rest) => readString fuel (c :: read) rest
        | none => none
      | _ => none
    | c :: rest => if c.toNat < 0x20 ∨ c = '\\' then none else readString fuel (c :: read) rest

def stripStart? (start : String) (text : Text) : Option Text :=
  if Text.startsWith text start.toList then some (text.drop start.length) else none

mutual

/-- A value without blanks before it, with at most `depth` arrays and objects inside one another. -/
def readValue : Nat → Nat → Text → Option (Json × Text)
  | 0, _, _ => none
  | fuel + 1, depth, text =>
    match text with
    | 'n' :: _ => (stripStart? "null" text).map (null, ·)
    | 't' :: _ => (stripStart? "true" text).map (bool true, ·)
    | 'f' :: _ => (stripStart? "false" text).map (bool false, ·)
    | '"' :: rest => (readString (rest.length + 1) [] rest).map fun (s, rest) => (string s, rest)
    | '[' :: rest =>
      if depth = 0 then none
      else match skip rest with
        | ']' :: rest => some (array [], rest)
        | rest => readItems fuel (depth - 1) [] rest
    | '\x7b' :: rest =>
      if depth = 0 then none
      else match skip rest with
        | '\x7d' :: rest => some (object [], rest)
        | rest => readMembers fuel (depth - 1) [] rest
    | _ => (Number.read text).map fun (n, rest) => (number n, rest)

/-- The items of an array from the next one on; `read` holds those before it, latest first. -/
def readItems : Nat → Nat → List Json → Text → Option (Json × Text)
  | 0, _, _, _ => none
  | fuel + 1, depth, read, text =>
    match readValue fuel depth text with
    | none => none
    | some (item, rest) =>
      match skip rest with
      | ',' :: rest => readItems fuel depth (item :: read) (skip rest)
      | ']' :: rest => some (array (item :: read).reverse, rest)
      | _ => none

def readMembers : Nat → Nat → List (Text × Json) → Text → Option (Json × Text)
  | 0, _, _, _ => none
  | fuel + 1, depth, read, text =>
    match text with
    | '"' :: rest =>
      match readString (rest.length + 1) [] rest with
      | none => none
      | some (name, rest) =>
        match skip rest with
        | ':' :: rest =>
          match readValue fuel depth (skip rest) with
          | none => none
          | some (value, rest) =>
            match skip rest with
            | ',' :: rest => readMembers fuel depth (put name value read) (skip rest)
            | '\x7d' :: rest => some (object (put name value read), rest)
            | _ => none
        | _ => none
    | _ => none

end

def depthLimit : Nat := 127

def parse? (text : Text) : Option Json := do
  let (value, rest) ← readValue (2 * text.length + 2) depthLimit (skip text)
  guard (skip rest).isEmpty
  pure value

def parseBytes? (bytes : Bytes) : Option Json := Utf8.decode? bytes >>= parse?

end HttpRouter.Json
