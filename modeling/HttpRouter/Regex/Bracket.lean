import HttpRouter.Regex.Lexeme

set_option autoImplicit false

namespace HttpRouter.Regex

inductive SetOp where
  | inter
  | diff
  | symmDiff
deriving DecidableEq, Repr

def SetOp.apply : SetOp → CharSet → CharSet → CharSet
  | inter => .inter
  | diff => .diff
  | symmDiff => .symmDiff

/-- A set of characters and how deeply its written form nests. -/
structure Nested where
  chars : CharSet
  depth : Nat
deriving DecidableEq, Repr

/-- An open bracket: the operator that waits for its right operand, with the left one, and the
members listed since, latest first. -/
structure Bracket where
  negated : Bool
  pending : Option (SetOp × Nested)
  members : List Nested
deriving DecidableEq, Repr

namespace Bracket

def caseless (flags : Flags) (s : CharSet) : CharSet := if flags.caseless then s.fold else s

def add (b : Bracket) (s : CharSet) (depth : Nat) : Bracket :=
  { b with members := ⟨s, depth⟩ :: b.members }

def listed (b : Bracket) : Nested :=
  let depth := (b.members.map Nested.depth).foldl Nat.max 0
  ⟨CharSet.unions (b.members.reverse.map Nested.chars),
    if b.members.length ≤ 1 then depth else depth + 1⟩

def body (flags : Flags) (b : Bracket) : Nested :=
  match b.pending with
  | none => b.listed
  | some (op, left) =>
    let right := b.listed
    ⟨op.apply (caseless flags left.chars) (caseless flags right.chars),
      Nat.max left.depth right.depth + 1⟩

def operate (flags : Flags) (op : SetOp) (b : Bracket) : Bracket :=
  { b with pending := some (op, b.body flags), members := [] }

/-- The set of the bracket.  In ASCII mode a complement is refused. -/
def close? (flags : Flags) (b : Bracket) : Option Nested := do
  guard !(flags.ascii && b.negated)
  let inside := b.body flags
  let chars := caseless flags inside.chars
  pure ⟨if b.negated then chars.compl else chars, inside.depth + 1⟩

/-- Hyphens at the beginning stand for themselves. -/
def openHyphens (flags : Flags) : Nat → Bracket → Text → Bracket × Text
  | fuel + 1, b, '-' :: rest => openHyphens flags fuel (b.add (.single '-') 0) (flags.skip rest)
  | _, b, text => (b, text)

/-- The beginning of a class after its bracket.  A closing bracket that comes first stands for
itself. -/
def open? (flags : Flags) (text : Text) : Option (Bracket × Text) :=
  let (negated, text) := match flags.skip text with
    | '^' :: rest => (true, flags.skip rest)
    | text => (false, text)
  match openHyphens flags text.length ⟨negated, none, []⟩ text with
  | (_, []) => none
  | (b, ']' :: rest) =>
    if b.members.isEmpty then
      match flags.skip rest with
      | [] => none
      | rest => some (b.add (.single ']') 0, rest)
    else some (b, ']' :: rest)
  | (b, text) => some (b, text)

def posix? (flags : Flags) (text : Text) : Option (CharSet × Text) := do
  let ':' :: text := text | none
  let (negated, text) := match text with
    | '^' :: rest => (true, rest)
    | text => (false, text)
  let (name, rest) ← Text.cut? ':' text
  let ']' :: rest := rest | none
  let chars := caseless flags (← CharSet.posix? name)
  pure (if negated then chars.compl else chars, rest)

/-- One member before it is known whether it begins a range. -/
def readMember (flags : Flags) : Text → Option (Escaped × Text)
  | [] => none
  | '\\' :: rest => readEscape flags rest
  | c :: rest => some (.char c, rest)

/-- Whether the class may list the character: in ASCII mode it must be one of ASCII. -/
def allows (flags : Flags) (c : Char) : Bool := !flags.ascii || c.toNat < 0x80

def readRange (flags : Flags) (text : Text) : Option (CharSet × Text) := do
  let (first, rest) ← readMember flags text
  let rest := flags.skip rest
  let alone : Option (CharSet × Text) := match first with
    | .char c => if allows flags c then some (.single c, rest) else none
    | .chars s => some (s, rest)
    | .place _ => none
  match rest with
  | [] => none
  | '-' :: after =>
    let next := flags.peek? rest
    if next = some ']' ∨ next = some '-' then alone
    else
      let (last, rest) ← readMember flags (flags.skip after)
      match first, last with
      | .char a, .char b =>
        guard (a ≤ b && allows flags a && allows flags b)
        pure (.range a b, rest)
      | _, _ => none
  | _ => alone

/-- Reads up to the bracket that closes the first of the open ones, `b` being the innermost. -/
def read (flags : Flags) : Nat → Bracket → List Bracket → Text → Option (Nested × Text)
  | 0, _, _, _ => none
  | fuel + 1, b, enclosing, text =>
    match flags.skip text with
    | [] => none
    | '[' :: rest =>
      match posix? flags rest with
      | some (s, rest) => read flags fuel (b.add s 0) enclosing rest
      | none =>
        match open? flags rest with
        | some (inner, rest) => read flags fuel inner (b :: enclosing) rest
        | none => none
    | ']' :: rest =>
      match b.close? flags, enclosing with
      | none, _ => none
      | some inside, [] => some (inside, rest)
      | some inside, outer :: others =>
        read flags fuel (outer.add inside.chars inside.depth) others rest
    | '&' :: '&' :: rest => read flags fuel (b.operate flags .inter) enclosing rest
    | '-' :: '-' :: rest => read flags fuel (b.operate flags .diff) enclosing rest
    | '~' :: '~' :: rest => read flags fuel (b.operate flags .symmDiff) enclosing rest
    | text =>
      match readRange flags text with
      | some (s, rest) => read flags fuel (b.add s 0) enclosing rest
      | none => none

end Bracket

def readBracket (flags : Flags) (text : Text) : Option (Nested × Text) :=
  match Bracket.open? flags text with
  | none => none
  | some (b, rest) => b.read flags (rest.length + 1) [] rest

end HttpRouter.Regex
