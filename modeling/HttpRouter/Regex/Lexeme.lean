import HttpRouter.Regex.Basic

set_option autoImplicit false

/-!
# Lexemes of the written form

The parts of a written expression below the level of its tree: flags, blanks and comments, escapes,
named classes and counts of repetition.  Every reader takes the text from the lexeme on and returns
the lexeme with the text after it, or nothing if the lexeme is malformed.
-/
namespace HttpRouter.Regex

structure Flags where
  caseless : Bool := false
  multiline : Bool := false
  dotAll : Bool := false
  swapGreed : Bool := false
  crlf : Bool := false
  ascii : Bool := false
  extended : Bool := false
deriving DecidableEq, Repr

def metaCharacters : Text := "\\.+*?()|[]\x7b\x7d^$#&-~".toList

def isMeta (c : Char) : Bool := metaCharacters.contains c

def escape (text : Text) : Text :=
  text.flatMap fun c => if isMeta c then ['\\', c] else [c]

/-- Whether a backslash may stand before the character without need. -/
def isEscapable (c : Char) : Bool :=
  c.toNat < 0x80 && !c.isAlphanum && c != '<' && c != '>'

/-- The text after blanks and comments, which count for nothing in extended notation.  The flag
tells whether the text begins inside a comment, which ends with its line. -/
def skipBlanks : Bool → Text → Text
  | _, [] => []
  | true, c :: rest => skipBlanks (c != '\n') rest
  | false, c :: rest =>
    if Unicode.isSpace c then skipBlanks false rest
    else if c = '#' then skipBlanks true rest
    else c :: rest

def Flags.skip (flags : Flags) (text : Text) : Text :=
  if flags.extended then skipBlanks false text else text

/-- The character after the blanks that follow the one the text begins with.  A comment counts as
its hash sign and the blanks after that. -/
def Flags.peek? (flags : Flags) : Text → Option Char
  | [] => none
  | _ :: rest =>
    if flags.extended then
      match rest.dropWhile Unicode.isSpace with
      | '#' :: comment => (comment.dropWhile Unicode.isSpace).head?.or rest.head?
      | c :: _ => some c
      | [] => rest.head?
    else rest.head?

inductive Escaped where
  | char (c : Char)
  | chars (s : CharSet)
  | place (l : Look)
deriving DecidableEq, Repr

def charOf? (n : Nat) : Option Char :=
  if h : n.isValidChar then some (Char.ofNatAux n h) else none

def readDigits (flags : Flags) : Nat → Text → Option (Nat × Text)
  | count, text => go count 0 text
where
  go : Nat → Nat → Text → Option (Nat × Text)
    | 0, n, text => some (n, text)
    | count + 1, n, text =>
      match text with
      | [] => none
      | c :: rest => do
        let d ← Hex.value? c
        go count (n * 16 + d) (if count = 0 then rest else flags.skip rest)

/-- The text up to a closing brace, blanks apart, and what follows the brace. -/
def readBraced (flags : Flags) (text : Text) : Option (Text × Text) := do
  let (inside, rest) ← Text.cut? '\x7d' text
  pure (if flags.extended then inside.filter (!Unicode.isSpace ·) else inside, rest)

def readCode (flags : Flags) (count : Nat) (text : Text) : Option (Nat × Text) :=
  match flags.skip text with
  | '\x7b' :: rest => do
    let (digits, rest) ← readBraced flags rest
    guard (!digits.isEmpty)
    let n ← Hex.number? digits
    pure (n, rest)
  | rest => readDigits flags count rest

/-- A class by its name, or by a property and a value for it; the flag tells whether the name asks
for the complement. -/
def readName? (name : Text) : Option (Unicode.Property × Bool) :=
  match Text.cutAt? ['!', '='] name with
  | some (property, value) => (Unicode.Property.valued? property value).map (·, true)
  | none =>
    match Text.cut? ':' name <|> Text.cut? '=' name with
    | some (property, value) => (Unicode.Property.valued? property value).map (·, false)
    | none => (Unicode.Property.named? name).map (·, false)

def readProperty (flags : Flags) (negated : Bool) (text : Text) : Option (CharSet × Text) := do
  guard !flags.ascii
  let (name, rest) ← match flags.skip text with
    | [] => none
    | '\x7b' :: rest => readBraced flags rest
    | c :: rest => some ([c], rest)
  let (property, opposite) ← readName? name
  let s := CharSet.property property
  let s := if flags.caseless then s.fold else s
  pure (if negated != opposite then s.compl else s, rest)

/-- A class that is written with a single letter.  In ASCII mode its complement is refused, as it
holds bytes that are no characters. -/
def perlClass? (flags : Flags) (c : Char) : Option CharSet :=
  let pick (p : Unicode.Property) (ranges : List (Char × Char)) : CharSet :=
    if flags.ascii then CharSet.ofRanges ranges else CharSet.property p
  let positive? : Char → Option CharSet
    | 'd' => some (pick .decimal CharSet.digits)
    | 's' => some (pick .space CharSet.asciiSpace)
    | 'w' => some (pick .word CharSet.asciiWord)
    | _ => none
  if c.isUpper then
    if flags.ascii then none else (positive? c.toLower).map .compl
  else positive? c

/-- The name of a special word boundary between braces, if one begins here. -/
def readBoundary (flags : Flags) (text : Text) : Option (Option (Look × Text)) :=
  match text with
  | '\x7b' :: rest =>
    match flags.skip rest with
    | c :: _ =>
      if c.isAlpha || c == '-' then do
        let (name, rest) ← readBraced flags rest
        match String.ofList name with
        | "start" => pure (some (.wordStart flags.ascii, rest))
        | "end" => pure (some (.wordEnd flags.ascii, rest))
        | "start-half" => pure (some (.wordStartHalf flags.ascii, rest))
        | "end-half" => pure (some (.wordEndHalf flags.ascii, rest))
        | _ => none
      else some none
    | [] => none
  | _ => some none

def readEscape (flags : Flags) : Text → Option (Escaped × Text)
  | [] => none
  | c :: rest =>
    if isMeta c || isEscapable c then some (.char c, rest)
    else match c with
      | 'a' => some (.char '\x07', rest)
      | 'f' => some (.char '\x0c', rest)
      | 't' => some (.char '\t', rest)
      | 'n' => some (.char '\n', rest)
      | 'r' => some (.char '\r', rest)
      | 'v' => some (.char '\x0b', rest)
      | 'A' => some (.place .start, rest)
      | 'z' => some (.place .finish, rest)
      | 'B' => some (.place (.notWordBoundary flags.ascii), rest)
      | '<' => some (.place (.wordStart flags.ascii), rest)
      | '>' => some (.place (.wordEnd flags.ascii), rest)
      | 'b' => do
        match ← readBoundary flags rest with
        | some (boundary, rest) => pure (.place boundary, rest)
        | none => pure (.place (.wordBoundary flags.ascii), rest)
      | 'x' => do
        let (n, after) ← readCode flags 2 rest
        guard (!flags.ascii || n < 0x80 || (flags.skip rest).head? == some '\x7b')
        pure (.char (← charOf? n), after)
      | 'u' => do
        let (n, rest) ← readCode flags 4 rest
        pure (.char (← charOf? n), rest)
      | 'U' => do
        let (n, rest) ← readCode flags 8 rest
        pure (.char (← charOf? n), rest)
      | 'p' => do
        let (s, rest) ← readProperty flags false rest
        pure (.chars s, rest)
      | 'P' => do
        let (s, rest) ← readProperty flags true rest
        pure (.chars s, rest)
      | c => (perlClass? flags c).map fun s => (.chars s, rest)

structure Count where
  least : Nat
  most : Option Nat
  greedy : Bool
deriving DecidableEq, Repr

/-- A question mark makes a repetition lazy; the swap flag exchanges lazy and greedy. -/
def readGreed (flags : Flags) : Text → Bool × Text
  | '?' :: rest => (flags.swapGreed, rest)
  | rest => (!flags.swapGreed, rest)

/-- A decimal number below 2^32 with blanks around it. -/
def number32? (text : Text) : Option Nat := do
  let digits := Text.trimBlanks Unicode.isSpace text
  guard (!digits.isEmpty && digits.all Char.isDigit)
  let n := digits.foldl (fun n c => n * 10 + (c.toNat - '0'.toNat)) 0
  guard (n < 4294967296)
  pure n

/-- The bounds of a repetition: one number, a least number and a comma, or two numbers. -/
def bounds? (inside : Text) : Option (Nat × Option Nat) := do
  match Text.cut? ',' inside with
  | none =>
    let n ← number32? inside
    pure (n, some n)
  | some (least, []) => pure (← number32? least, none)
  | some (least, most) =>
    let least ← number32? least
    let most ← number32? most
    guard (least ≤ most)
    pure (least, some most)

/-- The count of a repetition after its opening brace. -/
def readCount (flags : Flags) (text : Text) : Option (Count × Text) := do
  let (inside, rest) ← readBraced flags text
  let (least, most) ← bounds? inside
  let (greedy, rest) := readGreed flags (flags.skip rest)
  pure (⟨least, most, greedy⟩, rest)

/-- The flags of a group, up to the character that ends them: a colon or a closing bracket. -/
def readFlags (flags : Flags) (text : Text) : Option (Flags × Nat × Char × Text) :=
  go true [] flags text
where
  go (value : Bool) (seen : List Char) (flags : Flags) : Text → Option (Flags × Nat × Char × Text)
    | [] => none
    | c :: rest =>
      if c = ':' ∨ c = ')' then
        if seen.head? = some '-' then none else some (flags, seen.length, c, rest)
      else if seen.contains c then none
      else match c with
        | '-' => go false ('-' :: seen) flags rest
        | 'i' => go value (c :: seen) { flags with caseless := value } rest
        | 'm' => go value (c :: seen) { flags with multiline := value } rest
        | 's' => go value (c :: seen) { flags with dotAll := value } rest
        | 'U' => go value (c :: seen) { flags with swapGreed := value } rest
        | 'u' => go value (c :: seen) { flags with ascii := !value } rest
        | 'R' => go value (c :: seen) { flags with crlf := value } rest
        | 'x' => go value (c :: seen) { flags with extended := value } rest
        | _ => none

def isNameChar (first : Bool) (c : Char) : Bool :=
  c == '_' || Unicode.isAlphabetic c
    || (!first && (c == '.' || c == '[' || c == ']' || Unicode.isNumeric c))

/-- The name of a group up to its closing angle bracket. -/
def readName (text : Text) : Option (Text × Text) := do
  let (name, rest) ← Text.cut? '>' text
  match name with
  | [] => none
  | c :: others =>
    guard (isNameChar true c && others.all (isNameChar false))
    pure (name, rest)

end HttpRouter.Regex
