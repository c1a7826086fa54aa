import HttpRouter.Regex.Bracket

set_option autoImplicit false

namespace HttpRouter.Regex

structure Part where
  regex : Regex
  depth : Nat
deriving DecidableEq, Repr

/-- What has been read of a group: its finished branches and the parts of the last one, latest
first.  `none` stands where flags were set. -/
structure Level where
  branches : List Part
  parts : List (Option Part)
deriving DecidableEq, Repr

namespace Level

def blank : Level := ⟨[], []⟩

def push (level : Level) (part : Part) : Level :=
  { level with parts := some part :: level.parts }

def around (depths : List Nat) : Nat :=
  let deepest := depths.foldl Nat.max 0
  if depths.length ≤ 1 then deepest else deepest + 1

def branch (parts : List (Option Part)) : Part :=
  let parts := parts.reverse
  ⟨sequence ((parts.filterMap id).map Part.regex),
    around (parts.map fun part => part.elim 0 Part.depth)⟩

def nextBranch (level : Level) : Level := ⟨branch level.parts :: level.branches, []⟩

def whole (level : Level) : Part :=
  let branches := level.nextBranch.branches.reverse
  ⟨choice (branches.map Part.regex), around (branches.map Part.depth)⟩

/-- Puts a repetition in place of the last part.  There must be one, and no flags after it. -/
def repeatLast? (level : Level) (count : Count) : Option Level :=
  match level.parts with
  | some part :: others =>
    let part := ⟨repeated count.least count.most count.greedy part.regex, part.depth + 1⟩
    some { level with parts := some part :: others }
  | _ => none

end Level

/-- A group that encloses the one being read: what it holds so far, its flags, and the index of the
group inside it. -/
structure Enclosing where
  level : Level
  flags : Flags
  index : Option Nat
deriving DecidableEq, Repr

structure Reader where
  flags : Flags
  level : Level
  enclosing : List Enclosing
  groups : Nat
  names : List Text
deriving DecidableEq, Repr

namespace Reader

def initial : Reader := ⟨{}, .blank, [], 0, []⟩

def push (r : Reader) (regex : Regex) : Reader := { r with level := r.level.push ⟨regex, 0⟩ }

/-- A set, closed under case folding where case does not count. -/
def pushChars (r : Reader) (chars : CharSet) : Reader :=
  r.push (.set (Bracket.caseless r.flags chars))

/-- Any character but those that end a line.  In ASCII mode it would hold bytes that are no
characters. -/
def dot? (flags : Flags) : Option CharSet :=
  if flags.ascii then none
  else if flags.dotAll then some (.compl .empty)
  else if flags.crlf then some (.compl (.union (.single '\r') (.single '\n')))
  else some (.compl (.single '\n'))

def caret (flags : Flags) : Look :=
  if !flags.multiline then .start else if flags.crlf then .lineStartCRLF else .lineStart

def dollar (flags : Flags) : Look :=
  if !flags.multiline then .finish else if flags.crlf then .lineEndCRLF else .lineEnd

def enter (r : Reader) (inner : Flags) (index : Option Nat) : Reader :=
  { r with flags := inner, level := .blank, enclosing := ⟨r.level, r.flags, index⟩ :: r.enclosing }

def enterGroup (r : Reader) : Reader :=
  { r with groups := r.groups + 1 }.enter r.flags (some (r.groups + 1))

def enterNamed? (r : Reader) (text : Text) : Option (Reader × Text) := do
  let (name, rest) ← readName text
  guard !(r.names.contains name)
  pure ({ r with names := name :: r.names }.enterGroup, rest)

/-- After the opening bracket of a group.  Groups that look ahead or behind are refused. -/
def open? (r : Reader) (text : Text) : Option (Reader × Text) :=
  match r.flags.skip text with
  | '?' :: '=' :: _ | '?' :: '!' :: _ | '?' :: '<' :: '=' :: _ | '?' :: '<' :: '!' :: _ => none
  | '?' :: 'P' :: '<' :: rest => r.enterNamed? rest
  | '?' :: '<' :: rest => r.enterNamed? rest
  | '?' :: rest =>
    match readFlags r.flags rest with
    | none => none
    | some (flags, written, ending, rest) =>
      if ending = ':' then some (r.enter flags none, rest)
      else if written = 0 then none
      else some ({ r with flags, level := { r.level with parts := none :: r.level.parts } }, rest)
  | rest => some (r.enterGroup, rest)

def close? (r : Reader) : Option Reader :=
  match r.enclosing with
  | [] => none
  | outer :: others =>
    let inside := r.level.whole
    let regex := match outer.index with
      | some index => group index inside.regex
      | none => inside.regex
    some { r with
      flags := outer.flags, level := outer.level.push ⟨regex, inside.depth + 1⟩, enclosing := others }

def repeat? (r : Reader) (least : Nat) (most : Option Nat) (text : Text) : Option (Reader × Text) := do
  let (greedy, rest) := readGreed r.flags text
  pure ({ r with level := ← r.level.repeatLast? ⟨least, most, greedy⟩ }, rest)

def step? (r : Reader) (c : Char) (rest : Text) : Option (Reader × Text) :=
  match c with
  | '(' => r.open? rest
  | ')' => r.close?.map (·, rest)
  | '|' => some ({ r with level := r.level.nextBranch }, rest)
  | '[' => do
    let (inside, rest) ← readBracket r.flags rest
    pure ({ r with level := r.level.push ⟨.set inside.chars, inside.depth⟩ }, rest)
  | '?' => r.repeat? 0 (some 1) rest
  | '*' => r.repeat? 0 none rest
  | '+' => r.repeat? 1 none rest
  | '\x7b' => do
    let (count, rest) ← readCount r.flags rest
    pure ({ r with level := ← r.level.repeatLast? count }, rest)
  | '.' => do
    let chars ← dot? r.flags
    pure (r.push (.set chars), rest)
  | '^' => some (r.push (.look (caret r.flags)), rest)
  | '$' => some (r.push (.look (dollar r.flags)), rest)
  | '\\' => do
    let (escaped, rest) ← readEscape r.flags rest
    match escaped with
    | .char c => pure (r.pushChars (.single c), rest)
    | .chars s => pure (r.push (.set s), rest)
    | .place l => pure (r.push (.look l), rest)
  | c => some (r.pushChars (.single c), rest)

/-- Every step takes at least one character, so the length of the text is fuel enough. -/
def read : Nat → Reader → Text → Option Reader
  | 0, _, _ => none
  | fuel + 1, r, text =>
    match r.flags.skip text with
    | [] => some r
    | c :: rest =>
      match r.step? c rest with
      | none => none
      | some (r, rest) => read fuel r rest

end Reader

/-- How deeply the written form may nest. -/
def depthLimit : Nat := 250

/-- How many nodes an expression may have once its repetitions are written out. -/
def roomLimit : Nat := 400000

def parse? (text : Text) : Option Regex := do
  let r ← Reader.read (text.length + 1) .initial text
  guard r.enclosing.isEmpty
  let whole := r.level.whole
  guard (whole.depth ≤ depthLimit && whole.regex.room ≤ roomLimit)
  pure whole.regex

end HttpRouter.Regex
