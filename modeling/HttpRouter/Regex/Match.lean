import HttpRouter.Regex.Basic

set_option autoImplicit false

/-!
# Matching

`Regex.run` lists the ways in which an expression can match from a place in the text, the preferred
one first: the left branch of a choice before the right one, and more repetitions before fewer when
the repetition is greedy.  What follows an expression depends only on where the expression ended,
so of several ways to one end the first is kept.

No way passes the same choice twice at one place, which is what ends a repetition of something that
may match the empty text.  A choice is told from others by its address in the tree, in which the
copies that a repetition makes count as different.
-/
namespace HttpRouter.Regex

/-- The part of the text that a group took, from `start` up to `stop`. -/
structure Span where
  index : Nat
  start : Nat
  stop : Nat
deriving DecidableEq, Repr

abbrev Address := List Nat

/-- A place in the text, the groups closed on the way to it, latest first, and the choices passed
since the last character. -/
structure State where
  offset : Nat
  before : Option Char
  rest : Text
  groups : List Span
  passed : List Address
deriving DecidableEq, Repr

namespace State

def start (text : Text) : State := ⟨0, none, text, [], []⟩

/-- The state after the next character, if the set has it. -/
def step? (s : State) (chars : CharSet) : Option State :=
  match s.rest with
  | [] => none
  | c :: rest =>
    if chars.contains c then some ⟨s.offset + 1, some c, rest, s.groups, []⟩ else none

def close (index start : Nat) (s : State) : State :=
  { s with groups := ⟨index, start, s.offset⟩ :: s.groups }

def pass (choice : Address) (s : State) : State := { s with passed := choice :: s.passed }

def pass? (choice : Address) (s : State) : Option State :=
  if s.passed.contains choice then none else some (s.pass choice)

end State

/-- A set of offsets, as the bits of a number. -/
abbrev Offsets := Nat

def Offsets.has (seen : Offsets) (offset : Nat) : Bool := Nat.testBit seen offset

def Offsets.add (seen : Offsets) (offset : Nat) : Offsets := seen ||| (1 <<< offset)

/-- The states at offsets not seen before, the first of each, and the offsets seen after them. -/
def keepNew : Offsets → List State → List State × Offsets
  | seen, [] => ([], seen)
  | seen, s :: rest =>
    if Offsets.has seen s.offset then keepNew seen rest
    else
      let (kept, seen) := keepNew (Offsets.add seen s.offset) rest
      (s :: kept, seen)

def distinct (states : List State) : List State := (keepNew 0 states).1

def gather (next : State → List State) : Offsets → List State → List State
  | _, [] => []
  | seen, s :: rest =>
    let (kept, seen) := keepNew seen (next s)
    kept ++ gather next seen rest

theorem keepNew_append (seen : Offsets) (a b : List State) :
    keepNew seen (a ++ b)
      = ((keepNew seen a).1 ++ (keepNew (keepNew seen a).2 b).1, (keepNew (keepNew seen a).2 b).2) := by
  induction a generalizing seen with
  | nil => rfl
  | cons s rest ih =>
    simp only [List.cons_append, keepNew]
    split <;> simp [ih]

theorem gather_eq (next : State → List State) (seen : Offsets) (states : List State) :
    gather next seen states = (keepNew seen (states.flatMap next)).1 := by
  induction states generalizing seen with
  | nil => rfl
  | cons s rest ih => simp [gather, keepNew_append, ih]

/-- What follows each of several states, the first state of each offset.  A single state needs no
comparison, as what follows it has been compared. -/
def andThen (states : List State) (next : State → List State) : List State :=
  match states with
  | [] => []
  | [s] => next s
  | _ => gather next 0 states

def isWordAt (ascii : Bool) : Option Char → Bool
  | none => false
  | some c => if ascii then c.isAlphanum || c == '_' else Unicode.isWord c

def Look.holds (look : Look) (s : State) : Bool :=
  let next := s.rest.head?
  match look with
  | start => s.before.isNone
  | finish => next.isNone
  | lineStart => s.before.isNone || s.before == some '\n'
  | lineEnd => next.isNone || next == some '\n'
  | lineStartCRLF =>
    s.before.isNone || s.before == some '\n' || (s.before == some '\r' && next != some '\n')
  | lineEndCRLF =>
    next.isNone || next == some '\r' || (next == some '\n' && s.before != some '\r')
  | wordBoundary ascii => isWordAt ascii s.before != isWordAt ascii next
  | notWordBoundary ascii => isWordAt ascii s.before == isWordAt ascii next
  | wordStart ascii => !isWordAt ascii s.before && isWordAt ascii next
  | wordEnd ascii => isWordAt ascii s.before && !isWordAt ascii next
  | wordStartHalf ascii => !isWordAt ascii s.before
  | wordEndHalf ascii => !isWordAt ascii next

/-- The states after zero, one, two and more characters of a set, up to `limit`. -/
def walk (chars : CharSet) : Nat → State → List State
  | 0, s => [s]
  | limit + 1, s =>
    s :: match s.step? chars with
      | some t => walk chars limit t
      | none => []

def Address.exit (address : Address) (copy : Nat) : Address := copy :: 1 :: address

def Address.body (address : Address) (copy : Nat) : Address := copy :: 0 :: address

/-- A repetition of a single set.  Every character leads to a new place, so one walk finds all. -/
def runSet (chars : CharSet) (address : Address) (least : Nat) (most : Option Nat) (greedy : Bool)
    (s : State) : List State :=
  if least = 0 ∧ s.passed.contains (address.exit 0) then []
  else
    let reached := (walk chars (most.getD s.rest.length) s).drop least
    let leaving := reached.zipIdx.map fun (t, more) =>
      match most with
      | none => t.pass (address.exit least)
      | some most => if least + more = most then t else t.pass (address.exit (least + more))
    if greedy then leaving.reverse else leaving

/-- Visits the states at a choice in turn, each offset once.  `deeper` goes on with another copy;
leaving is preferred to that unless `greedy`. -/
def sweep (choice : Address) (greedy : Bool)
    (deeper : Offsets → State → List State × Offsets) :
    Offsets → List State → List State × Offsets
  | seen, [] => ([], seen)
  | seen, s :: others =>
    match if Offsets.has seen s.offset then none else s.pass? choice with
    | none => sweep choice greedy deeper seen others
    | some s =>
      let (inner, seen) := deeper (Offsets.add seen s.offset) s
      let (outer, seen) := sweep choice greedy deeper seen others
      (if greedy then inner ++ s :: outer else s :: (inner ++ outer), seen)

/-- Copies without bound.  Every round of copies visits a new offset, which bounds the rounds. -/
def loop (choice : Address) (greedy : Bool) (body : State → List State) :
    Nat → Offsets → List State → List State × Offsets
  | 0, seen, _ => ([], seen)
  | rounds + 1, seen, states =>
    sweep choice greedy (fun seen s => loop choice greedy body rounds seen (body s)) seen states

/-- At most `copies` more copies, the next of which is the copy number `copy`.  The offsets visited
at the choices before each of them are kept apart. -/
def optionals (address : Address) (greedy : Bool) (body : Nat → State → List State) :
    Nat → Nat → List Offsets → List State → List State × List Offsets
  | 0, _, seen, states => (states, seen)
  | copies + 1, copy, seen, states =>
    let visit (acc : List State × Offsets × List Offsets) (s : State) :=
      let (out, here, below) := acc
      match if Offsets.has here s.offset then none else s.pass? (address.exit copy) with
      | none => acc
      | some s =>
        let (inner, below) := optionals address greedy body copies (copy + 1) below (body copy s)
        (out ++ (if greedy then inner ++ [s] else s :: inner), Offsets.add here s.offset, below)
    let (out, here, below) := states.foldl visit ([], seen.headD 0, seen.tail)
    (out, here :: below)

/-- The states after the copies from `copy` on, `count` of them. -/
def copies (body : Nat → State → List State) : Nat → Nat → List State → List State
  | 0, _, states => states
  | count + 1, copy, states =>
    copies body count (copy + 1) (andThen states (body copy))

/-- A repetition of `body`, which takes the number of the copy.  Without an upper bound the last
required copy is the one that is repeated; if none is required and the body may match the empty
text, the choice not to enter it at all comes apart from the choice to leave it. -/
def runCopies (body : Nat → State → List State) (nullable : Bool) (address : Address) (least : Nat)
    (most : Option Nat) (greedy : Bool) (s : State) : List State :=
  match most with
  | some most =>
    let entered := copies body least 0 [s]
    distinct (optionals address greedy body (most - least) least [] entered).1
  | none =>
    let last := least - 1
    let rounds := s.rest.length + 1
    let again (states : List State) : List State :=
      (loop (address.exit least) greedy (body last) rounds 0 states).1
    match least with
    | 0 =>
      if nullable then
        match s.pass? (address.exit 1) with
        | none => []
        | some s =>
          let inner := again (body 0 s)
          distinct (if greedy then inner ++ [s] else s :: inner)
      else again [s]
    | required + 1 => again (copies body (required + 1) 0 [s])

def run : Regex → Address → State → List State
  | empty, _, s => [s]
  | set chars, _, s => (s.step? chars).toList
  | look l, _, s => if l.holds s then [s] else []
  | group index r, address, s => (r.run address s).map (State.close index s.offset)
  | seq r t, address, s => andThen (r.run (0 :: address) s) (t.run (1 :: address))
  | alt r t, address, s =>
    match s.pass? address with
    | none => []
    | some s => distinct (r.run (0 :: address) s ++ t.run (1 :: address) s)
  | rep least most greedy (set chars), address, s => runSet chars address least most greedy s
  | rep least most greedy r, address, s =>
    runCopies (fun copy => r.run (address.body copy)) r.nullable address least most greedy s

/-- The first match that begins at the leftmost possible place, if any begins here or later. -/
def search (r : Regex) : Nat → Option Char → Text → Option State
  | offset, before, [] => (r.run [] ⟨offset, before, [], [], []⟩).head?
  | offset, before, c :: rest =>
    (r.run [] ⟨offset, before, c :: rest, [], []⟩).head? <|> search r (offset + 1) (some c) rest

def captures? (r : Regex) (text : Text) : Option (List Span) :=
  (search r 0 none text).map (·.groups)

def isMatch (r : Regex) (text : Text) : Bool := (search r 0 none text).isSome

def groupText? (text : Text) (spans : List Span) (index : Nat) : Option Text :=
  (spans.find? (·.index == index)).map fun span =>
    (text.drop span.start).take (span.stop - span.start)

end HttpRouter.Regex
