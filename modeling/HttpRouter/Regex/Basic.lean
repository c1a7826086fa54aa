import HttpRouter.Regex.CharSet

set_option autoImplicit false

/-!
# Regular expressions

The tree of a regular expression, and what can be read off it without an input: the number of its
groups, bounds on the length of what it matches and the room that it takes.  The constructors
`repeated`, `sequence` and `choice` bring a tree into its normal form: a repetition of the empty
text is never asked for more than once, and one of exactly zero times leaves nothing behind, groups
included.
-/
namespace HttpRouter

/-- A condition on the place between two characters. -/
inductive Regex.Look where
  | start
  | finish
  | lineStart
  | lineEnd
  | lineStartCRLF
  | lineEndCRLF
  | wordBoundary (ascii : Bool)
  | notWordBoundary (ascii : Bool)
  | wordStart (ascii : Bool)
  | wordEnd (ascii : Bool)
  | wordStartHalf (ascii : Bool)
  | wordEndHalf (ascii : Bool)
deriving DecidableEq, Repr

inductive Regex where
  | empty
  | set (s : Regex.CharSet)
  | look (l : Regex.Look)
  | group (index : Nat) (r : Regex)
  | seq (r s : Regex)
  | alt (r s : Regex)
  /-- At least `min` and at most `max` times, as often as possible first if `greedy`. -/
  | rep (min : Nat) (max : Option Nat) (greedy : Bool) (r : Regex)
deriving DecidableEq, Repr

namespace Regex

/-- The highest index of a group, which counts the groups from one. -/
def groupCount : Regex → Nat
  | empty | set _ | look _ => 0
  | group index r => max index r.groupCount
  | seq r s | alt r s => max r.groupCount s.groupCount
  | rep _ _ _ r => r.groupCount

def minLength : Regex → Nat
  | empty | look _ => 0
  | set _ => 1
  | group _ r => r.minLength
  | seq r s => r.minLength + s.minLength
  | alt r s => Nat.min r.minLength s.minLength
  | rep least _ _ r => least * r.minLength

def nullable (r : Regex) : Bool := r.minLength == 0

def isBlank : Regex → Bool
  | empty | look _ => true
  | set _ => false
  | group _ r => r.isBlank
  | seq r s | alt r s => r.isBlank && s.isBlank
  | rep _ _ _ r => r.isBlank

/-- The number of nodes once every repetition is written out. -/
def room : Regex → Nat
  | empty | look _ => 1
  | set _ => 1
  | group _ r => r.room + 2
  | seq r s => r.room + s.room
  | alt r s => r.room + s.room + 1
  | rep least none _ r => (Nat.max 1 least) * r.room + 1
  | rep _ (some most) _ r => most * (r.room + 1) + 1

def sequence : List Regex → Regex
  | [] => empty
  | r :: rest => rest.foldl seq r

def choice : List Regex → Regex
  | [] => empty
  | [r] => r
  | r :: next :: rest => alt r (choice (next :: rest))

def repeated (least : Nat) (most : Option Nat) (greedy : Bool) (r : Regex) : Regex :=
  let (least, most) :=
    if r.isBlank then (Nat.min least 1, some ((most.getD 1).min 1)) else (least, most)
  if most = some 0 ∧ least = 0 then empty
  else if most = some 1 ∧ least = 1 then r
  else rep least most greedy r

end Regex
end HttpRouter
