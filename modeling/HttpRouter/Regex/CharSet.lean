import HttpRouter.Unicode.Property
import HttpRouter.Unicode.CaseFold

set_option autoImplicit false

namespace HttpRouter.Regex

inductive CharSet where
  | empty
  | range (first last : Char)
  | property (p : Unicode.Property)
  | compl (s : CharSet)
  | union (s t : CharSet)
  | inter (s t : CharSet)
  | diff (s t : CharSet)
  | symmDiff (s t : CharSet)
  | fold (s : CharSet)
deriving DecidableEq, Repr

namespace CharSet

def contains : CharSet → Char → Bool
  | empty, _ => false
  | range first last, c => first ≤ c && c ≤ last
  | property p, c => p.holds c
  | compl s, c => !s.contains c
  | union s t, c => s.contains c || t.contains c
  | inter s t, c => s.contains c && t.contains c
  | diff s t, c => s.contains c && !t.contains c
  | symmDiff s t, c => s.contains c != t.contains c
  | fold s, c => (Unicode.variants c).any s.contains

def single (c : Char) : CharSet := range c c

theorem contains_single (a c : Char) : (single a).contains c = true ↔ c = a := by
  simp only [single, contains, Bool.and_eq_true, decide_eq_true_eq]
  exact ⟨fun ⟨h, g⟩ => Char.le_antisymm g h, fun h => by subst h; exact ⟨Char.le_refl c, Char.le_refl c⟩⟩

theorem contains_compl (s : CharSet) (c : Char) : (compl s).contains c = !s.contains c := rfl

def unions (sets : List CharSet) : CharSet :=
  match sets with
  | [] => empty
  | s :: rest => rest.foldl union s

def ofRanges (ranges : List (Char × Char)) : CharSet :=
  unions (ranges.map fun (first, last) => range first last)

def digits : List (Char × Char) := [('0', '9')]

def asciiSpace : List (Char × Char) := [('\t', '\r'), (' ', ' ')]

def asciiWord : List (Char × Char) := [('0', '9'), ('A', 'Z'), ('_', '_'), ('a', 'z')]

/-- The classes that are written with a name between colons; all are within ASCII. -/
def posix? (name : Text) : Option CharSet :=
  (ranges? (String.ofList name)).map ofRanges
where
  ranges? : String → Option (List (Char × Char))
    | "alnum" => some [('0', '9'), ('A', 'Z'), ('a', 'z')]
    | "alpha" => some [('A', 'Z'), ('a', 'z')]
    | "ascii" => some [('\x00', '\x7f')]
    | "blank" => some [('\t', '\t'), (' ', ' ')]
    | "cntrl" => some [('\x00', '\x1f'), ('\x7f', '\x7f')]
    | "digit" => some digits
    | "graph" => some [('!', '~')]
    | "lower" => some [('a', 'z')]
    | "print" => some [(' ', '~')]
    | "punct" => some [('!', '/'), (':', '@'), ('[', '\x60'), ('\x7b', '~')]
    | "space" => some asciiSpace
    | "upper" => some [('A', 'Z')]
    | "word" => some asciiWord
    | "xdigit" => some [('0', '9'), ('A', 'F'), ('a', 'f')]
    | _ => none

end CharSet
end HttpRouter.Regex
