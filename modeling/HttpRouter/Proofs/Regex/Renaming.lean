import HttpRouter.Proofs.Regex.Straight

set_option autoImplicit false

/-!
# Renaming characters

If every character of a text is replaced, and every set of an expression by one that has the new
characters of exactly those that were in it, then the expression matches the new text as it matched
the old one, with its groups at the same places.  Only straight expressions are considered here, and
of the conditions on places only those for the two ends of the text.
-/
namespace HttpRouter.Regex

namespace State

def rename (f : Char → Char) (s : State) : State :=
  { s with before := s.before.map f, rest := s.rest.map f }

theorem step?_rename {f : Char → Char} {chars renamed : CharSet}
    (h : ∀ c, renamed.contains (f c) = chars.contains c) (s : State) :
    (s.rename f).step? renamed = (s.step? chars).map (rename f) := by
  obtain ⟨offset, before, rest, groups, passed⟩ := s
  cases rest with
  | nil => rfl
  | cons c rest =>
    simp only [rename, step?, List.map_cons, h]
    split <;> rfl

end State

open State (rename)

/-- The second expression asks of the new characters what the first one asks of the old ones. -/
inductive Renamed (f : Char → Char) : Regex → Regex → Prop
  | set {s t : CharSet} (h : ∀ c, t.contains (f c) = s.contains c) : Renamed f (.set s) (.set t)
  | start : Renamed f (.look .start) (.look .start)
  | finish : Renamed f (.look .finish) (.look .finish)
  | group (index : Nat) {r t : Regex} (h : Renamed f r t) :
      Renamed f (.group index r) (.group index t)
  | seq {r t r' t' : Regex} (hr : Renamed f r r') (ht : Renamed f t t') :
      Renamed f (.seq r t) (.seq r' t')
  | rep (least : Nat) (most : Option Nat) (greedy : Bool) {s t : CharSet}
      (h : ∀ c, t.contains (f c) = s.contains c) :
      Renamed f (.rep least most greedy (.set s)) (.rep least most greedy (.set t))

section
variable {f : Char → Char}

theorem andThen_rename {next next' : State → List State}
    (h : ∀ s, next' (s.rename f) = (next s).map (rename f)) (states : List State) :
    andThen (states.map (rename f)) next' = (andThen states next).map (rename f) := by
  match states with
  | [] => rfl
  | [s] => exact h s
  | s :: t :: more =>
    have hf : ((s :: t :: more).map (rename f)).flatMap next'
        = ((s :: t :: more).flatMap next).map (rename f) := by
      rw [List.flatMap_map, List.map_flatMap]
      exact congrArg (fun g => List.flatMap g _) (funext h)
    have ho : ∀ s : State, (s.rename f).offset = s.offset := fun _ => rfl
    rw [andThen_eq (by simp), andThen_eq (by simp), hf, keepNew_map ho]

theorem walk_rename {chars renamed : CharSet}
    (h : ∀ c, renamed.contains (f c) = chars.contains c) (limit : Nat) (s : State) :
    walk renamed limit (s.rename f) = (walk chars limit s).map (rename f) := by
  induction limit generalizing s with
  | zero => rfl
  | succ limit ih =>
    simp only [walk, List.map_cons, State.step?_rename h]
    cases s.step? chars with
    | none => rfl
    | some t => simp [ih]

theorem zipIdx_map_rename {leave : State × Nat → State}
    (h : ∀ t more, leave (t.rename f, more) = (leave (t, more)).rename f) (states : List State) :
    (states.map (rename f)).zipIdx.map leave = (states.zipIdx.map leave).map (rename f) := by
  rw [List.zipIdx_map, List.map_map, List.map_map]
  exact List.map_congr_left fun reached _ => h reached.1 reached.2

theorem runSet_rename {chars renamed : CharSet}
    (h : ∀ c, renamed.contains (f c) = chars.contains c) (address : Address) (least : Nat)
    (most : Option Nat) (greedy : Bool) (s : State) :
    runSet renamed address least most greedy (s.rename f)
      = (runSet chars address least most greedy s).map (rename f) := by
  have hl : (s.rename f).rest.length = s.rest.length := List.length_map f
  have hp : (s.rename f).passed = s.passed := rfl
  simp only [runSet, hl, hp, walk_rename h, ← List.map_drop]
  split
  · rfl
  · rw [zipIdx_map_rename]
    · cases greedy <;> simp
    · intro t more
      cases most with
      | none => rfl
      | some most =>
        simp only
        split <;> rfl

theorem run_renamed {r t : Regex} (h : Renamed f r t) (a : Address) (s : State) :
    t.run a (s.rename f) = (r.run a s).map (rename f) := by
  induction h generalizing a s with
  | set h =>
    rw [run, run, State.step?_rename h]
    cases s.step? _ <;> rfl
  | start =>
    have hl : Look.start.holds (s.rename f) = Look.start.holds s := Option.isNone_map
    simp only [run, hl]
    split <;> rfl
  | finish =>
    have hl : Look.finish.holds (s.rename f) = Look.finish.holds s := by
      cases hs : s.rest <;> simp [Look.holds, rename, hs]
    simp only [run, hl]
    split <;> rfl
  | group index h ih =>
    rw [run, run, ih, List.map_map, List.map_map]
    rfl
  | seq hr ht ihr iht =>
    rw [run, run, ihr, andThen_rename (iht (1 :: a))]
  | rep least most greedy h =>
    rw [run, run, runSet_rename h]

theorem search_renamed {r t : Regex} (h : Renamed f r t) (offset : Nat) (before : Option Char)
    (text : Text) :
    t.search offset (before.map f) (text.map f) = (r.search offset before text).map (rename f) := by
  induction text generalizing offset before with
  | nil =>
    have hr := run_renamed h [] ⟨offset, before, [], [], []⟩
    rw [List.map_nil, search, search, ← List.head?_map, ← hr]
    rfl
  | cons c rest ih =>
    have hr := run_renamed h [] ⟨offset, before, c :: rest, [], []⟩
    have hi := ih (offset + 1) (some c)
    simp only [List.map_cons, search, Option.orElse_eq_orElse, Option.orElse_eq_or, Option.map_or]
    rw [← List.head?_map, ← hr, ← hi]
    rfl

theorem captures?_renamed {r t : Regex} (h : Renamed f r t) (text : Text) :
    t.captures? (text.map f) = r.captures? text := by
  have hs := search_renamed h 0 none text
  rw [Option.map_none] at hs
  rw [captures?, captures?, hs, Option.map_map]
  rfl

end
end HttpRouter.Regex
