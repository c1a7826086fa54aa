import HttpRouter.Regex.Parser
import HttpRouter.Proofs.Regex.Straight

set_option autoImplicit false

/-!
# Reading anchored sequences

The expressions of path templates without constraints are written as an anchor, escaped characters
and groups of characters other than slashes, an optional slash and an anchor at the end.  Reading
one of them gives the sequence of these parts, of which those for the beginning of a text are a
beginning of those for the text.  The templates of hosts are written in another style: a flag at the
beginning lets the case of letters go, and gaps stop at dots.
-/
namespace HttpRouter.Regex

/-- A character that stands for itself, or the group of a placeholder without a constraint. -/
inductive Atom where
  | char (c : Char)
  | gap
deriving DecidableEq, Repr

namespace Atom

def spell : Atom → Text
  | char c => escape [c]
  | gap => "([^/]+)".toList

def inside : Regex := .rep 1 none true (.set (.compl (.single '/')))

def regexes : Nat → List Atom → List Regex
  | _, [] => []
  | groups, char c :: rest => .set (.single c) :: regexes groups rest
  | groups, gap :: rest => .group (groups + 1) inside :: regexes (groups + 1) rest

def gaps (atoms : List Atom) : Nat := atoms.countP (· == gap)

theorem regexes_append (groups : Nat) (front back : List Atom) :
    regexes groups (front ++ back)
      = regexes groups front ++ regexes (groups + gaps front) back := by
  induction front generalizing groups with
  | nil => rfl
  | cons atom rest ih =>
    cases atom with
    | char c => simp [regexes, ih, gaps]
    | gap =>
      have hg : groups + 1 + gaps rest = groups + gaps (gap :: rest) := by
        simp [gaps]
        omega
      simp [regexes, ih, hg]

theorem straight_of_mem_regexes {groups : Nat} {atoms : List Atom} {r : Regex}
    (h : r ∈ regexes groups atoms) (least : Nat) (hl : least ≤ 1) : r.Straight least := by
  induction atoms generalizing groups with
  | nil => cases h
  | cons atom rest ih =>
    cases atom with
    | char c =>
      rcases List.mem_cons.1 h with rfl | h
      · trivial
      · exact ih h
    | gap =>
      rcases List.mem_cons.1 h with rfl | h
      · exact hl
      · exact ih h

theorem indices_regexes (groups : Nat) (atoms : List Atom) :
    (regexes groups atoms).flatMap indices = List.range' (groups + 1) (gaps atoms) := by
  induction atoms generalizing groups with
  | nil => rfl
  | cons atom rest ih =>
    cases atom with
    | char c => simpa [regexes, indices, gaps] using ih groups
    | gap =>
      have hg : gaps (gap :: rest) = gaps rest + 1 := by simp [gaps]
      rw [hg, List.range'_succ, ← ih (groups + 1)]
      rfl

end Atom

theorem straight_foldl_seq {least : Nat} {r : Regex} {rest : List Regex} (hr : r.Straight least)
    (h : ∀ t ∈ rest, t.Straight least) : (rest.foldl seq r).Straight least := by
  induction rest generalizing r with
  | nil => exact hr
  | cons t rest ih =>
    exact ih ⟨hr, h t List.mem_cons_self⟩ fun u hu => h u (List.mem_cons_of_mem t hu)

theorem indices_foldl_seq (r : Regex) (rest : List Regex) :
    (rest.foldl seq r).indices = r.indices ++ rest.flatMap indices := by
  induction rest generalizing r with
  | nil => simp
  | cons t rest ih => rw [List.foldl_cons, ih, indices, List.flatMap_cons, List.append_assoc]

def closing (slash anchored : Bool) : Text :=
  (if slash then "[/]?".toList else []) ++ if anchored then ['$'] else []

def closingParts (slash anchored : Bool) : List Regex :=
  (if slash then [.rep 0 (some 1) true (.set (.single '/'))] else [])
    ++ if anchored then [.look .finish] else []

theorem straight_of_mem_closingParts {slash anchored : Bool} {r : Regex}
    (h : r ∈ closingParts slash anchored) : r.Straight 0 := by
  cases slash <;> cases anchored <;> simp [closingParts] at h
  · rw [h]
    trivial
  · rw [h]
    exact Nat.le_refl 0
  · rcases h with rfl | rfl
    · exact Nat.le_refl 0
    · trivial

theorem indices_closingParts (slash anchored : Bool) :
    (closingParts slash anchored).flatMap indices = [] := by
  cases slash <;> cases anchored <;> rfl

def anchored (atoms : List Atom) (ends : List Regex) : Regex :=
  sequence (.look .start :: (Atom.regexes 0 atoms ++ ends))

theorem anchored_straight (atoms : List Atom) {least : Nat} (hl : least ≤ 1) {ends : List Regex}
    (h : ∀ r ∈ ends, r.Straight least) : (anchored atoms ends).Straight least := by
  have hs : Straight least (.look .start) := trivial
  apply straight_foldl_seq hs
  intro r hr
  rcases List.mem_append.1 hr with hr | hr
  · exact Atom.straight_of_mem_regexes hr least hl
  · exact h r hr

/-- Where an expression matches, that of the atoms at its beginning does. -/
theorem run_anchored_ne_nil {front back : List Atom} {ends : List Regex} {s : State}
    (h : (anchored (front ++ back) ends).run [] s ≠ []) : (anchored front []).run [] s ≠ [] := by
  have hs : (anchored front []).Straight 1 :=
    anchored_straight front (Nat.le_refl 1) fun r hr => absurd hr List.not_mem_nil
  rw [anchored, List.append_nil] at hs ⊢
  rw [anchored, Atom.regexes_append, List.append_assoc] at h
  exact run_sequence_ne_nil hs [] h

theorem indices_anchored (atoms : List Atom) (slash whole : Bool) :
    (anchored atoms (closingParts slash whole)).indices = List.range' 1 (Atom.gaps atoms) := by
  rw [anchored, sequence, indices_foldl_seq, List.flatMap_append, Atom.indices_regexes,
    indices_closingParts]
  simp [indices]

namespace Level

def regexes (level : Level) : List Regex := (level.parts.reverse.filterMap id).map Part.regex

theorem regexes_push (level : Level) (part : Part) :
    (level.push part).regexes = level.regexes ++ [part.regex] := by
  simp [regexes, push]

theorem whole_regex {level : Level} (h : level.branches = []) :
    level.whole.regex = sequence level.regexes := by
  simp [whole, nextBranch, h, branch, choice, regexes]

end Level

/-- How atoms are written: whether the case of letters does not count, and the character that gaps
stop at. -/
structure Style where
  caseless : Bool
  stop : Char

namespace Style

def path : Style := ⟨false, '/'⟩

def host : Style := ⟨true, '.'⟩

def flags (style : Style) : Flags := { caseless := style.caseless }

def spell (style : Style) : Atom → Text
  | .char c => escape [c]
  | .gap => '(' :: '[' :: '^' :: style.stop :: "]+)".toList

def chars (style : Style) (c : Char) : CharSet := Bracket.caseless style.flags (.single c)

def inside (style : Style) : Regex := .rep 1 none true (.set (.compl (style.chars style.stop)))

def regexes (style : Style) : Nat → List Atom → List Regex
  | _, [] => []
  | groups, .char c :: rest => .set (style.chars c) :: style.regexes groups rest
  | groups, .gap :: rest => .group (groups + 1) style.inside :: style.regexes (groups + 1) rest

theorem spell_path : path.spell = Atom.spell := by
  funext atom
  cases atom <;> rfl

theorem regexes_path (groups : Nat) (atoms : List Atom) :
    path.regexes groups atoms = Atom.regexes groups atoms := by
  induction atoms generalizing groups with
  | nil => rfl
  | cons atom rest ih =>
    cases atom with
    | char c => exact congrArg (.set (.single c) :: ·) (ih groups)
    | gap => exact congrArg (.group (groups + 1) Atom.inside :: ·) (ih (groups + 1))

end Style

namespace Reader

inductive Reads : Reader → Text → Reader → Prop
  | done (r : Reader) (h : r.flags.extended = false) : Reads r [] r
  | step {r next last : Reader} {c : Char} {rest after : Text} (h : r.flags.extended = false)
      (hs : r.step? c rest = some (next, after)) (hl : after.length ≤ rest.length)
      (hr : Reads next after last) : Reads r (c :: rest) last

theorem Reads.read {r last : Reader} {text : Text} (h : Reads r text last) (fuel : Nat)
    (hf : text.length < fuel) : Reader.read fuel r text = some last := by
  induction h generalizing fuel with
  | done r h =>
    cases fuel with
    | zero => omega
    | succ fuel => simp [Reader.read, Flags.skip, h]
  | step h hs hl hr ih =>
    cases fuel with
    | zero => omega
    | succ fuel =>
      rw [List.length_cons] at hf
      simp only [Reader.read, Flags.skip, h]
      rw [if_neg (by decide)]
      simp only [hs]
      exact ih fuel (by omega)

theorem step?_of_not_meta (r : Reader) {c : Char} (h : isMeta c = false) (rest : Text) :
    r.step? c rest = some (r.pushChars (.single c), rest) := by
  unfold step?
  split
  all_goals first | rfl | exact absurd h (by decide)

def take (style : Style) (r : Reader) : Atom → Reader
  | .char c => r.push (.set (style.chars c))
  | .gap =>
    { r with
      groups := r.groups + 1
      level := r.level.push ⟨.group (r.groups + 1) style.inside, 3⟩ }

theorem reads_escaped {r last : Reader} (h : r.flags.extended = false) (c : Char) {rest : Text}
    (hr : Reads (r.pushChars (.single c)) rest last) : Reads r (escape [c] ++ rest) last := by
  cases hm : isMeta c with
  | false =>
    have he : escape [c] ++ rest = c :: rest := by simp [escape, hm]
    rw [he]
    exact .step h (step?_of_not_meta r hm rest) (Nat.le_refl _) hr
  | true =>
    have he : escape [c] ++ rest = '\\' :: c :: rest := by simp [escape, hm]
    have hs : r.step? '\\' (c :: rest) = some (r.pushChars (.single c), rest) := by
      simp [step?, readEscape, hm]
    rw [he]
    exact .step h hs (Nat.le_succ _) hr

section Styles
variable {style : Style} {r last : Reader} {rest : Text} {parts : List Regex}

theorem reads_char (h : r.flags = style.flags) (c : Char)
    (hr : Reads (r.take style (.char c)) rest last) : Reads r (escape [c] ++ rest) last := by
  have hp : r.pushChars (.single c) = r.take style (.char c) := by
    rw [pushChars, h]
    rfl
  have hx : r.flags.extended = false := by rw [h, Style.flags]
  exact reads_escaped hx c (hp ▸ hr)

theorem reads_gap (hs : style = .path ∨ style = .host) (h : r.flags = style.flags)
    (hr : Reads (r.take style .gap) rest last) : Reads r (style.spell .gap ++ rest) last := by
  obtain ⟨flags, level, enclosing, groups, names⟩ := r
  obtain rfl : flags = style.flags := h
  -- One step each for the bracket of the group, the class, the repetition and the end.
  rcases hs with rfl | rfl
  · refine .step rfl rfl (Nat.le_refl _) ?_
    refine .step rfl rfl (by simp) ?_
    refine .step rfl rfl (Nat.le_refl _) ?_
    exact .step rfl rfl (Nat.le_refl _) hr
  · refine .step rfl rfl (Nat.le_refl _) ?_
    refine .step rfl rfl (by simp) ?_
    refine .step rfl rfl (Nat.le_refl _) ?_
    exact .step rfl rfl (Nat.le_refl _) hr

theorem flags_take (r : Reader) (atom : Atom) : (r.take style atom).flags = r.flags := by
  cases atom <;> rfl

theorem reads_atoms (hs : style = .path ∨ style = .host) (h : r.flags = style.flags)
    (atoms : List Atom) (hr : Reads (atoms.foldl (take style) r) rest last) :
    Reads r (atoms.flatMap style.spell ++ rest) last := by
  induction atoms generalizing r with
  | nil => exact hr
  | cons atom others ih =>
    rw [List.flatMap_cons, List.append_assoc]
    have ho := ih ((flags_take r atom).trans h) hr
    cases atom with
    | char c => exact reads_char h c ho
    | gap => exact reads_gap hs h ho

/-- The reader has the flags of the style and has met neither open groups nor branches, but these
parts. -/
structure Holds (style : Style) (r : Reader) (parts : List Regex) : Prop where
  flags : r.flags = style.flags
  enclosing : r.enclosing = []
  branches : r.level.branches = []
  regexes : r.level.regexes = parts

theorem Holds.push (h : r.Holds style parts) (part : Part) :
    Holds style { r with level := r.level.push part } (parts ++ [part.regex]) :=
  ⟨h.flags, h.enclosing, h.branches, by rw [Level.regexes_push, h.regexes]⟩

theorem Holds.foldl_take (h : r.Holds style parts) (atoms : List Atom) :
    (atoms.foldl (take style) r).Holds style (parts ++ style.regexes r.groups atoms) := by
  induction atoms generalizing r parts with
  | nil => rwa [Style.regexes, List.append_nil]
  | cons atom rest ih =>
    rw [List.foldl_cons, ← List.singleton_append]
    cases atom with
    | char c =>
      have hp := ih (h.push ⟨.set (style.chars c), 0⟩)
      rw [List.append_assoc] at hp
      exact hp
    | gap =>
      have hn : Holds style (r.take style .gap) (parts ++ [.group (r.groups + 1) style.inside]) :=
        ⟨h.flags, h.enclosing, h.branches, by rw [take, Level.regexes_push, h.regexes]⟩
      have hp := ih hn
      rw [List.append_assoc] at hp
      exact hp

theorem Holds.extended (h : r.Holds style parts) : r.flags.extended = false := by
  rw [h.flags, Style.flags]

def Closes (style : Style) (ending : Text) (ends : List Regex) : Prop :=
  ∀ ⦃r : Reader⦄ ⦃parts : List Regex⦄, r.Holds style parts →
    ∃ last, Reads r ending last ∧ last.Holds style (parts ++ ends)

theorem closes_finish (style : Style) : Closes style ['$'] [.look .finish] := by
  intro r parts h
  have hs : r.step? '$' [] = some (r.push (.look .finish), []) := by
    simp [step?, dollar, h.flags, Style.flags]
  have hp := h.push ⟨.look .finish, 0⟩
  exact ⟨_, .step h.extended hs (Nat.le_refl _) (.done _ hp.extended), hp⟩

theorem closes_closing (slash whole : Bool) :
    Closes .path (closing slash whole) (closingParts slash whole) := by
  have hd : Closes .path (if whole then ['$'] else [])
      (if whole then [.look .finish] else []) := by
    cases whole with
    | false => exact fun r _ h => ⟨r, .done r h.extended, by simpa using h⟩
    | true => exact closes_finish .path
  cases slash with
  | false =>
    rw [closing, closingParts, if_neg Bool.false_ne_true, if_neg Bool.false_ne_true]
    exact hd
  | true =>
    intro r parts h
    have hp := h.push ⟨.rep 0 (some 1) true (.set (.single '/')), 2⟩
    obtain ⟨last, hl, hh⟩ := hd hp
    refine ⟨last, ?_, by simpa [closingParts] using hh⟩
    obtain ⟨flags, level, enclosing, groups, names⟩ := r
    obtain rfl : flags = Style.path.flags := h.flags
    refine .step rfl rfl (by simp) ?_
    refine .step rfl ?_ (Nat.le_refl _) hl
    cases whole <;> rfl

end Styles
end Reader

/-- What is left of a text once a reader has these parts is read as its atoms and its end. -/
theorem parse?_of_holds {style : Style} (hs : style = .path ∨ style = .host) (front : Text)
    {ending : Text} {atoms : List Atom} {first : Reader} {parts ends : List Regex}
    (hf : first.groups = 0) (hh : first.Holds style parts) (hc : Reader.Closes style ending ends)
    (hr : ∀ {rest : Text} {last : Reader}, first.Reads rest last →
      Reader.initial.Reads (front ++ rest) last) {r : Regex}
    (h : parse? (front ++ (atoms.flatMap style.spell ++ ending)) = some r) :
    r = sequence (parts ++ (style.regexes 0 atoms ++ ends)) := by
  obtain ⟨last, hl, hlast⟩ := hc (hh.foldl_take atoms)
  have hread := hr (Reader.reads_atoms hs hh.flags atoms hl)
  unfold parse? at h
  rw [hread.read _ (Nat.lt_succ_self _)] at h
  obtain ⟨read, he, h⟩ := Option.bind_eq_some_iff.1 h
  cases he
  obtain ⟨-, -, h⟩ := Option.bind_eq_some_iff.1 h
  obtain ⟨-, -, h⟩ := Option.bind_eq_some_iff.1 h
  cases h
  rw [Level.whole_regex hlast.branches, hlast.regexes, hf, List.append_assoc]

/-- An anchored expression is read as the sequence of its parts. -/
theorem parse?_ending {atoms : List Atom} {ending : Text} {ends : List Regex}
    (hc : Reader.Closes .path ending ends) {r : Regex}
    (h : parse? ('^' :: (atoms.flatMap Atom.spell ++ ending)) = some r) :
    r = anchored atoms ends := by
  have hh : Reader.Holds .path (Reader.initial.push (.look .start)) [.look .start] :=
    ⟨rfl, rfl, rfl, rfl⟩
  rw [← Style.spell_path] at h
  have hr := parse?_of_holds (.inl rfl) ['^'] rfl hh hc
    (fun hr => .step rfl rfl (Nat.le_refl _) hr) h
  rwa [Style.regexes_path] at hr

theorem parse?_anchored {atoms : List Atom} {slash whole : Bool} {r : Regex}
    (h : parse? ('^' :: (atoms.flatMap Atom.spell ++ closing slash whole)) = some r) :
    r = anchored atoms (closingParts slash whole) :=
  parse?_ending (Reader.closes_closing slash whole) h

/-- An expression that lets the case of letters go is read as the sequence of its parts, too. -/
theorem parse?_caseless {atoms : List Atom} {r : Regex}
    (h : parse? ('^' :: ("(?i)".toList ++ (atoms.flatMap Style.host.spell ++ ['$']))) = some r) :
    r = sequence (.look .start :: (Style.host.regexes 0 atoms ++ [.look .finish])) := by
  let first : Reader := ⟨Style.host.flags, ⟨[], [none, some ⟨.look .start, 0⟩]⟩, [], 0, []⟩
  have hh : first.Holds .host [.look .start] := ⟨rfl, rfl, rfl, rfl⟩
  exact parse?_of_holds (.inr rfl) ('^' :: "(?i)".toList) rfl hh
    (Reader.closes_finish .host)
    (fun hr => .step rfl rfl (Nat.le_refl _) (.step rfl rfl (Nat.le_add_right _ 3) hr)) h

end HttpRouter.Regex
