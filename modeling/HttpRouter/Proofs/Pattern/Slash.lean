import HttpRouter.Proofs.Http.CleanPath
import HttpRouter.Proofs.Pattern.Language

set_option autoImplicit false

/-!
# Slashes at the end of strict templates

A strict pattern does not care about one slash at the end of a path: it matches if the path without
that slash is written by the template without its own.  The texts that a template writes agree with
it on the slash at their end.  Turning the slash of a path therefore leaves its bindings as they are
and takes it into the language of the template or out of it.
-/
namespace HttpRouter

open Regex (Atom closes)

namespace Text

theorem dropLastIf_append (text : Text) (c : Char) : dropLastIf c (text ++ [c]) = text := by
  rw [dropLastIf, endsWith_append, beq_self_eq_true, if_pos rfl, List.dropLast_concat]

theorem dropLastIf_of_not_endsWith {c : Char} {text : Text} (h : endsWith text c = false) :
    dropLastIf c text = text := by
  rw [dropLastIf, h]
  rfl

theorem exists_of_endsWith {c : Char} {text : Text} (h : endsWith text c = true) :
    ∃ front, text = front ++ [c] := List.getLast?_eq_some_iff.1 (beq_iff_eq.1 h)

theorem endsWith_dropLastIf (c : Char) (text : Text) :
    endsWith (dropLastIf c text) c = true ↔ [c, c] <:+ text := by
  cases h : endsWith text c with
  | false =>
    rw [dropLastIf_of_not_endsWith h, h]
    refine iff_of_false nofun ?_
    rintro ⟨front, rfl⟩
    simp [endsWith] at h
  | true =>
    obtain ⟨front, rfl⟩ := exists_of_endsWith h
    rw [dropLastIf_append]
    constructor
    · intro hf
      obtain ⟨first, rfl⟩ := exists_of_endsWith hf
      exact ⟨first, by simp⟩
    · rintro ⟨first, hf⟩
      have he : first ++ [c] = front := by
        rw [← List.append_left_inj [c], ← hf]
        simp
      rw [← he, endsWith_append, beq_self_eq_true]

end Text

namespace Path

open Text (endsWith dropLastIf)

/-- Unless two slashes end it, turning a path changes whether one does and nothing else. -/
theorem turn_spec {path : Text} (h : ¬ ['/', '/'] <:+ path) :
    endsWith (turn path) '/' = !endsWith path '/' ∧
      dropLastIf '/' (turn path) = dropLastIf '/' path := by
  rw [← Text.endsWith_dropLastIf, Bool.not_eq_true] at h
  unfold turn
  cases he : endsWith path '/' with
  | false =>
    rw [if_neg nofun, Text.endsWith_append, Text.dropLastIf_append,
      Text.dropLastIf_of_not_endsWith he]
    exact ⟨rfl, rfl⟩
  | true =>
    have hd : path.dropLast = dropLastIf '/' path := by rw [dropLastIf, if_pos he]
    rw [if_pos rfl, hd, h, Text.dropLastIf_of_not_endsWith h]
    exact ⟨rfl, rfl⟩

end Path

namespace Template

open Text (endsWith dropLastIf)

/-- What a template writes agrees with it on the slash at the end. -/
theorem Writes.endsWith_eq {t : Template} {values : List Text} {written : Text}
    (h : t.Writes values written) : endsWith written '/' = endsWith t.tail '/' := by
  obtain ⟨holes, tail⟩ := t
  induction holes generalizing values written with
  | nil =>
    obtain ⟨-, rfl⟩ := writes_nil.1 h
    rfl
  | cons hole holes ih =>
    obtain ⟨value, others, after, rfl, ⟨hn, hs⟩, rfl, ho⟩ := writes_cons.1 h
    rw [← ih ho, ← List.append_assoc]
    cases after with
    | cons c rest => exact Text.endsWith_append_of_ne_nil (List.cons_ne_nil c rest) _ '/'
    | nil =>
      have hempty : endsWith [] '/' = false := rfl
      rw [List.append_nil, Text.endsWith_append_of_ne_nil hn, hempty, ← Bool.not_eq_true]
      intro he
      obtain ⟨front, rfl⟩ := Text.exists_of_endsWith he
      exact hs (by simp)

theorem fill_concat (holes : List (Text × Text)) (tail : Text) (c : Char) (values : List Text) :
    (mk holes (tail ++ [c])).fill values = (mk holes tail).fill values ++ [c] := by
  simp [fill]

/-- A text is written by a template if it agrees with it on the slash at the end and both agree
without these slashes. -/
theorem writes_trimmed (t : Template) (values : List Text) (written : Text) :
    t.Writes values written ↔ endsWith written '/' = endsWith t.tail '/' ∧
      (t.trimmed true).Writes values (dropLastIf '/' written) := by
  obtain ⟨holes, tail⟩ := t
  cases he : endsWith tail '/' with
  | false =>
    have ht : (mk holes tail).trimmed true = mk holes tail := by
      rw [trimmed, if_pos rfl, Text.dropLastIf_of_not_endsWith he]
    rw [ht]
    constructor
    · intro h
      have hw := h.endsWith_eq.trans he
      rw [Text.dropLastIf_of_not_endsWith hw]
      exact ⟨hw, h⟩
    · rintro ⟨hw, h⟩
      rwa [Text.dropLastIf_of_not_endsWith hw] at h
  | true =>
    obtain ⟨front, rfl⟩ := Text.exists_of_endsWith he
    have ht : (mk holes (front ++ ['/'])).trimmed true = mk holes front := by
      rw [trimmed, if_pos rfl, Text.dropLastIf_append]
    rw [ht]
    constructor
    · rintro ⟨hc, hp, rfl⟩
      rw [fill_concat, Text.endsWith_append, Text.dropLastIf_append]
      exact ⟨rfl, hc, hp, rfl⟩
    · rintro ⟨hw, hc, hp, hf⟩
      obtain ⟨text, rfl⟩ := Text.exists_of_endsWith hw
      rw [Text.dropLastIf_append] at hf
      exact ⟨hc, hp, by rw [fill_concat, hf]⟩

/-- The slash at the end of a template that is read belongs to its tail. -/
theorem endsWith_text (t : Template) : endsWith t.text '/' = endsWith t.tail '/' := by
  by_cases ht : t.tail = []
  · rcases List.eq_nil_or_concat t.holes with hh | ⟨holes, hole, hh⟩
    · simp [text, hh, ht]
    · have hb : t.text = (holes.flatMap (fun hole => hole.1 ++ brace hole.2)
          ++ (hole.1 ++ '\x7b' :: hole.2)) ++ ['\x7d'] := by
        simp [text, hh, ht, brace]
      rw [hb, Text.endsWith_append, ht]
      decide
  · exact Text.endsWith_append_of_ne_nil ht _ '/'

theorem endsWith_trimmed {t : Template} (h : ¬ ['/', '/'] <:+ t.text) :
    endsWith (t.trimmed true).tail '/' = false := by
  rw [← Bool.not_eq_true]
  intro he
  refine h ?_
  obtain ⟨front, hf⟩ := (Text.endsWith_dropLastIf '/' t.tail).1 he
  refine ⟨t.holes.flatMap (fun hole => hole.1 ++ brace hole.2) ++ front, ?_⟩
  rw [text, ← hf, ← List.append_assoc]

def Language (t : Template) (written : Text) : Prop := ∃ values, t.Writes values written

theorem language_iff (t : Template) (written : Text) :
    t.Language written ↔ endsWith written '/' = endsWith t.text '/' ∧
      (t.trimmed true).Language (dropLastIf '/' written) := by
  simp only [Language, writes_trimmed t, endsWith_text, exists_and_left]

/-- What a template without its slash writes ends in no slash, so one at most ends the path. -/
theorem not_double {t : Template} (h : ¬ ['/', '/'] <:+ t.text) {path : Text}
    (hl : (t.trimmed true).Language (dropLastIf '/' path)) : ¬ ['/', '/'] <:+ path := by
  obtain ⟨values, hw⟩ := hl
  rw [← Text.endsWith_dropLastIf, hw.endsWith_eq, endsWith_trimmed h]
  exact nofun

theorem language_one_side {t : Template} (h : ¬ ['/', '/'] <:+ t.text) (path : Text) :
    ¬ (t.Language path ∧ t.Language (Path.turn path)) := by
  rintro ⟨hp, ht⟩
  obtain ⟨he, hl⟩ := (language_iff t path).1 hp
  have hturn := (Path.turn_spec (not_double h hl)).1
  rw [((language_iff t _).1 ht).1, ← he] at hturn
  exact (Bool.eq_not_self _).1 hturn

end Template

namespace Pattern

open Text (endsWith dropLastIf)

variable {template : Text} {p : Pattern} {t : Template}

theorem solves_strict (h : ¬ ['/', '/'] <:+ t.text) (text : Text) (values : List Text) :
    Atom.Solves (closes true true) (t.trimmed true).atoms text values ↔
      (t.trimmed true).Writes values (dropLastIf '/' text) := by
  have he := Template.endsWith_trimmed h
  simp only [Atom.Solves, Template.fits_iff]
  constructor
  · rintro ⟨rest, ⟨written, hw, rfl⟩, hc⟩
    have hwe := hw.endsWith_eq.trans he
    have hr : rest = [] ∨ rest = ['/'] := by simpa [closes] using hc
    rcases hr with rfl | rfl
    · rwa [List.append_nil, Text.dropLastIf_of_not_endsWith hwe]
    · rwa [Text.dropLastIf_append]
  · intro hw
    cases ht : endsWith text '/' with
    | false =>
      rw [Text.dropLastIf_of_not_endsWith ht] at hw
      exact ⟨[], ⟨text, hw, (List.append_nil text).symm⟩, rfl⟩
    | true =>
      obtain ⟨front, rfl⟩ := Text.exists_of_endsWith ht
      rw [Text.dropLastIf_append] at hw
      exact ⟨['/'], ⟨front, hw, rfl⟩, rfl⟩

theorem isSome_bindings?_strict (hf : Form template .path true p t)
    (h : ¬ ['/', '/'] <:+ t.text) (text : Text) :
    (p.bindings? text).isSome = true ↔ (t.trimmed true).Language (dropLastIf '/' text) := by
  rw [bindings?_eq hf, Option.isSome_map]
  exact Atom.isSome_solve_iff.trans (exists_congr fun values => solves_strict h text values)

/-- A slash at the end makes no difference to what a strict pattern binds. -/
theorem bindings?_congr (hf : Form template .path true p t) (h : ¬ ['/', '/'] <:+ t.text)
    {text other : Text} (he : dropLastIf '/' text = dropLastIf '/' other) :
    p.bindings? text = p.bindings? other := by
  rw [bindings?_eq hf, bindings?_eq hf]
  refine congrArg (Option.map _) (Atom.solve_congr fun values => ?_)
  exact (solves_strict h text values).trans (he ▸ (solves_strict h other values).symm)

/-- A strict pattern matches a path that its template stands for, on the side of the template, and
one that the template stands for when its slash is turned, on the other side. -/
theorem sides (hf : Form template .path true p t) (h : ¬ ['/', '/'] <:+ t.text) (path : Text) :
    (t.Language path ↔
      (p.bindings? path).isSome = true ∧ endsWith path '/' = endsWith t.text '/') ∧
    (t.Language (Path.turn path) ∧ ¬ ['/', '/'] <:+ path ↔
      (p.bindings? path).isSome = true ∧ endsWith path '/' ≠ endsWith t.text '/') := by
  rw [isSome_bindings?_strict hf h]
  refine ⟨(Template.language_iff t path).trans And.comm, ?_⟩
  constructor
  · rintro ⟨hl, hd⟩
    obtain ⟨hturn, hdrop⟩ := Path.turn_spec hd
    obtain ⟨he, hstem⟩ := (Template.language_iff t _).1 hl
    rw [hdrop] at hstem
    refine ⟨hstem, fun heq => ?_⟩
    rw [← he, hturn] at heq
    exact (Bool.eq_not_self _).1 heq
  · rintro ⟨hstem, hne⟩
    have hd := Template.not_double h hstem
    obtain ⟨hturn, hdrop⟩ := Path.turn_spec hd
    refine ⟨(Template.language_iff t _).2 ⟨?_, hdrop ▸ hstem⟩, hd⟩
    rw [hturn]
    exact Bool.not_eq.2 hne

end Pattern
end HttpRouter
