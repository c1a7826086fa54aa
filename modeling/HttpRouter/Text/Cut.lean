set_option autoImplicit false

namespace HttpRouter

abbrev Text := List Char

namespace Text

def cut? (sep : Char) : Text → Option (Text × Text)
  | [] => none
  | c :: rest =>
    if c = sep then some ([], rest)
    else (cut? sep rest).map fun (before, after) => (c :: before, after)

/-- A text without `sep` lies wholly before it. -/
def cut (sep : Char) (text : Text) : Text × Text :=
  (cut? sep text).getD (text, [])

theorem eq_of_cut? {sep : Char} {text before after : Text}
    (h : cut? sep text = some (before, after)) : text = before ++ sep :: after := by
  induction text generalizing before with
  | nil => simp [cut?] at h
  | cons c rest ih =>
    by_cases hc : c = sep
    · simp [cut?, hc] at h
      simp [h, hc]
    · simp only [cut?, hc, if_false, Option.map_eq_some_iff, Prod.exists, Prod.mk.injEq] at h
      obtain ⟨b, a, hb, rfl, rfl⟩ := h
      simp [ih hb]

theorem cut_eq {sep : Char} {before : Text} (h : sep ∉ before) (after : Text) :
    cut sep (before ++ sep :: after) = (before, after) := by
  unfold cut
  induction before with
  | nil => simp [cut?]
  | cons c rest ih =>
    rw [List.mem_cons, not_or] at h
    have hr := ih h.2
    cases hc : cut? sep (rest ++ sep :: after) with
    | none =>
      rw [hc] at hr
      have hl := congrArg (fun p : Text × Text => p.1.length) hr
      simp at hl
    | some parts =>
      rw [hc] at hr
      simp only [Option.getD_some] at hr
      simp [cut?, Ne.symm h.1, hc, hr]

theorem cut_of_not_mem {sep : Char} {text : Text} (h : sep ∉ text) :
    cut sep text = (text, []) := by
  cases hc : cut? sep text with
  | none => rw [cut, hc, Option.getD_none]
  | some parts => exact absurd (by rw [eq_of_cut? hc]; simp) h

theorem not_mem_cut (sep : Char) (text : Text) : sep ∉ (cut sep text).1 := by
  induction text with
  | nil => simp [cut, cut?]
  | cons c rest ih =>
    unfold cut at ih ⊢
    by_cases hc : c = sep
    · simp [cut?, hc]
    · cases hr : cut? sep rest with
      | none => simpa [cut?, hc, hr, Ne.symm hc] using ih
      | some parts => simpa [cut?, hc, hr, Ne.symm hc] using ih

/-- The pieces between separators; a text without one is a single piece. -/
def pieces (sep : Char) : Text → List Text
  | [] => [[]]
  | c :: rest =>
    if c = sep then [] :: pieces sep rest
    else match pieces sep rest with
      | [] => [[c]]
      | piece :: others => (c :: piece) :: others

theorem pieces_ne_nil (sep : Char) (text : Text) : pieces sep text ≠ [] := by
  cases text with
  | nil => simp [pieces]
  | cons c rest =>
    simp only [pieces]
    split
    · simp
    · split <;> simp

def join (sep : Text) : List Text → Text
  | [] => []
  | [piece] => piece
  | piece :: next :: others => piece ++ sep ++ join sep (next :: others)

theorem join_eq_intercalate (sep : Text) (texts : List Text) :
    join sep texts = sep.intercalate texts := by
  induction texts with
  | nil => rfl
  | cons first rest ih =>
    cases rest with
    | nil => simp [join]
    | cons next others => rw [join, ih, List.intercalate_cons_cons]

theorem join_pieces (sep : Char) (text : Text) : join [sep] (pieces sep text) = text := by
  induction text with
  | nil => rfl
  | cons c rest ih =>
    have hne := pieces_ne_nil sep rest
    by_cases hc : c = sep
    · simp only [pieces, hc, if_true]
      cases hp : pieces sep rest with
      | nil => exact absurd hp hne
      | cons piece others => rw [hp] at ih; simp [join, ih]
    · simp only [pieces, hc, if_false]
      cases hp : pieces sep rest with
      | nil => exact absurd hp hne
      | cons piece others =>
        rw [hp] at ih
        cases others with
        | nil => simpa [join] using ih
        | cons next more => simp [join] at ih ⊢; exact ih

/-- Letters of ASCII in lower case, all other characters unchanged. -/
def lower (text : Text) : Text := text.map Char.toLower

/-- Equality that ignores the case of ASCII letters. -/
def sameName (a b : Text) : Bool := lower a == lower b

def startsWith (text start : Text) : Bool := start.isPrefixOf text

def endsWith (text : Text) (c : Char) : Bool := text.getLast? == some c

theorem endsWith_append (text : Text) (c d : Char) :
    endsWith (text ++ [c]) d = (c == d) := by
  simp [endsWith]

theorem endsWith_append_of_ne_nil {back : Text} (h : back ≠ []) (front : Text) (c : Char) :
    endsWith (front ++ back) c = endsWith back c := by
  rw [endsWith, endsWith, List.getLast?_append, List.getLast?_eq_some_getLast h, Option.some_or]

def dropLastIf (c : Char) (text : Text) : Text :=
  if endsWith text c then text.dropLast else text

def trimEnd (c : Char) (text : Text) : Text :=
  (text.reverse.dropWhile (· == c)).reverse

/-- What stands before and after the first occurrence of `part`, if there is one. -/
def cutAt? (part : Text) : Text → Option (Text × Text)
  | [] => if part.isEmpty then some ([], []) else none
  | c :: rest =>
    if startsWith (c :: rest) part then some ([], (c :: rest).drop part.length)
    else (cutAt? part rest).map fun (before, after) => (c :: before, after)

def hasPart (part text : Text) : Bool := (cutAt? part text).isSome

def trimBlanks (blank : Char → Bool) (text : Text) : Text :=
  ((text.dropWhile blank).reverse.dropWhile blank).reverse

end Text
end HttpRouter
