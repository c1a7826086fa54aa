import HttpRouter.Proofs.Regex.Reading

set_option autoImplicit false

/-!
# Filling gaps

A sequence of characters and gaps fits a text if the text can be had by putting values into the
gaps, which are not empty and have no slash.  `solve` looks for such values as a backtracking search
does, every gap taking as much as it can at first.  It finds values whenever there are some, and
those that it finds make the first value as long as possible, then the second, and so on.
-/
namespace HttpRouter.Regex.Atom

/-- The values in turn fill the gaps, and what comes out is the text before `rest`. -/
inductive Fits : List Atom → List Text → Text → Text → Prop
  | nil (rest : Text) : Fits [] [] rest rest
  | char (c : Char) {atoms : List Atom} {values : List Text} {text rest : Text}
      (h : Fits atoms values text rest) : Fits (.char c :: atoms) values (c :: text) rest
  | gap {value : Text} (hn : value ≠ []) (hs : '/' ∉ value) {atoms : List Atom}
      {values : List Text} {text rest : Text} (h : Fits atoms values text rest) :
      Fits (.gap :: atoms) (value :: values) (value ++ text) rest

theorem fits_nil {values : List Text} {text rest : Text} :
    Fits [] values text rest ↔ values = [] ∧ text = rest := by
  constructor
  · rintro ⟨⟩
    exact ⟨rfl, rfl⟩
  · rintro ⟨rfl, rfl⟩
    exact .nil text

theorem fits_chars (front : Text) {atoms : List Atom} {values : List Text} {text rest : Text} :
    Fits (front.map char ++ atoms) values text rest ↔
      ∃ after, text = front ++ after ∧ Fits atoms values after rest := by
  induction front generalizing text with
  | nil => simp
  | cons c front ih =>
    constructor
    · intro h
      cases h with
      | char c h =>
        obtain ⟨after, rfl, ha⟩ := ih.1 h
        exact ⟨after, rfl, ha⟩
    · rintro ⟨after, rfl, ha⟩
      exact (ih.2 ⟨after, rfl, ha⟩).char c

theorem fits_gap {atoms : List Atom} {values : List Text} {text rest : Text} :
    Fits (gap :: atoms) values text rest ↔
      ∃ value others after, values = value :: others ∧ (value ≠ [] ∧ '/' ∉ value) ∧
        text = value ++ after ∧ Fits atoms others after rest := by
  constructor
  · intro h
    cases h with
    | gap hn hs h => exact ⟨_, _, _, rfl, ⟨hn, hs⟩, rfl, h⟩
  · rintro ⟨value, others, after, rfl, ⟨hn, hs⟩, rfl, h⟩
    exact h.gap hn hs

theorem Fits.length_eq {atoms : List Atom} {values : List Text} {text rest : Text}
    (h : Fits atoms values text rest) : values.length = gaps atoms := by
  induction h with
  | nil rest => rfl
  | char c h ih => simpa [gaps] using ih
  | gap hn hs h ih => simpa [gaps] using ih

/-- What a gap can take from the beginning of a text, the longest first, with the rest of the
text. -/
def heads : Text → List (Text × Text)
  | [] => []
  | c :: rest =>
    if c = '/' then []
    else (heads rest).map (fun head => (c :: head.1, head.2)) ++ [([c], rest)]

theorem mem_heads {text : Text} {head : Text × Text} :
    head ∈ heads text ↔ head.1 ≠ [] ∧ '/' ∉ head.1 ∧ head.1 ++ head.2 = text := by
  obtain ⟨value, rest⟩ := head
  induction text generalizing value with
  | nil => cases value <;> simp [heads]
  | cons c text ih =>
    rw [heads]
    split
    · rename_i hc
      subst hc
      cases value with
      | nil => simp
      | cons d value =>
        refine iff_of_false nofun ?_
        rintro ⟨-, hs, he⟩
        exact hs (by simp [(List.cons.inj he).1])
    · rename_i hc
      cases value with
      | nil => simp
      | cons d value =>
        simp only [List.mem_append, List.mem_map, Prod.exists, Prod.mk.injEq, List.cons.injEq,
          List.mem_singleton]
        constructor
        · rintro (⟨v, r, hm, ⟨rfl, rfl⟩, rfl⟩ | ⟨⟨rfl, rfl⟩, rfl⟩)
          · obtain ⟨-, hs, rfl⟩ := (ih v).1 hm
            simp [hs, Ne.symm hc]
          · simp [Ne.symm hc]
        · rintro ⟨-, hs, he⟩
          obtain ⟨rfl, rfl⟩ := List.cons.inj he
          rw [List.mem_cons, not_or] at hs
          cases value with
          | nil => exact .inr ⟨⟨rfl, rfl⟩, rfl⟩
          | cons e value =>
            exact .inl ⟨_, _, (ih (e :: value)).2 ⟨nofun, hs.2, rfl⟩, ⟨rfl, rfl⟩, rfl⟩

/-- Of two heads of a text the one that is tried first is longer. -/
theorem heads_decrease (text : Text) :
    (heads text).Pairwise fun first later => later.1.length < first.1.length := by
  induction text with
  | nil => exact .nil
  | cons c rest ih =>
    rw [heads]
    split
    · exact .nil
    · rw [List.pairwise_append, List.pairwise_map]
      refine ⟨ih.imp fun h => by simpa using h, List.pairwise_singleton _ _, ?_⟩
      intro first hf later hl
      obtain ⟨head, hm, rfl⟩ := List.mem_map.1 hf
      rw [List.mem_singleton.1 hl]
      have hn := List.length_pos_iff.2 (mem_heads.1 hm).1
      simpa using hn

def solve (accepts : Text → Bool) : List Atom → Text → Option (List Text)
  | [], rest => if accepts rest then some [] else none
  | .char _ :: _, [] => none
  | .char c :: atoms, d :: rest => if d = c then solve accepts atoms rest else none
  | .gap :: atoms, text =>
    (heads text).findSome? fun head => (solve accepts atoms head.2).map (head.1 :: ·)

/-- At the first place where the lengths of two values differ, the first list has the longer one. -/
def Greedier : List Text → List Text → Prop
  | value :: values, other :: others =>
    other.length < value.length ∨ value.length = other.length ∧ Greedier values others
  | _, _ => True

def Solves (accepts : Text → Bool) (atoms : List Atom) (text : Text) (values : List Text) : Prop :=
  ∃ rest, Fits atoms values text rest ∧ accepts rest = true

variable {accepts : Text → Bool} {atoms : List Atom} {text rest : Text} {values others : List Text}

theorem solves_of_solve (h : solve accepts atoms text = some values) :
    Solves accepts atoms text values := by
  induction atoms generalizing text values with
  | nil =>
    simp only [solve] at h
    split at h
    · cases h
      exact ⟨text, .nil text, ‹_›⟩
    · cases h
  | cons atom atoms ih =>
    cases atom with
    | char c =>
      cases text with
      | nil => cases h
      | cons d text =>
        simp only [solve] at h
        split at h
        · rename_i hd
          obtain ⟨rest, hf, ha⟩ := ih h
          exact ⟨rest, hd ▸ hf.char d, ha⟩
        · cases h
    | gap =>
      obtain ⟨before, ⟨value, after⟩, later, hm, hv, -⟩ := List.findSome?_eq_some_iff.1 h
      obtain ⟨inner, hi, rfl⟩ := Option.map_eq_some_iff.1 hv
      obtain ⟨rest, hf, ha⟩ := ih hi
      have hh : (value, after) ∈ heads text := by simp [hm]
      obtain ⟨hn, hs, rfl⟩ := mem_heads.1 hh
      exact ⟨rest, hf.gap hn hs, ha⟩

/-- If some values solve, then the ones that are found are at least as greedy. -/
theorem solve_of_solves (h : Solves accepts atoms text others) :
    ∃ values, solve accepts atoms text = some values ∧ Greedier values others := by
  obtain ⟨rest, hf, ha⟩ := h
  induction hf with
  | nil rest => exact ⟨[], by simp [solve, ha], trivial⟩
  | char c h ih =>
    obtain ⟨values, hs, hg⟩ := ih ha
    exact ⟨values, by simp [solve, hs], hg⟩
  | @gap value hn hslash atoms values text rest h ih =>
    obtain ⟨inner, hs, hg⟩ := ih ha
    have hm : (value, text) ∈ heads (value ++ text) := mem_heads.2 ⟨hn, hslash, rfl⟩
    obtain ⟨before, later, hl⟩ := List.append_of_mem hm
    rw [solve, hl, List.findSome?_append]
    -- A solution with a longer value comes before the one that is given.
    cases hb : before.findSome? fun head => (solve accepts atoms head.2).map (head.1 :: ·) with
    | none => exact ⟨value :: inner, by simp [hs], .inr ⟨rfl, hg⟩⟩
    | some found =>
      obtain ⟨first, head, rest, rfl, hv, -⟩ := List.findSome?_eq_some_iff.1 hb
      obtain ⟨others, -, rfl⟩ := Option.map_eq_some_iff.1 hv
      refine ⟨_, rfl, .inl ?_⟩
      have hd := heads_decrease (value ++ text)
      rw [hl, List.pairwise_append] at hd
      exact hd.2.2 head (by simp) _ List.mem_cons_self

/-- Values that fill the same gaps in one text and have the same lengths are the same. -/
theorem eq_of_greedier {after : Text} (hv : Fits atoms values text rest)
    (ho : Fits atoms others text after) (h : Greedier values others) (g : Greedier others values) :
    values = others := by
  induction hv generalizing others after with
  | nil rest =>
    cases ho
    rfl
  | char c hv ih =>
    cases ho with
    | char c ho => exact ih ho h g
  | @gap value hn hs atoms values text rest hv ih =>
    generalize he : value ++ text = whole at ho
    cases ho with
    | @gap other hn' hs' atoms others text' rest' ho =>
      have hl : value.length = other.length := by
        rcases h with h | h <;> rcases g with g | g <;> omega
      obtain ⟨rfl, rfl⟩ := List.append_inj he hl
      have hg := (h.resolve_left (Nat.lt_irrefl _)).2
      have hg' := (g.resolve_left (Nat.lt_irrefl _)).2
      rw [ih ho hg hg']

/-- The search finds the greediest solution. -/
theorem solve_eq_some_iff : solve accepts atoms text = some values ↔
    Solves accepts atoms text values ∧
      ∀ others, Solves accepts atoms text others → Greedier values others := by
  constructor
  · intro h
    refine ⟨solves_of_solve h, fun others ho => ?_⟩
    obtain ⟨found, hf, hg⟩ := solve_of_solves ho
    rw [h] at hf
    cases hf
    exact hg
  · rintro ⟨hs, hg⟩
    obtain ⟨found, hf, hg'⟩ := solve_of_solves hs
    have hfound := solves_of_solve hf
    obtain ⟨rest, hr, -⟩ := hs
    obtain ⟨rest', hr', -⟩ := id hfound
    rw [hf, eq_of_greedier hr hr' (hg found hfound) hg']

theorem isSome_solve_iff :
    (solve accepts atoms text).isSome = true ↔ ∃ values, Solves accepts atoms text values := by
  rw [Option.isSome_iff_exists]
  constructor
  · rintro ⟨values, h⟩
    exact ⟨values, solves_of_solve h⟩
  · rintro ⟨others, h⟩
    obtain ⟨values, hv, -⟩ := solve_of_solves h
    exact ⟨values, hv⟩

theorem solve_congr {accepts' : Text → Bool} {atoms' : List Atom} {text' : Text}
    (h : ∀ values, Solves accepts atoms text values ↔ Solves accepts' atoms' text' values) :
    solve accepts atoms text = solve accepts' atoms' text' := by
  refine Option.ext fun values => ?_
  simp only [solve_eq_some_iff, h]

end HttpRouter.Regex.Atom
