import HttpRouter.Pattern.Template
import HttpRouter.Proofs.Regex.Reading

set_option autoImplicit false

namespace HttpRouter.Template

open Regex (Atom)

def prepend (text : Text) (t : Template) : Template :=
  match t.holes with
  | [] => ⟨[], text ++ t.tail⟩
  | (literal, inside) :: others => ⟨(text ++ literal, inside) :: others, t.tail⟩

/-- The placeholders of both templates; literal text at the seam is joined. -/
def join (t u : Template) : Template :=
  { prepend t.tail u with holes := t.holes ++ (prepend t.tail u).holes }

def insides (t : Template) : List Text := t.holes.map Prod.snd

theorem readFrom_literal (literal held text : Text) :
    readFrom 0 literal held text = readFrom 0 [] held text := by
  induction text generalizing held with
  | nil => rfl
  | cons c rest ih =>
    simp only [readFrom]
    rw [ih]

theorem readFrom_append {level : Nat} {literal held a : Text} {t : Template}
    (h : readFrom level literal held a = some t) (b : Text) :
    readFrom level literal held (a ++ b)
      = (readFrom 0 [] t.tail.reverse b).map fun u => { u with holes := t.holes ++ u.holes } := by
  -- The first text is read to its end at level zero, with its tail held.
  induction a generalizing level literal held t with
  | nil =>
    cases level with
    | succ level => cases h
    | zero =>
      cases h
      rw [List.nil_append, readFrom_literal, List.reverse_reverse]
      simp
  | cons c rest ih =>
    cases level with
    | zero =>
      simp only [readFrom, List.cons_append] at h ⊢
      split at h
      · rename_i hc
        rw [if_pos hc]
        exact ih h
      · rename_i hc
        rw [if_neg hc]
        split at h
        · cases h
        · rename_i hd
          rw [if_neg hd]
          exact ih h
    | succ level =>
      simp only [readFrom, List.cons_append] at h ⊢
      split at h
      · rename_i hc
        rw [if_pos hc]
        exact ih h
      · rename_i hc
        rw [if_neg hc]
        split at h
        · rename_i hd
          rw [if_pos hd]
          cases level with
          | zero =>
            obtain ⟨u, hu, rfl⟩ := Option.map_eq_some_iff.1 h
            simp only
            rw [ih hu, Option.map_map]
            rfl
          | succ outer => exact ih h
        · rename_i hd
          rw [if_neg hd]
          exact ih h

theorem readFrom_prepend_literal (text literal held rest : Text) (level : Nat) :
    readFrom (level + 1) (text ++ literal) held rest
      = (readFrom (level + 1) literal held rest).map (prepend text) := by
  induction rest generalizing level held with
  | nil => rfl
  | cons c rest ih =>
    simp only [readFrom]
    split
    · exact ih _ _
    · split
      · cases level with
        | zero =>
          simp only
          rw [Option.map_map]
          rfl
        | succ outer => exact ih _ _
      · exact ih _ _

theorem readFrom_prepend (text held rest : Text) :
    readFrom 0 [] (held ++ text.reverse) rest = (readFrom 0 [] held rest).map (prepend text) := by
  induction rest generalizing held with
  | nil => simp [readFrom, prepend]
  | cons c rest ih =>
    simp only [readFrom]
    split
    · rw [List.reverse_append, List.reverse_reverse]
      exact readFrom_prepend_literal text held.reverse [] rest 0
    · split
      · rfl
      · exact ih (c :: held)

/-- What the second text is read as is joined to what the first one is read as. -/
theorem read?_append {a : Text} {t : Template} (h : read? a = some t) (b : Text) :
    read? (a ++ b) = (read? b).map t.join := by
  have hp := readFrom_prepend t.tail [] b
  rw [List.nil_append] at hp
  rw [read?, readFrom_append h, hp, Option.map_map]
  rfl

theorem insides_join (t u : Template) : (t.join u).insides = t.insides ++ u.insides := by
  unfold insides join prepend
  cases hu : u.holes <;> simp

/-- The template puts the text together again that it was read from. -/
theorem text_of_readFrom {level : Nat} {literal held rest : Text} {t : Template}
    (h : readFrom level literal held rest = some t) :
    t.text = (if level = 0 then [] else literal ++ ['\x7b']) ++ held.reverse ++ rest := by
  induction rest generalizing level literal held t with
  | nil =>
    cases level with
    | zero => cases h; simp [text]
    | succ level => cases h
  | cons c rest ih =>
    cases level with
    | zero =>
      simp only [readFrom] at h
      split at h
      · rename_i hc
        rw [ih h]
        simp [hc]
      · split at h
        · cases h
        · rw [ih h]
          simp
    | succ level =>
      simp only [readFrom] at h
      split at h
      · rw [ih h]
        simp
      · split at h
        · rename_i hd
          cases level with
          | zero =>
            obtain ⟨u, hu, rfl⟩ := Option.map_eq_some_iff.1 h
            have hr := ih hu
            simp only [text, if_true, List.nil_append, List.reverse_nil] at hr
            simp [text, brace, ← hr, hd]
          | succ outer =>
            rw [ih h]
            simp
        · rw [ih h]
          simp

theorem text_of_read? {template : Text} {t : Template} (h : read? template = some t) :
    t.text = template := by
  rw [text_of_readFrom h]
  rfl

def atoms (t : Template) : List Atom :=
  t.holes.flatMap (fun (literal, _) => literal.map Atom.char ++ [.gap]) ++ t.tail.map Atom.char

theorem atoms_prepend (text : Text) (t : Template) :
    (prepend text t).atoms = text.map Atom.char ++ t.atoms := by
  unfold atoms prepend
  cases t.holes <;> simp

theorem atoms_join (t u : Template) : (t.join u).atoms = t.atoms ++ u.atoms := by
  have hp := atoms_prepend t.tail u
  unfold atoms at hp ⊢
  rw [List.append_assoc, ← hp, ← List.append_assoc, ← List.flatMap_append]
  rfl

theorem gaps_atoms (t : Template) : Atom.gaps t.atoms = t.insides.length := by
  have chars : ∀ text : Text, (text.map Atom.char).countP (· == .gap) = 0 := by
    intro text
    simp [List.countP_eq_zero]
  have holes : ∀ holes : List (Text × Text),
      (holes.flatMap fun (literal, _) => literal.map Atom.char ++ [.gap]).countP (· == .gap)
        = holes.length := by
    intro holes
    induction holes with
    | nil => rfl
    | cons hole rest ih => simp [chars, ih]
  simp [Atom.gaps, atoms, insides, chars, holes]

theorem endsWith_of_getLast?_atoms {template : Text} {t : Template} (h : read? template = some t)
    (ha : t.atoms.getLast? = some (.char '/')) : Text.endsWith template '/' = true := by
  have hl : t.tail.getLast? = some '/' := by
    cases hn : t.tail.getLast? with
    | some c => simpa [atoms, hn] using ha
    | none =>
      rw [List.getLast?_eq_none_iff] at hn
      rcases List.eq_nil_or_concat t.holes with hh | ⟨front, hole, hh⟩
      · simp [atoms, hn, hh] at ha
      · simp [atoms, hn, hh] at ha
  rw [← text_of_read? h]
  simp [Text.endsWith, text, hl]

def trimmed (optional : Bool) (t : Template) : Template :=
  if optional then { t with tail := Text.dropLastIf '/' t.tail } else t

theorem insides_trimmed (optional : Bool) (t : Template) :
    (t.trimmed optional).insides = t.insides := by
  cases optional <;> rfl

theorem atoms_trimmed (optional : Bool) (t : Template) :
    (t.trimmed optional).atoms = t.atoms ∨ t.atoms = (t.trimmed optional).atoms ++ [.char '/'] := by
  cases optional with
  | false => exact .inl rfl
  | true =>
    cases he : Text.endsWith t.tail '/' with
    | false =>
      left
      simp [trimmed, Text.dropLastIf, he]
    | true =>
      right
      obtain ⟨front, hf⟩ := List.getLast?_eq_some_iff.1 (beq_iff_eq.1 he)
      have hd : Text.dropLastIf '/' (front ++ ['/']) = front := by
        rw [hf] at he
        rw [Text.dropLastIf, if_pos he, List.dropLast_concat]
      simp [trimmed, atoms, hf, hd]

/-- What a template that does not end in a slash is read as stays when a slash is left off at the
end of a template that goes on after it. -/
theorem prefix_trimmed {a : Text} {t : Template} (ha : read? a = some t)
    (hs : Text.endsWith a '/' = false) (u : Template) (optional : Bool) :
    t.atoms <+: ((t.join u).trimmed optional).atoms := by
  have hp : t.atoms <+: (t.join u).atoms := by
    rw [atoms_join]
    exact List.prefix_append _ _
  rcases atoms_trimmed optional (t.join u) with he | he
  · rw [he]
    exact hp
  · rw [he, List.prefix_concat_iff] at hp
    rcases hp with hp | hp
    · have hl : t.atoms.getLast? = some (.char '/') := by
        rw [hp]
        exact List.getLast?_concat
      rw [endsWith_of_getLast?_atoms ha hl] at hs
      cases hs
    · exact hp

end HttpRouter.Template
