import HttpRouter.Proofs.Pattern.Ports
import HttpRouter.Proofs.Pattern.Queries
import Mathlib.Data.List.Infix

set_option autoImplicit false

namespace HttpRouter

namespace Text

/-- The text closes as many braces as were open before it, and never a brace that is not open. -/
def Closes (level : Nat) (text : Text) : Prop :=
  (∀ front, front <+: text → front.count '\x7d' ≤ level + front.count '\x7b') ∧
    text.count '\x7d' = level + text.count '\x7b'

def Balanced (text : Text) : Prop :=
  (∀ front, front <+: text → front.count '\x7d' ≤ front.count '\x7b') ∧
    text.count '\x7d' = text.count '\x7b'

instance (text : Text) : Decidable text.Balanced :=
  decidable_of_iff
    ((∀ front ∈ text.inits, front.count '\x7d' ≤ front.count '\x7b') ∧
      text.count '\x7d' = text.count '\x7b')
    (by simp only [Balanced, List.mem_inits])

theorem closes_zero {text : Text} : text.Closes 0 ↔ text.Balanced := by
  simp only [Closes, Balanced, Nat.zero_add]

variable {level : Nat} {c : Char} {rest : Text}

theorem closes_cons : Closes level (c :: rest) ↔
    (∀ front, front <+: rest →
      (c :: front).count '\x7d' ≤ level + (c :: front).count '\x7b') ∧
    (c :: rest).count '\x7d' = level + (c :: rest).count '\x7b' := by
  refine and_congr_left fun _ => ⟨fun h front hf => h _ (List.cons_prefix_cons.2 ⟨rfl, hf⟩), ?_⟩
  rintro h front hf
  rcases List.prefix_cons_iff.1 hf with rfl | ⟨front, rfl, hr⟩
  · exact Nat.zero_le _
  · exact h front hr

theorem closes_nil : Closes level [] ↔ level = 0 := by
  simp [Closes, eq_comm]

theorem closes_open : Closes level ('\x7b' :: rest) ↔ Closes (level + 1) rest := by
  rw [closes_cons]
  simp [Closes, Nat.add_comm, Nat.add_left_comm]

theorem closes_close : Closes (level + 1) ('\x7d' :: rest) ↔ Closes level rest := by
  rw [closes_cons]
  simp [Closes, Nat.add_right_comm]

theorem not_closes_close : ¬ Closes 0 ('\x7d' :: rest) := by
  rw [closes_cons]
  rintro ⟨h, -⟩
  exact absurd (h [] List.nil_prefix) (by decide)

theorem closes_other (ho : c ≠ '\x7b') (hc : c ≠ '\x7d') :
    Closes level (c :: rest) ↔ Closes level rest := by
  rw [closes_cons]
  simp [Closes, ho, hc]

end Text
namespace Template

theorem isSome_readFrom (text : Text) (level : Nat) (literal held : Text) :
    (readFrom level literal held text).isSome = true ↔ text.Closes level := by
  induction text generalizing level literal held with
  | nil =>
    rw [Text.closes_nil]
    cases level <;> simp [readFrom]
  | cons c rest ih =>
    by_cases ho : c = '\x7b'
    · subst ho
      rw [Text.closes_open]
      cases level with
      | zero => exact ih 1 held.reverse []
      | succ level => exact ih (level + 2) literal ('\x7b' :: held)
    by_cases hc : c = '\x7d'
    · subst hc
      rcases level with - | - | outer
      · exact iff_of_false Bool.false_ne_true Text.not_closes_close
      · rw [Text.closes_close, ← ih 0 [] []]
        exact Iff.of_eq (congrArg (· = true) Option.isSome_map)
      · rw [Text.closes_close, ← ih]
        rfl
    · rw [Text.closes_other ho hc, ← ih level literal (c :: held)]
      cases level <;> simp only [readFrom, if_neg ho, if_neg hc]

structure Proper (t : Template) : Prop where
  literals : ∀ literal ∈ t.literals, literal.Braceless
  insides : ∀ inside ∈ t.insides, inside.Balanced

theorem proper_nil {tail : Text} : Proper ⟨[], tail⟩ ↔ tail.Braceless := by
  constructor
  · exact fun h => h.literals tail List.mem_cons_self
  · refine fun h => ⟨fun literal hl => ?_, nofun⟩
    rwa [List.mem_singleton.1 hl]

theorem proper_cons {literal inside tail : Text} {holes : List (Text × Text)} :
    Proper ⟨(literal, inside) :: holes, tail⟩ ↔
      literal.Braceless ∧ inside.Balanced ∧ Proper ⟨holes, tail⟩ := by
  constructor
  · intro h
    have hl := List.forall_mem_cons.1 h.literals
    have hi := List.forall_mem_cons.1 h.insides
    exact ⟨hl.1, hi.1, hl.2, hi.2⟩
  · rintro ⟨hl, hi, h⟩
    exact ⟨List.forall_mem_cons.2 ⟨hl, h.literals⟩, List.forall_mem_cons.2 ⟨hi, h.insides⟩⟩

/-- Inside braces, whatever closes them completes a balanced text. -/
def Held (literal held : Text) : Nat → Prop
  | 0 => held.Braceless
  | level + 1 =>
    literal.Braceless ∧ ∀ back : Text, back.Closes level → Text.Balanced (held.reverse ++ back)

theorem held_nil (literal : Text) : Held literal [] 0 := fun _ hc => absurd hc List.not_mem_nil

theorem proper_of_readFrom {level : Nat} {literal held text : Text} {t : Template}
    (h : readFrom level literal held text = some t) (hh : Held literal held level) :
    t.Proper := by
  induction text generalizing level literal held t with
  | nil =>
    cases level with
    | zero =>
      cases h
      exact proper_nil.2 fun c hc => hh c (List.mem_reverse.1 hc)
    | succ level => cases h
  | cons c rest ih =>
    cases level with
    | zero =>
      simp only [readFrom] at h
      split at h
      · refine ih h ⟨fun c hc => hh c (List.mem_reverse.1 hc), fun back hb => ?_⟩
        exact Text.closes_zero.1 hb
      · rename_i ho
        split at h
        · cases h
        · rename_i hc
          refine ih h fun d hd => ?_
          rcases List.mem_cons.1 hd with rfl | hd
          · exact ⟨ho, hc⟩
          · exact hh d hd
    | succ level =>
      obtain ⟨hl, hb⟩ := hh
      simp only [readFrom] at h
      have step : ∀ next, (∀ back : Text, back.Closes next → Text.Closes level (c :: back)) →
          ∀ back : Text, back.Closes next → Text.Balanced ((c :: held).reverse ++ back) := by
        intro next hs back hback
        rw [List.reverse_cons, List.append_assoc]
        exact hb _ (hs back hback)
      split at h
      · rename_i ho
        subst ho
        exact ih h ⟨hl, step _ fun back => Text.closes_open.2⟩
      · rename_i ho
        split at h
        · rename_i hc
          subst hc
          cases level with
          | zero =>
            obtain ⟨u, hu, rfl⟩ := Option.map_eq_some_iff.1 h
            have hi := hb [] (Text.closes_nil.2 rfl)
            rw [List.append_nil] at hi
            exact proper_cons.2 ⟨hl, hi, ih hu (held_nil _)⟩
          | succ outer => exact ih h ⟨hl, step _ fun back => Text.closes_close.2⟩
        · rename_i hc
          exact ih h ⟨hl, step _ fun back => (Text.closes_other ho hc).2⟩

theorem readFrom_closes {level : Nat} {inside : Text} (h : inside.Closes level)
    (literal held rest : Text) :
    readFrom (level + 1) literal held (inside ++ '\x7d' :: rest)
      = (read? rest).map fun t =>
          { t with holes := (literal, held.reverse ++ inside) :: t.holes } := by
  induction inside generalizing level held with
  | nil =>
    obtain rfl := Text.closes_nil.1 h
    rw [List.append_nil]
    rfl
  | cons c inside ih =>
    rw [← List.singleton_append (l := inside), ← List.append_assoc, ← List.reverse_cons]
    by_cases ho : c = '\x7b'
    · subst ho
      exact ih (Text.closes_open.1 h) _
    by_cases hc : c = '\x7d'
    · subst hc
      cases level with
      | zero => exact absurd h Text.not_closes_close
      | succ level => exact ih (Text.closes_close.1 h) _
    · simp only [List.cons_append, readFrom, if_neg ho, if_neg hc]
      exact ih ((Text.closes_other ho hc).1 h) _

theorem read?_text {t : Template} (h : t.Proper) : read? t.text = some t := by
  obtain ⟨holes, tail⟩ := t
  induction holes with
  | nil => exact readFrom_braceless (proper_nil.1 h) 0 [] []
  | cons hole holes ih =>
    obtain ⟨literal, inside⟩ := hole
    obtain ⟨hl, hi, h⟩ := proper_cons.1 h
    have htext : text ⟨(literal, inside) :: holes, tail⟩
        = literal ++ '\x7b' :: (inside ++ '\x7d' :: text ⟨holes, tail⟩) := by
      simp [text, brace]
    have hliteral := readFrom_append (readFrom_braceless hl 0 [] [])
      ('\x7b' :: (inside ++ '\x7d' :: text ⟨holes, tail⟩))
    have hinside := readFrom_closes (Text.closes_zero.2 hi) literal [] (text ⟨holes, tail⟩)
    rw [htext, read?, hliteral]
    simp only [readFrom, if_true, List.reverse_reverse, List.reverse_nil,
      List.nil_append] at hinside ⊢
    rw [hinside, ih h]
    rfl

theorem read?_eq_some_iff {template : Text} {t : Template} :
    read? template = some t ↔ t.Proper ∧ t.text = template := by
  constructor
  · exact fun h => ⟨proper_of_readFrom h (held_nil _), text_of_read? h⟩
  · rintro ⟨h, rfl⟩
    exact read?_text h

theorem read?_eq_none_iff {template : Text} : read? template = none ↔ ¬ template.Balanced := by
  rw [← Text.closes_zero, ← isSome_readFrom, Option.not_isSome_iff_eq_none, read?]

end Template
end HttpRouter
