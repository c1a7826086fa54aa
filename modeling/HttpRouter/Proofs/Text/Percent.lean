import HttpRouter.Proofs.Text.Utf8
import HttpRouter.Text.Percent

set_option autoImplicit false

namespace HttpRouter

namespace Hex

def smallDigits : Text := "0123456789abcdef".toList

def capitalDigits : Text := "0123456789ABCDEF".toList

def IsDigit (n : Nat) (c : Char) : Prop := smallDigits[n]? = some c ∨ capitalDigits[n]? = some c

instance (n : Nat) (c : Char) : Decidable (IsDigit n c) :=
  inferInstanceAs (Decidable (_ ∨ _))

namespace IsDigit

variable {n : Nat} {c : Char}

theorem induction {P : Nat → Char → Prop} (h : IsDigit n c)
    (small : ∀ n : Fin smallDigits.length, P n (smallDigits.get n))
    (capital : ∀ n : Fin capitalDigits.length, P n (capitalDigits.get n)) : P n c := by
  rcases h with h | h
  · obtain ⟨hn, rfl⟩ := List.getElem?_eq_some_iff.1 h
    exact small ⟨n, hn⟩
  · obtain ⟨hn, rfl⟩ := List.getElem?_eq_some_iff.1 h
    exact capital ⟨n, hn⟩

theorem value? (h : IsDigit n c) : Hex.value? c = some n :=
  h.induction (P := fun n c => Hex.value? c = some n) (by decide) (by decide)

theorem ascii (h : IsDigit n c) : c.toNat < 0x80 :=
  h.induction (P := fun _ c => c.toNat < 0x80) (by decide) (by decide)

/-- A digit is none of the characters with a meaning in a query. -/
theorem plain (h : IsDigit n c) : c ≠ '&' ∧ c ≠ '=' ∧ c ≠ '+' :=
  h.induction (P := fun _ c => c ≠ '&' ∧ c ≠ '=' ∧ c ≠ '+') (by decide) (by decide)

end IsDigit
end Hex

namespace Percent

inductive Escapes : Bytes → Text → Prop
  | nil : Escapes [] []
  | cons {b : UInt8} {high low : Char} {bytes : Bytes} {written : Text}
    (hh : Hex.IsDigit (b.toNat / 16) high) (hl : Hex.IsDigit (b.toNat % 16) low)
    (h : Escapes bytes written) : Escapes (b :: bytes) ('%' :: high :: low :: written)

theorem decode_cons {b : UInt8} (h : b ≠ 0x25) (rest : Bytes) :
    decode (b :: rest) = b :: decode rest := by
  match rest with
  | [] | [_] => rfl
  | high :: low :: rest =>
    have hn : escaped? b high low = none := by
      change ((if b = 0x25 then pure () else failure : Option Unit).bind _) = none
      rw [if_neg h]
      rfl
    rw [decode, hn]

theorem decode_append {bytes : Bytes} (h : ∀ b ∈ bytes, b ≠ 0x25) (rest : Bytes) :
    decode (bytes ++ rest) = bytes ++ decode rest := by
  induction bytes with
  | nil => rfl
  | cons b bytes ih =>
    obtain ⟨hb, hr⟩ := List.forall_mem_cons.1 h
    rw [List.cons_append, decode_cons hb, ih hr, List.cons_append]

theorem digit?_byte {n : Nat} {c : Char} (h : Hex.IsDigit n c) :
    digit? (Utf8.byte c.toNat) = some n := by
  have hc := h.ascii
  rw [digit?, Utf8.toNat_byte (by omega), Char.ofNat_toNat, h.value?]

theorem escaped?_digits {b : UInt8} {high low : Char} (hh : Hex.IsDigit (b.toNat / 16) high)
    (hl : Hex.IsDigit (b.toNat % 16) low) :
    escaped? 0x25 (Utf8.byte high.toNat) (Utf8.byte low.toNat) = some b := by
  have hb : Utf8.byte (b.toNat / 16 * 16 + b.toNat % 16) = b := by
    rw [Nat.div_add_mod', Utf8.byte, UInt8.ofNat_toNat]
  rw [escaped?, digit?_byte hh, digit?_byte hl]
  exact congrArg some hb

namespace Escapes

variable {bytes : Bytes} {written : Text}

/-- Escapes are decoded to the bytes, whatever follows them. -/
theorem decode (h : Escapes bytes written) (rest : Bytes) :
    Percent.decode (Utf8.encode written ++ rest) = bytes ++ Percent.decode rest := by
  induction h with
  | nil => rfl
  | @cons b high low bytes written hh hl h ih =>
    have ascii : ∀ {n c}, Hex.IsDigit n c → Utf8.encodeChar c = [Utf8.byte c.toNat] :=
      fun hd => if_pos hd.ascii
    have he : Utf8.encode ('%' :: high :: low :: written)
        = 0x25 :: Utf8.byte high.toNat :: Utf8.byte low.toNat :: Utf8.encode written := by
      simp only [Utf8.encode, List.flatMap_cons, ascii hh, ascii hl]
      rfl
    rw [he, List.cons_append, List.cons_append, List.cons_append, Percent.decode,
      escaped?_digits hh hl]
    exact congrArg (b :: ·) ih

theorem mem (h : Escapes bytes written) {c : Char} (hc : c ∈ written) :
    c = '%' ∨ ∃ n, Hex.IsDigit n c := by
  induction h with
  | nil => cases hc
  | cons hh hl h ih =>
    simp only [List.mem_cons] at hc
    rcases hc with rfl | rfl | rfl | hc
    · exact .inl rfl
    · exact .inr ⟨_, hh⟩
    · exact .inr ⟨_, hl⟩
    · exact ih hc

end Escapes
end Percent
end HttpRouter
