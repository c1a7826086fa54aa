import HttpRouter.Proofs.Text.Utf8

set_option autoImplicit false

namespace HttpRouter

namespace Utf8

def continues (b : UInt8) : Bool := decide (0x80 ≤ b.toNat ∧ b.toNat < 0xc0)

/-- The bytes can be cut at the position without cutting a character in two. -/
def isBoundary (bytes : Bytes) (position : Nat) : Bool :=
  match bytes[position]? with
  | some b => position == 0 || !continues b
  | none => position == bytes.length

theorem encode_append (front back : Text) : encode (front ++ back) = encode front ++ encode back :=
  List.flatMap_append

theorem encode_cons (c : Char) (rest : Text) : encode (c :: rest) = encodeChar c ++ encode rest :=
  List.flatMap_cons

theorem exists_encodeChar (c : Char) :
    ∃ b others, encodeChar c = b :: others ∧ continues b = false := by
  have hs := spelling_encodeChar c
  generalize encodeChar c = bytes at hs
  generalize c.toNat = n at hs
  have lead : ∀ m, (m < 0x80 ∨ 0xc0 ≤ m) → m < 256 → continues (byte m) = false := by
    intro m hm hl
    rw [continues, toNat_byte hl]
    exact decide_eq_false (by omega)
  cases hs with
  | one h => exact ⟨_, _, rfl, lead n (.inl h) (by omega)⟩
  | two hl hh => exact ⟨_, _, rfl, lead _ (.inr (by omega)) (by omega)⟩
  | three hl hh => exact ⟨_, _, rfl, lead _ (.inr (by omega)) (by omega)⟩
  | four hl hh => exact ⟨_, _, rfl, lead _ (.inr (by omega)) (by omega)⟩

theorem isBoundary_encode (front : Bytes) (back : Text) :
    isBoundary (front ++ encode back) front.length = true := by
  cases back with
  | nil => simp [isBoundary, encode]
  | cons c rest =>
    obtain ⟨b, others, hc, hb⟩ := exists_encodeChar c
    simp [isBoundary, encode_cons, hc, hb]

theorem decode?_encode (text : Text) : decode? (encode text) = some text := by
  rw [decode?, scan_encode]
  induction text with
  | nil => rfl
  | cons c rest ih => simp [ih]

end Utf8

namespace Text

open Utf8 (encode isBoundary decode?)

def width (text : Text) : Nat := (encode text).length

theorem length_encode (text : Text) : (encode text).length = width text := rfl

@[simp] theorem width_nil : width [] = 0 := rfl

theorem width_append (front back : Text) : width (front ++ back) = width front + width back := by
  simp only [← length_encode, Utf8.encode_append, List.length_append]

theorem width_cons (c : Char) (rest : Text) :
    width (c :: rest) = (Utf8.encodeChar c).length + width rest := by
  simp only [← length_encode, Utf8.encode_cons, List.length_append]

theorem width_reverse (text : Text) : width text.reverse = width text := by
  induction text with
  | nil => rfl
  | cons c rest ih =>
    rw [List.reverse_cons, width_append, ih, Nat.add_comm, ← width_append, List.singleton_append]

/-- The part of a text between two positions, if the first is not behind the second, both lie within
the text, and none of them lies within a character. -/
def slice? (text : Text) (start stop : Nat) : Option Text :=
  if start ≤ stop ∧ stop ≤ width text ∧ isBoundary (encode text) start = true ∧
      isBoundary (encode text) stop = true then
    decode? (((encode text).take stop).drop start)
  else none

theorem slice?_append (front middle back : Text) :
    slice? (front ++ (middle ++ back)) (width front) (width front + width middle)
      = some middle := by
  have hstart : isBoundary (encode (front ++ (middle ++ back))) (width front) = true := by
    rw [Utf8.encode_append]
    exact Utf8.isBoundary_encode (encode front) (middle ++ back)
  have hstop : isBoundary (encode (front ++ (middle ++ back))) (width front + width middle)
      = true := by
    rw [← width_append, ← List.append_assoc, Utf8.encode_append]
    exact Utf8.isBoundary_encode (encode (front ++ middle)) back
  have hwidth : width front + width middle ≤ width (front ++ (middle ++ back)) := by
    rw [width_append, width_append]
    omega
  have hpart : ((encode (front ++ (middle ++ back))).take (width front + width middle)).drop
      (width front) = encode middle := by
    rw [← width_append, ← List.append_assoc, Utf8.encode_append, List.take_left' (length_encode _),
      Utf8.encode_append, List.drop_left' (length_encode _)]
  rw [slice?, if_pos ⟨Nat.le_add_right _ _, hwidth, hstart, hstop⟩, hpart, Utf8.decode?_encode]

/-- A character of two bytes cannot be cut in two, and a slice does not go on behind the text. -/
example : [(0, 2), (1, 2), (0, 3)].map (fun (start, stop) => slice? ['é'] start stop)
    = [some ['é'], none, none] := by decide

def find? (c : Char) (text : Text) : Option Nat :=
  (cut? c text).map fun (before, _) => width before

/-- Only characters of ASCII have bytes of ASCII, each its own. -/
theorem mem_of_mem_encode {text : Text} {b : UInt8} (h : b ∈ encode text) (hb : b.toNat < 0x80) :
    Char.ofNat b.toNat ∈ text := by
  obtain ⟨c, hc, hm⟩ := List.mem_flatMap.1 h
  rwa [← Utf8.toNat_of_mem_encodeChar hm hb, Char.ofNat_toNat]

end Text
end HttpRouter
