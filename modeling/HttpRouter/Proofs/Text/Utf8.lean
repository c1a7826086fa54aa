import HttpRouter.Text.Utf8

set_option autoImplicit false

namespace HttpRouter.Utf8

theorem toNat_byte {n : Nat} (h : n < 256) : (byte n).toNat = n :=
  UInt8.toNat_ofNat_of_lt' h

theorem toNat_scalar (c : Char) : c.toNat < 0xd800 ∨ 0xdfff < c.toNat ∧ c.toNat < 0x110000 :=
  c.valid

inductive Spelling (n : Nat) : Bytes → Prop
  | one (h : n < 0x80) : Spelling n [byte n]
  | two (hl : 0x80 ≤ n) (hh : n < 0x800) :
    Spelling n [byte (0xc0 + n / 64), byte (0x80 + n % 64)]
  | three (hl : 0x800 ≤ n) (hh : n < 0x10000) :
    Spelling n [byte (0xe0 + n / 4096), byte (0x80 + n / 64 % 64), byte (0x80 + n % 64)]
  | four (hl : 0x10000 ≤ n) (hh : n < 0x110000) :
    Spelling n [byte (0xf0 + n / 262144), byte (0x80 + n / 4096 % 64), byte (0x80 + n / 64 % 64),
      byte (0x80 + n % 64)]

theorem spelling_encodeChar (c : Char) : Spelling c.toNat (encodeChar c) := by
  have hc := toNat_scalar c
  unfold encodeChar
  generalize c.toNat = n at hc
  simp only
  by_cases h1 : n < 0x80
  · rw [if_pos h1]
    exact .one h1
  rw [if_neg h1]
  by_cases h2 : n < 0x800
  · rw [if_pos h2]
    exact .two (by omega) h2
  rw [if_neg h2]
  by_cases h3 : n < 0x10000
  · rw [if_pos h3]
    exact .three (by omega) h3
  rw [if_neg h3]
  exact .four (by omega) (by omega)

/-- The bytes of a character are those of the standard library. -/
theorem encodeChar_eq (c : Char) : encodeChar c = String.utf8EncodeChar c := by
  have hs := spelling_encodeChar c
  have hv : c.val.toNat = c.toNat := rfl
  unfold String.utf8EncodeChar
  simp only [hv]
  generalize encodeChar c = bytes at hs
  generalize c.toNat = n at hs
  cases hs with
  | one h =>
    rw [if_pos (by omega)]
    rfl
  | two hl hh =>
    have h0 : n / 64 % 0x20 + 0xc0 = 0xc0 + n / 64 := by omega
    have h1 : n % 0x40 + 0x80 = 0x80 + n % 64 := by omega
    rw [if_neg (by omega), if_pos (by omega), h0, h1]
    rfl
  | three hl hh =>
    have h0 : n / 4096 % 0x10 + 0xe0 = 0xe0 + n / 4096 := by omega
    have h1 : n / 64 % 0x40 + 0x80 = 0x80 + n / 64 % 64 := by omega
    have h2 : n % 0x40 + 0x80 = 0x80 + n % 64 := by omega
    rw [if_neg (by omega), if_neg (by omega), if_pos (by omega), h0, h1, h2]
    rfl
  | four hl hh =>
    have h0 : n / 262144 % 0x08 + 0xf0 = 0xf0 + n / 262144 := by omega
    have h1 : n / 4096 % 0x40 + 0x80 = 0x80 + n / 4096 % 64 := by omega
    have h2 : n / 64 % 0x40 + 0x80 = 0x80 + n / 64 % 64 := by omega
    have h3 : n % 0x40 + 0x80 = 0x80 + n % 64 := by omega
    rw [if_neg (by omega), if_neg (by omega), if_neg (by omega), h0, h1, h2, h3]
    rfl

/-- Only a character of ASCII has a byte of ASCII, which then is its only one. -/
theorem toNat_of_mem_encodeChar {c : Char} {b : UInt8} (h : b ∈ encodeChar c)
    (hb : b.toNat < 0x80) : c.toNat = b.toNat := by
  have hs := spelling_encodeChar c
  generalize encodeChar c = bytes at h hs
  generalize c.toNat = n at hs
  cases hs with
  | one hn => rw [List.mem_singleton.1 h, toNat_byte (by omega)]
  | two hl hh =>
    simp only [List.mem_cons, List.not_mem_nil, or_false] at h
    rcases h with rfl | rfl <;> rw [toNat_byte (by omega)] at hb <;> omega
  | three hl hh =>
    simp only [List.mem_cons, List.not_mem_nil, or_false] at h
    rcases h with rfl | rfl | rfl <;> rw [toNat_byte (by omega)] at hb <;> omega
  | four hl hh =>
    simp only [List.mem_cons, List.not_mem_nil, or_false] at h
    rcases h with rfl | rfl | rfl | rfl <;> rw [toNat_byte (by omega)] at hb <;> omega

section
variable {low high value : Nat} {b : UInt8} (h : low ≤ b.toNat ∧ b.toNat ≤ high) (rest : Bytes)
include h

theorem scanFrom_last : scanFrom (.inside 1 low high value) (b :: rest)
    = some (Char.ofNat (value * 64 + (b.toNat - 0x80))) :: scanFrom .start rest := by
  rw [scanFrom, step, if_pos h]
  rfl

theorem scanFrom_next (missing : Nat) :
    scanFrom (.inside (missing + 2) low high value) (b :: rest)
      = scanFrom (.inside (missing + 1) 0x80 0xbf (value * 64 + (b.toNat - 0x80))) rest := by
  rw [scanFrom, step, if_pos h]
  rfl

end

theorem scanFrom_first (b : UInt8) (rest : Bytes) : scanFrom .start (b :: rest)
    = (first b.toNat).1 ++ scanFrom (first b.toNat).2 rest := rfl

/-- A first byte of three opens a character, and the second byte lies within its bounds. -/
theorem first_of_three {n : Nat} (hl : 0x800 ≤ n) (hh : n < 0x10000)
    (hs : n < 0xd800 ∨ 0xdfff < n) :
    ∃ low high, first (0xe0 + n / 4096) = ([], .inside 2 low high (n / 4096)) ∧
      low ≤ 0x80 + n / 64 % 64 ∧ 0x80 + n / 64 % 64 ≤ high := by
  unfold first
  rw [if_neg (by omega), if_neg (by omega), if_neg (by omega)]
  by_cases h0 : n / 4096 = 0
  · refine ⟨0xa0, 0xbf, ?_, by omega, by omega⟩
    rw [h0]
    rfl
  · rw [if_neg (by omega)]
    by_cases hd : n / 4096 = 0xd
    · refine ⟨0x80, 0x9f, ?_, by omega, by omega⟩
      rw [hd]
      rfl
    · refine ⟨0x80, 0xbf, ?_, by omega, by omega⟩
      rw [if_neg (by omega), if_pos (by omega), Nat.add_sub_cancel_left]

theorem first_of_four {n : Nat} (hl : 0x10000 ≤ n) (hh : n < 0x110000) :
    ∃ low high, first (0xf0 + n / 262144) = ([], .inside 3 low high (n / 262144)) ∧
      low ≤ 0x80 + n / 4096 % 64 ∧ 0x80 + n / 4096 % 64 ≤ high := by
  unfold first
  rw [if_neg (by omega), if_neg (by omega), if_neg (by omega), if_neg (by omega),
    if_neg (by omega), if_neg (by omega)]
  by_cases h0 : n / 262144 = 0
  · refine ⟨0x90, 0xbf, ?_, by omega, by omega⟩
    rw [h0]
    rfl
  · rw [if_neg (by omega)]
    by_cases h4 : n / 262144 = 4
    · refine ⟨0x80, 0x8f, ?_, by omega, by omega⟩
      rw [h4]
      rfl
    · refine ⟨0x80, 0xbf, ?_, by omega, by omega⟩
      rw [if_pos (by omega), Nat.add_sub_cancel_left]

theorem scanFrom_encodeChar (c : Char) (rest : Bytes) :
    scanFrom .start (encodeChar c ++ rest) = some c :: scanFrom .start rest := by
  have hs := spelling_encodeChar c
  have hc := toNat_scalar c
  have hn := Char.ofNat_toNat c
  generalize encodeChar c = bytes at hs
  generalize c.toNat = n at hs hc hn
  have hlast : (byte (0x80 + n % 64)).toNat = 0x80 + n % 64 := toNat_byte (by omega)
  have hsecond : (byte (0x80 + n / 64 % 64)).toNat = 0x80 + n / 64 % 64 := toNat_byte (by omega)
  have hthird : (byte (0x80 + n / 4096 % 64)).toNat = 0x80 + n / 4096 % 64 := toNat_byte (by omega)
  cases hs with
  | one h =>
    change scanFrom .start (byte n :: rest) = _
    rw [scanFrom_first, toNat_byte (by omega), first, if_pos h, hn]
    rfl
  | two hl hh =>
    have hf : first (0xc0 + n / 64) = ([], .inside 1 0x80 0xbf (n / 64)) := by
      unfold first
      rw [if_neg (by omega), if_neg (by omega), if_pos (by omega), Nat.add_sub_cancel_left]
    have hv : n / 64 * 64 + n % 64 = n := by omega
    change scanFrom .start (byte (0xc0 + n / 64) :: byte (0x80 + n % 64) :: rest) = _
    rw [scanFrom_first, toNat_byte (by omega), hf, List.nil_append, scanFrom_last (by omega), hlast,
      Nat.add_sub_cancel_left, hv, hn]
  | three hl hh =>
    obtain ⟨low, high, hf, hb⟩ := first_of_three hl hh (by omega)
    have hv : (n / 4096 * 64 + n / 64 % 64) * 64 + n % 64 = n := by omega
    change scanFrom .start (byte (0xe0 + n / 4096) :: byte (0x80 + n / 64 % 64)
      :: byte (0x80 + n % 64) :: rest) = _
    rw [scanFrom_first, toNat_byte (by omega), hf, List.nil_append, scanFrom_next (by omega),
      scanFrom_last (by omega), hsecond, hlast, Nat.add_sub_cancel_left, Nat.add_sub_cancel_left,
      hv, hn]
  | four hl hh =>
    obtain ⟨low, high, hf, hb⟩ := first_of_four hl hh
    have hv : ((n / 262144 * 64 + n / 4096 % 64) * 64 + n / 64 % 64) * 64 + n % 64 = n := by omega
    change scanFrom .start (byte (0xf0 + n / 262144) :: byte (0x80 + n / 4096 % 64)
      :: byte (0x80 + n / 64 % 64) :: byte (0x80 + n % 64) :: rest) = _
    rw [scanFrom_first, toNat_byte (by omega), hf, List.nil_append, scanFrom_next (by omega),
      scanFrom_next (by omega), scanFrom_last (by omega), hthird, hsecond, hlast,
      Nat.add_sub_cancel_left, Nat.add_sub_cancel_left, Nat.add_sub_cancel_left, hv, hn]

theorem scan_encode (text : Text) : scan (encode text) = text.map some := by
  induction text with
  | nil => rfl
  | cons c rest ih =>
    change scanFrom .start (encodeChar c ++ encode rest) = some c :: rest.map some
    rw [scanFrom_encodeChar]
    exact congrArg (some c :: ·) ih

theorem decodeLossy_encode (text : Text) : decodeLossy (encode text) = text := by
  rw [decodeLossy, scan_encode, List.map_map]
  exact List.map_id text

end HttpRouter.Utf8
