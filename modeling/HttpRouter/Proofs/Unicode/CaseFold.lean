import HttpRouter.Unicode.CaseFold
import Mathlib.Data.List.Chain

set_option autoImplicit false

namespace HttpRouter.Unicode

namespace FoldRow

theorem hasSource_iff {row : FoldRow} {n : Nat} : row.hasSource n = true ↔
    row.first ≤ n ∧ n ≤ row.last ∧ (n - row.first) % row.step = 0 := by
  simp [hasSource, and_assoc]

def sources (row : FoldRow) : List Nat :=
  (List.range ((row.last - row.first) / row.step + 1)).map fun k => row.first + k * row.step

theorem mem_sources {row : FoldRow} {n : Nat} (h : row.hasSource n = true) : n ∈ row.sources := by
  obtain ⟨hf, hl, hs⟩ := hasSource_iff.1 h
  have hd : row.step * ((n - row.first) / row.step) = n - row.first :=
    Nat.mul_div_cancel' (Nat.dvd_of_mod_eq_zero hs)
  refine List.mem_map.2 ⟨(n - row.first) / row.step, ?_, ?_⟩
  · rw [List.mem_range, Nat.lt_succ_iff]
    exact Nat.div_le_div_right (Nat.sub_le_sub_right hl row.first)
  · rw [Nat.mul_comm, hd]
    omega

theorem target_mono (row : FoldRow) {m n : Nat} (h : m ≤ n) : row.target m ≤ row.target n := by
  unfold target
  omega

def Before (row other : FoldRow) : Prop := row.first ≤ row.last ∧ row.last < other.first

instance (row other : FoldRow) : Decidable (row.Before other) := inferInstanceAs (Decidable (_ ∧ _))

instance : Trans Before Before Before :=
  ⟨fun h g => ⟨h.1, (h.2.trans_le g.1).trans g.2⟩⟩

def overlapping (first last : Nat) : List FoldRow → List FoldRow
  | [] => []
  | row :: rest =>
    if Nat.blt row.last first then overlapping first last rest
    else if Nat.blt last row.first then []
    else row :: overlapping first last rest

theorem mem_overlapping {rows : List FoldRow} (hr : rows.Pairwise Before) {row : FoldRow}
    (h : row ∈ rows) {first last n : Nat} (hf : first ≤ n) (hl : n ≤ last)
    (hn : row.hasSource n = true) : row ∈ overlapping first last rows := by
  obtain ⟨hfirst, hlast, -⟩ := hasSource_iff.1 hn
  induction rows with
  | nil => cases h
  | cons other rest ih =>
    obtain ⟨hb, hr⟩ := List.pairwise_cons.1 hr
    simp only [overlapping, Nat.blt_eq]
    rcases List.mem_cons.1 h with rfl | h
    · rw [if_neg (by omega), if_neg (by omega)]
      exact List.mem_cons_self
    · obtain ⟨hrow, hfar⟩ := hb row h
      split
      · exact ih hr h
      · rw [if_neg (by omega)]
        exact List.mem_cons_of_mem other (ih hr h)

def areChars (first last : Nat) : Bool :=
  Nat.blt last 0xd800 || Nat.blt 0xdfff first && Nat.blt last 0x110000

theorem isValidChar_of_areChars {first last n : Nat} (h : areChars first last = true)
    (hf : first ≤ n) (hl : n ≤ last) : n.isValidChar := by
  simp only [areChars, Bool.or_eq_true, Bool.and_eq_true, Nat.blt_eq] at h
  rcases h with h | h
  · exact .inl (hl.trans_lt h)
  · exact .inr ⟨h.1.trans_le hf, hl.trans_lt h.2⟩

def sound (row : FoldRow) : Bool :=
  areChars row.first row.last && areChars (row.target row.first) (row.target row.last)
    && Nat.ble 0x41 row.first && decide (0x41 ≤ row.first + row.shift)

end FoldRow

theorem foldRows_ascending : foldRows.Pairwise FoldRow.Before :=
  List.isChain_iff_pairwise.1 (by decide +kernel)

theorem foldRows_sound : ∀ row ∈ foldRows, row.sound = true :=
  List.all_eq_true.1 (by decide +kernel)

section Rows
variable {row : FoldRow} {n : Nat} (hr : row ∈ foldRows) (hn : row.hasSource n = true)

include hr hn

/-- Nothing that a row leads to is folded by any row. -/
theorem settled {other : FoldRow} (ho : other ∈ foldRows) :
    other.hasSource (row.target n) = false := by
  have h : (foldRows.all fun row =>
      (FoldRow.overlapping (row.target row.first) (row.target row.last) foldRows).all fun other =>
        row.sources.all fun n => !other.hasSource (row.target n)) = true := by decide +kernel
  obtain ⟨hf, hl, -⟩ := FoldRow.hasSource_iff.1 hn
  rw [← Bool.not_eq_true]
  intro ht
  have hm := FoldRow.mem_overlapping foldRows_ascending ho (row.target_mono hf)
    (row.target_mono hl) ht
  have hc := List.all_eq_true.1 (List.all_eq_true.1 (List.all_eq_true.1 h row hr) other hm) n
    (FoldRow.mem_sources hn)
  rw [ht] at hc
  cases hc

theorem target_spec : n.isValidChar ∧ (row.target n).isValidChar ∧ 0x41 ≤ n ∧
    (row.target n : Int) = n + row.shift ∧ 0x41 ≤ row.target n := by
  have hs := foldRows_sound row hr
  simp only [FoldRow.sound, Bool.and_eq_true, decide_eq_true_eq, Nat.ble_eq] at hs
  obtain ⟨⟨⟨hc, ht⟩, hfirst⟩, hshift⟩ := hs
  obtain ⟨hf, hl, -⟩ := FoldRow.hasSource_iff.1 hn
  refine ⟨FoldRow.isValidChar_of_areChars hc hf hl,
    FoldRow.isValidChar_of_areChars ht (row.target_mono hf) (row.target_mono hl), ?_⟩
  unfold FoldRow.target
  omega

theorem foldCode_of_source : foldCode n = row.target n := by
  obtain ⟨before, after, he⟩ := List.append_of_mem hr
  have hf : foldRows.find? (·.hasSource n) = some row := by
    rw [List.find?_eq_some_iff_append]
    refine ⟨hn, before, after, he, fun other ho => ?_⟩
    have hs := foldRows_ascending
    rw [he, List.pairwise_append] at hs
    have hb := (hs.2.2 other ho row List.mem_cons_self).2
    obtain ⟨hfirst, -, -⟩ := FoldRow.hasSource_iff.1 hn
    rw [Bool.not_eq_true', ← Bool.not_eq_true, FoldRow.hasSource_iff]
    omega
  rw [foldCode, hf]

end Rows

theorem foldCode_of_not_source {n : Nat} (h : ∀ row ∈ foldRows, row.hasSource n = false) :
    foldCode n = n := by
  have hf : foldRows.find? (·.hasSource n) = none := by
    rw [List.find?_eq_none]
    intro row hr
    rw [h row hr]
    exact Bool.false_ne_true
  rw [foldCode, hf]

/-- A code point is folded by one row, or by none and then is its own fold. -/
theorem foldCode_cases (n : Nat) : (∃ row ∈ foldRows, row.hasSource n = true) ∨ foldCode n = n := by
  by_cases h : ∃ row ∈ foldRows, row.hasSource n = true
  · exact .inl h
  · refine .inr (foldCode_of_not_source fun row hr => ?_)
    rw [← Bool.not_eq_true]
    exact fun hs => h ⟨row, hr, hs⟩

theorem foldCode_foldCode (n : Nat) : foldCode (foldCode n) = foldCode n := by
  rcases foldCode_cases n with ⟨row, hr, hs⟩ | h
  · rw [foldCode_of_source hr hs]
    exact foldCode_of_not_source fun other ho => settled hr hs ho
  · rw [h, h]

theorem toNat_ofNat {n : Nat} (h : n.isValidChar) : (Char.ofNat n).toNat = n := by
  rw [Char.ofNat, dif_pos h]
  rfl

theorem toNat_fold (c : Char) : (fold c).toNat = foldCode c.toNat := by
  apply toNat_ofNat
  rcases foldCode_cases c.toNat with ⟨row, hr, hs⟩ | h
  · rw [foldCode_of_source hr hs]
    exact (target_spec hr hs).2.1
  · rw [h]
    exact c.valid

theorem fold_eq_iff {a c : Char} : fold a = fold c ↔ foldCode a.toNat = foldCode c.toNat := by
  rw [← toNat_fold, ← toNat_fold]
  exact ⟨congrArg Char.toNat, fun h => Char.ext (UInt32.toNat_inj.1 h)⟩

theorem fold_fold (c : Char) : fold (fold c) = fold c := by
  rw [fold_eq_iff, toNat_fold, foldCode_foldCode]

/-- The variants of a character are those with its fold. -/
theorem mem_variants {a c : Char} : a ∈ variants c ↔ fold a = fold c := by
  simp only [variants, List.mem_cons, List.mem_map, List.mem_filterMap]
  constructor
  · rintro (rfl | ⟨n, ⟨row, hr, hs⟩, rfl⟩)
    · exact fold_fold c
    · simp only [FoldRow.source?, Option.ite_none_right_eq_some, Bool.and_eq_true, beq_iff_eq,
        Option.some.injEq] at hs
      obtain ⟨⟨hs, ht⟩, rfl⟩ := hs
      rw [fold_eq_iff, toNat_ofNat (target_spec hr hs).1, foldCode_of_source hr hs, ht]
  · intro h
    rw [fold_eq_iff] at h
    rcases foldCode_cases a.toNat with ⟨row, hr, hs⟩ | hn
    · right
      obtain ⟨-, -, -, hshift, -⟩ := target_spec hr hs
      refine ⟨a.toNat, ⟨row, hr, ?_⟩, Char.ofNat_toNat a⟩
      have hback : (foldCode c.toNat - row.shift).toNat = a.toNat := by
        rw [← h, foldCode_of_source hr hs, hshift]
        omega
      rw [FoldRow.source?, hback, hs, ← h, foldCode_of_source hr hs]
      simp
    · left
      rw [← h, hn, Char.ofNat_toNat]

/-- What comes before the capital letters is the fold of itself only. -/
theorem fold_eq_iff_of_lt {c d : Char} (h : d.toNat < 0x41) : fold c = d ↔ c = d := by
  have hself : fold d = d := by
    rcases foldCode_cases d.toNat with ⟨row, hr, hs⟩ | hd
    · have := (target_spec hr hs).2.2.1
      omega
    · rw [fold, hd, Char.ofNat_toNat]
  constructor
  · intro hc
    rcases foldCode_cases c.toNat with ⟨row, hr, hs⟩ | hn
    · have hl := (target_spec hr hs).2.2.2.2
      rw [← foldCode_of_source hr hs, ← toNat_fold, hc] at hl
      omega
    · rw [← hc, fold, hn, Char.ofNat_toNat]
  · rintro rfl
    exact hself

end HttpRouter.Unicode
