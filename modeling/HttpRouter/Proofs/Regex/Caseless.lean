import HttpRouter.Proofs.Regex.Greedy
import HttpRouter.Proofs.Regex.Renaming
import HttpRouter.Proofs.Unicode.CaseFold

set_option autoImplicit false

namespace HttpRouter.Regex

namespace CharSet

theorem contains_fold_single (a c : Char) :
    (fold (single a)).contains c = true ↔ Unicode.fold c = Unicode.fold a := by
  rw [contains, List.any_eq_true]
  constructor
  · rintro ⟨d, hd, hs⟩
    rw [contains_single] at hs
    exact (Unicode.mem_variants.1 (hs ▸ hd)).symm
  · intro h
    exact ⟨a, Unicode.mem_variants.2 h.symm, (contains_single a a).2 rfl⟩

end CharSet

def exchange (c : Char) : Char := if c = '.' then '/' else if c = '/' then '.' else c

theorem exchange_exchange (c : Char) : exchange (exchange c) = c := by
  by_cases hd : c = '.'
  · rw [hd]
    rfl
  · by_cases hs : c = '/'
    · rw [hs]
      rfl
    · simp [exchange, hd, hs]

theorem exchange_inj {a c : Char} : exchange a = exchange c ↔ a = c := by
  refine ⟨fun h => ?_, congrArg exchange⟩
  rw [← exchange_exchange a, h, exchange_exchange]

def hostKey (c : Char) : Char := exchange (Unicode.fold c)

theorem hostKey_eq_iff {a c : Char} : hostKey a = hostKey c ↔ Unicode.fold a = Unicode.fold c :=
  exchange_inj

theorem hostKey_eq_slash {c : Char} : hostKey c = '/' ↔ c = '.' := by
  have hdot : exchange '.' = '/' := rfl
  rw [hostKey, ← hdot, exchange_inj]
  exact Unicode.fold_eq_iff_of_lt (by decide)

namespace Atom

def rename (f : Char → Char) : Atom → Atom
  | char c => char (f c)
  | gap => gap

theorem spans_rename (f : Char → Char) (groups offset : Nat) (atoms : List Atom)
    (values : List Text) :
    spans groups offset (atoms.map (rename f)) (values.map (List.map f))
      = spans groups offset atoms values := by
  induction atoms generalizing groups offset values with
  | nil => rfl
  | cons atom rest ih =>
    cases atom with
    | char c => exact ih groups (offset + 1) values
    | gap =>
      cases values with
      | nil => rfl
      | cons value values =>
        simp only [List.map_cons, rename, spans, List.length_map, ih]

theorem greedier_map (f : Char → Char) (values others : List Text) :
    Greedier (values.map (List.map f)) (others.map (List.map f)) ↔ Greedier values others := by
  induction values generalizing others with
  | nil => cases others <;> exact Iff.rfl
  | cons value values ih =>
    cases others with
    | nil => exact Iff.rfl
    | cons other others => simp only [List.map_cons, Greedier, List.length_map, ih]

end Atom

theorem renamed_sequence {f : Char → Char} {r t : Regex} (h : Renamed f r t)
    {rs ts : List Regex} (hs : List.Forall₂ (Renamed f) rs ts) :
    Renamed f (sequence (r :: rs)) (sequence (t :: ts)) := by
  simp only [sequence]
  induction hs generalizing r t with
  | nil => exact h
  | cons hfirst _ ih => exact ih (.seq h hfirst)

theorem renamed_regexes (groups : Nat) (atoms : List Atom) :
    List.Forall₂ (Renamed hostKey) (Style.host.regexes groups atoms)
      (Atom.regexes groups (atoms.map (Atom.rename hostKey))) := by
  have hc : ∀ a c, (CharSet.single (hostKey a)).contains (hostKey c)
      = (Style.host.chars a).contains c := by
    intro a c
    rw [Bool.eq_iff_iff, CharSet.contains_single, hostKey_eq_iff]
    exact (CharSet.contains_fold_single a c).symm
  have hg : ∀ c, (CharSet.compl (.single '/')).contains (hostKey c)
      = (CharSet.compl (Style.host.chars Style.host.stop)).contains c := by
    intro c
    rw [CharSet.contains_compl, CharSet.contains_compl, ← hc]
    rfl
  induction atoms generalizing groups with
  | nil => exact .nil
  | cons atom rest ih =>
    cases atom with
    | char c => exact .cons (.set (hc c)) (ih groups)
    | gap => exact .cons (.group (groups + 1) (.rep 1 none true hg)) (ih (groups + 1))

/-- The first match in the style of hosts has the values that solve the atoms after renaming. -/
theorem captures?_caseless (atoms : List Atom) (text : Text) :
    (sequence (.look .start :: (Style.host.regexes 0 atoms ++ [.look .finish]))).captures? text
      = (Atom.solve (closes false true) (atoms.map (Atom.rename hostKey)) (text.map hostKey)).map
          (Atom.spans 0 0 (atoms.map (Atom.rename hostKey))) := by
  have hend : List.Forall₂ (Renamed hostKey) [.look .finish] (closingParts false true) :=
    .cons .finish .nil
  have hr := renamed_sequence (.start : Renamed hostKey _ _)
    (List.rel_append (renamed_regexes 0 atoms) hend)
  rw [← captures?_anchored, anchored, captures?_renamed hr]

end HttpRouter.Regex
