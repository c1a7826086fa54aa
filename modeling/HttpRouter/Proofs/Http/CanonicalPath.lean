import HttpRouter.Proofs.Http.CleanPath

set_option autoImplicit false

namespace HttpRouter

namespace Text

theorem join_append (sep : Text) {front back : List Text} (hf : front ≠ []) (hb : back ≠ []) :
    join sep (front ++ back) = join sep front ++ sep ++ join sep back := by
  obtain ⟨next, more, rfl⟩ := List.exists_cons_of_ne_nil hb
  induction front with
  | nil => exact absurd rfl hf
  | cons piece others ih =>
    cases others with
    | nil => rfl
    | cons second rest =>
      have hr := ih (List.cons_ne_nil second rest)
      simp only [List.cons_append, join, List.append_assoc] at hr ⊢
      rw [hr]

/-- Two separators in a row are an empty piece between two others. -/
theorem doubled_iff (sep : Char) (text : Text) :
    [sep, sep] <:+: text ↔ [] ∈ (pieces sep text).tail.dropLast := by
  constructor
  · rintro ⟨before, after, rfl⟩
    have hp : pieces sep (before ++ [sep, sep] ++ after)
        = pieces sep before ++ [] :: pieces sep after := by
      rw [List.append_assoc, List.cons_append, pieces_append]
      simp [pieces]
    rw [hp, List.tail_append_of_ne_nil (pieces_ne_nil sep before),
      List.dropLast_append_of_ne_nil (List.cons_ne_nil [] _),
      List.dropLast_cons_of_ne_nil (pieces_ne_nil sep after)]
    simp
  · intro h
    obtain ⟨first, rest, hp⟩ := List.exists_cons_of_ne_nil (pieces_ne_nil sep text)
    rw [hp, List.tail_cons] at h
    obtain ⟨inner, last, rfl⟩ := List.eq_nil_or_concat rest |>.resolve_left (by
      rintro rfl
      cases h)
    rw [List.concat_eq_append, List.dropLast_concat] at h
    obtain ⟨front, back, rfl⟩ := List.append_of_mem h
    have hs : first :: (front ++ [] :: back).concat last
        = (first :: front) ++ [] :: (back ++ [last]) := by simp
    have hl : back ++ [last] ≠ [] := by simp
    rw [← join_pieces sep text, hp, hs,
      join_append [sep] (List.cons_ne_nil first front) (List.cons_ne_nil [] _),
      ← List.singleton_append (x := []), join_append [sep] (List.cons_ne_nil [] _) hl]
    exact ⟨join [sep] (first :: front), join [sep] (back ++ [last]), by simp [join]⟩

end Text

namespace Path

structure Harmless (path : Text) : Prop where
  single : ¬ ['/', '/'] <:+: path
  no_dots : ∀ segment ∈ Text.pieces '/' path, segment ≠ ['.'] ∧ segment ≠ ['.', '.']

structure Canonical (path : Text) : Prop extends Harmless path where
  begins : ['/'] <+: path

theorem harmless_nil : Harmless [] where
  single := by decide
  no_dots := by decide

theorem pieces_ofSegments {segments : List Text} (h : ∀ s ∈ segments, Proper s) (before : Text) :
    Text.pieces '/' (before ++ ofSegments segments) = Text.pieces '/' before ++ segments := by
  induction segments generalizing before with
  | nil => simp [ofSegments]
  | cons first rest ih =>
    have hs : before ++ ofSegments (first :: rest)
        = (before ++ '/' :: first) ++ ofSegments rest := by
      simp [ofSegments]
    rw [hs, ih fun s hs => h s (List.mem_cons_of_mem first hs), Text.pieces_append,
      Text.pieces_of_not_mem (h first List.mem_cons_self).no_slash]
    simp

/-- Between the slashes of a path of the clean form there are its segments only. -/
theorem pieces_ofClean {segments : List Text} (h : ∀ s ∈ segments, Proper s) (slash : Bool) :
    ∃ last, Text.pieces '/' (ofClean segments slash) = [] :: (segments ++ last) ∧
      (last = [] ∨ last = [[]]) := by
  have hp : Text.pieces '/' (ofSegments segments) = [] :: segments :=
    pieces_ofSegments h []
  by_cases hn : segments = []
  · rw [hn]
    exact ⟨[[]], rfl, .inr rfl⟩
  · rw [ofClean_of_ne_nil hn]
    cases slash with
    | false => exact ⟨[], by simpa using hp, .inl rfl⟩
    | true =>
      refine ⟨[[]], ?_, .inr rfl⟩
      rw [if_pos rfl, Text.pieces_append, hp]
      rfl

theorem harmless_ofClean {segments : List Text} (h : ∀ s ∈ segments, Proper s) (slash : Bool) :
    Harmless (ofClean segments slash) := by
  obtain ⟨last, hp, hl⟩ := pieces_ofClean h slash
  constructor
  · rw [Text.doubled_iff, hp, List.tail_cons]
    intro hm
    have hs : [] ∈ segments := by
      rcases hl with rfl | rfl
      · rw [List.append_nil] at hm
        exact List.dropLast_subset segments hm
      · rwa [List.dropLast_concat] at hm
    exact (h [] hs).ne_nil rfl
  · intro segment hm
    rw [hp, List.mem_cons, List.mem_append] at hm
    rcases hm with rfl | hm | hm
    · decide
    · exact ⟨(h segment hm).ne_dot, (h segment hm).ne_dots⟩
    · obtain rfl : segment = [] := by
        rcases hl with rfl | rfl
        · cases hm
        · exact List.mem_singleton.1 hm
      decide

theorem canonical_ofClean {segments : List Text} (h : ∀ s ∈ segments, Proper s) (slash : Bool) :
    Canonical (ofClean segments slash) where
  toHarmless := harmless_ofClean h slash
  begins := by
    cases segments with
    | nil => exact ⟨[], rfl⟩
    | cons first rest =>
      rw [ofClean_of_ne_nil (List.cons_ne_nil first rest)]
      exact ⟨_, rfl⟩

theorem ofSegments_eq_join {segments : List Text} (h : segments ≠ []) :
    ofSegments segments = '/' :: Text.join ['/'] segments := by
  induction segments with
  | nil => exact absurd rfl h
  | cons first rest ih =>
    cases rest with
    | nil => simp [ofSegments, Text.join]
    | cons second others =>
      have hr := ih (List.cons_ne_nil second others)
      rw [ofSegments, List.flatMap_cons]
      change '/' :: first ++ ofSegments (second :: others) = _
      rw [hr]
      simp [Text.join]

/-- The last segment is the only one that may be empty.  The path then ends in a slash. -/
theorem exists_ofClean_of_proper {front : List Text} {last : Text} (hf : ∀ s ∈ front, Proper s)
    (hl : last ≠ [] → Proper last) :
    ∃ segments slash, (∀ s ∈ segments, Proper s) ∧
      ofSegments (front ++ [last]) = ofClean segments slash := by
  by_cases he : last = []
  · refine ⟨front, true, hf, ?_⟩
    have ho : ofSegments (front ++ [last]) = ofSegments front ++ ['/'] := by
      simp [ofSegments, he]
    by_cases hn : front = []
    · rw [hn, he]
      rfl
    · rw [ho, ofClean_of_ne_nil hn, if_pos rfl]
  · refine ⟨front ++ [last], false, fun s hs => ?_, ?_⟩
    · rcases List.mem_append.1 hs with hs | hs
      · exact hf s hs
      · exact List.mem_singleton.1 hs ▸ hl he
    · rw [ofClean_of_ne_nil (by simp)]
      exact (List.append_nil _).symm

/-- A canonical path is made of proper segments. -/
theorem exists_segments {path : Text} (h : Canonical path) :
    ∃ segments slash, (∀ s ∈ segments, Proper s) ∧ path = ofClean segments slash := by
  obtain ⟨rest, rfl⟩ := h.begins
  have hp : Text.pieces '/' (['/'] ++ rest) = [] :: Text.pieces '/' rest := rfl
  have hsingle := h.single
  have hdots := h.no_dots
  rw [Text.doubled_iff, hp, List.tail_cons] at hsingle
  rw [hp] at hdots
  have proper : ∀ s ∈ Text.pieces '/' rest, s ≠ [] → Proper s := fun s hs hn =>
    have hd := hdots s (List.mem_cons_of_mem [] hs)
    ⟨hn, hd.1, hd.2, fun hm => (Text.mem_of_mem_pieces hs '/' hm).1 rfl⟩
  have hpath : ['/'] ++ rest = ofSegments (Text.pieces '/' rest) := by
    rw [ofSegments_eq_join (Text.pieces_ne_nil '/' rest), Text.join_pieces]
    rfl
  have hne := Text.pieces_ne_nil '/' rest
  rw [hpath]
  generalize Text.pieces '/' rest = segments at hsingle proper hne
  obtain ⟨front, last, rfl⟩ := (List.eq_nil_or_concat segments).resolve_left hne
  rw [List.concat_eq_append] at hsingle proper ⊢
  rw [List.dropLast_concat] at hsingle
  refine exists_ofClean_of_proper (fun s hs => ?_) (proper last (by simp))
  exact proper s (List.mem_append_left [last] hs) fun he => hsingle (he ▸ hs)

theorem canonical_clean (path : Text) : Canonical (clean path) := by
  obtain ⟨segments, slash, h, hc⟩ := exists_ofClean path
  rw [hc]
  exact canonical_ofClean h slash

/-- Cleaning leaves exactly the canonical paths as they are. -/
theorem clean_eq_self_iff (path : Text) : clean path = path ↔ Canonical path := by
  constructor
  · intro h
    rw [← h]
    exact canonical_clean path
  · intro h
    obtain ⟨segments, slash, hp, rfl⟩ := exists_segments h
    exact clean_ofClean hp slash

theorem harmless_turn {path : Text} (h : Canonical path) : Harmless (turn path) := by
  obtain ⟨segments, slash, hp, rfl⟩ := exists_segments h
  by_cases hn : segments = []
  · -- The slash of the root is taken away, and nothing is left.
    rw [hn]
    exact harmless_nil
  · rw [turn_ofClean hn hp]
    exact harmless_ofClean hp !slash

/-- Turning a path takes its slash away or adds one. -/
theorem turn_cases (path : Text) :
    Text.endsWith path '/' = true ∧ path = turn path ++ ['/'] ∨
      Text.endsWith path '/' = false ∧ turn path = path ++ ['/'] := by
  unfold turn
  cases h : Text.endsWith path '/' with
  | false => exact .inr ⟨rfl, rfl⟩
  | true =>
    obtain ⟨front, rfl⟩ := List.getLast?_eq_some_iff.1 (beq_iff_eq.1 h)
    exact .inl ⟨rfl, by simp⟩

end Path
end HttpRouter
