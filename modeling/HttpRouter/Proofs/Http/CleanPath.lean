import HttpRouter.Http.Path

set_option autoImplicit false

namespace HttpRouter

namespace Text

theorem pieces_cons (sep c : Char) (rest : Text) (h : c ≠ sep) :
    ∃ piece others, pieces sep rest = piece :: others ∧
      pieces sep (c :: rest) = (c :: piece) :: others := by
  cases hp : pieces sep rest with
  | nil => exact absurd hp (pieces_ne_nil sep rest)
  | cons piece others => exact ⟨piece, others, rfl, by simp [pieces, h, hp]⟩

theorem pieces_append (sep : Char) (before after : Text) :
    pieces sep (before ++ sep :: after) = pieces sep before ++ pieces sep after := by
  induction before with
  | nil => simp [pieces]
  | cons c rest ih =>
    by_cases h : c = sep
    · simp [pieces, h, ih]
    · obtain ⟨piece, others, hp, hc⟩ := pieces_cons sep c rest h
      obtain ⟨piece', others', hp', hc'⟩ := pieces_cons sep c (rest ++ sep :: after) h
      rw [hp, hp', List.cons_append] at ih
      cases ih
      rw [List.cons_append, hc, hc', List.cons_append]

theorem pieces_of_not_mem {sep : Char} {text : Text} (h : sep ∉ text) :
    pieces sep text = [text] := by
  induction text with
  | nil => rfl
  | cons c rest ih =>
    rw [List.mem_cons, not_or] at h
    obtain ⟨piece, others, hp, hc⟩ := pieces_cons sep c rest (Ne.symm h.1)
    rw [ih h.2] at hp
    cases hp
    exact hc

/-- A piece has no separator, and all its characters are those of the text. -/
theorem mem_of_mem_pieces {sep : Char} {text piece : Text} (h : piece ∈ pieces sep text) :
    ∀ c ∈ piece, c ≠ sep ∧ c ∈ text := by
  induction text generalizing piece with
  | nil =>
    rw [pieces, List.mem_singleton] at h
    simp [h]
  | cons first rest ih =>
    have later : ∀ other ∈ pieces sep rest, ∀ c ∈ other, c ≠ sep ∧ c ∈ first :: rest :=
      fun other ho c hc => ⟨(ih ho c hc).1, List.mem_cons_of_mem first (ih ho c hc).2⟩
    by_cases hs : first = sep
    · simp only [pieces, hs, if_true, List.mem_cons] at h
      rcases h with rfl | h
      · simp
      · exact later piece h
    · obtain ⟨head, others, hp, hc⟩ := pieces_cons sep first rest hs
      rw [hc, List.mem_cons] at h
      rcases h with rfl | h
      · intro c hm
        rcases List.mem_cons.1 hm with rfl | hm
        · exact ⟨hs, List.mem_cons_self⟩
        · exact later head (by simp [hp]) c hm
      · exact later piece (by simp [hp, h])

end Text

namespace Path

structure Proper (segment : Text) : Prop where
  ne_nil : segment ≠ []
  ne_dot : segment ≠ ['.']
  ne_dots : segment ≠ ['.', '.']
  no_slash : '/' ∉ segment

theorem keep_proper {segment : Text} (h : Proper segment) (kept : List Text) :
    keep kept segment = segment :: kept := by
  simp [keep, h.ne_nil, h.ne_dot, h.ne_dots]

theorem mem_foldl_keep {segments kept : List Text} {segment : Text}
    (h : segment ∈ segments.foldl keep kept) :
    segment ∈ kept ∨ segment ∈ segments ∧ segment ≠ [] ∧ segment ≠ ['.'] ∧
      segment ≠ ['.', '.'] := by
  induction segments generalizing kept with
  | nil => exact .inl h
  | cons first rest ih =>
    rcases ih h with hk | ⟨hr, hp⟩
    · unfold keep at hk
      split at hk
      · exact .inl hk
      · split at hk
        · exact .inl (List.mem_of_mem_tail hk)
        · rename_i hd hdd
          rcases List.mem_cons.1 hk with rfl | hk
          · rw [not_or] at hd
            exact .inr ⟨List.mem_cons_self, hd.1, hd.2, hdd⟩
          · exact .inl hk
    · exact .inr ⟨List.mem_cons_of_mem first hr, hp⟩

theorem mem_resolve {path segment : Text} (h : segment ∈ resolve path) :
    Proper segment ∧ ∀ c ∈ segment, c ∈ path := by
  rcases mem_foldl_keep h with h | ⟨hp, hn, hd, hdd⟩
  · cases h
  · have hc := Text.mem_of_mem_pieces hp
    exact ⟨⟨hn, hd, hdd, fun h => (hc '/' h).1 rfl⟩, fun c hm => (hc c hm).2⟩

theorem resolve_append (before after : Text) :
    resolve (before ++ '/' :: after) = (Text.pieces '/' after).foldl keep (resolve before) := by
  rw [resolve, Text.pieces_append, List.foldl_append]
  rfl

/-- Segments behind slashes, with a slash at the end or without one.  Without segments there is no
choice. -/
def ofClean (segments : List Text) (slash : Bool) : Text :=
  if segments = [] then ['/'] else ofSegments segments ++ if slash then ['/'] else []

theorem ofSegments_eq_nil {segments : List Text} : ofSegments segments = [] ↔ segments = [] := by
  cases segments <;> simp [ofSegments]

theorem clean_eq (path : Text) :
    clean path = ofClean (resolve path).reverse (Text.endsWith path '/') := by
  unfold clean ofClean
  split
  · rename_i h
    rw [ofSegments_eq_nil] at h
    simp [h]
  · rename_i joined h
    have hn : (resolve path).reverse ≠ [] := by
      intro he
      rw [he] at h
      exact h rfl
    rw [if_neg hn]
    split <;> simp

theorem resolve_ofSegments {segments : List Text} (h : ∀ s ∈ segments, Proper s) (before : Text) :
    resolve (before ++ ofSegments segments) = segments.reverse ++ resolve before := by
  induction segments generalizing before with
  | nil => simp [ofSegments]
  | cons first rest ih =>
    have hf := h first List.mem_cons_self
    have hs : ofSegments (first :: rest) = '/' :: (first ++ ofSegments rest) := by
      simp [ofSegments]
    have hb : before ++ '/' :: (first ++ ofSegments rest)
        = (before ++ '/' :: first) ++ ofSegments rest := by simp
    rw [hs, hb, ih fun s hs => h s (List.mem_cons_of_mem first hs), resolve_append,
      Text.pieces_of_not_mem hf.no_slash, List.foldl_cons, keep_proper hf]
    simp

theorem endsWith_ofSegments {segments : List Text} (hn : segments ≠ [])
    (h : ∀ s ∈ segments, Proper s) : Text.endsWith (ofSegments segments) '/' = false := by
  obtain ⟨front, last, rfl⟩ := List.eq_nil_or_concat segments |>.resolve_left hn
  have hl := h last (by simp)
  obtain ⟨start, c, rfl⟩ := List.eq_nil_or_concat last |>.resolve_left hl.ne_nil
  have hc : c ≠ '/' := fun he => hl.no_slash (by simp [he])
  have ho : ofSegments (front.concat (start.concat c))
      = ofSegments front ++ '/' :: start ++ [c] := by
    simp [ofSegments]
  rw [ho, Text.endsWith_append, beq_eq_false_iff_ne]
  exact hc

theorem ofClean_of_ne_nil {segments : List Text} (hn : segments ≠ []) (slash : Bool) :
    ofClean segments slash = ofSegments segments ++ if slash then ['/'] else [] := if_neg hn

theorem endsWith_ofClean {segments : List Text} (hn : segments ≠ [])
    (h : ∀ s ∈ segments, Proper s) (slash : Bool) :
    Text.endsWith (ofClean segments slash) '/' = slash := by
  rw [ofClean_of_ne_nil hn]
  cases slash with
  | false => simpa using endsWith_ofSegments hn h
  | true => exact Text.endsWith_append _ _ _

theorem resolve_ofClean {segments : List Text} (h : ∀ s ∈ segments, Proper s) (slash : Bool) :
    resolve (ofClean segments slash) = segments.reverse := by
  by_cases hn : segments = []
  · rw [hn]
    rfl
  · have hr : resolve (ofSegments segments) = segments.reverse := by
      rw [← List.nil_append (ofSegments segments), resolve_ofSegments h]
      exact List.append_nil _
    rw [ofClean_of_ne_nil hn]
    cases slash with
    | false => simpa using hr
    | true =>
      rw [if_pos rfl, resolve_append, hr]
      rfl

/-- Cleaning gives a path of the clean form and leaves paths of that form alone. -/
theorem clean_ofClean {segments : List Text} (h : ∀ s ∈ segments, Proper s) (slash : Bool) :
    clean (ofClean segments slash) = ofClean segments slash := by
  rw [clean_eq, resolve_ofClean h, List.reverse_reverse]
  by_cases hn : segments = []
  · simp [hn, ofClean]
  · rw [endsWith_ofClean hn h]

theorem exists_ofClean (path : Text) :
    ∃ segments slash, (∀ s ∈ segments, Proper s) ∧ clean path = ofClean segments slash :=
  ⟨_, _, fun _ hs => (mem_resolve (List.mem_reverse.1 hs)).1, clean_eq path⟩

theorem clean_clean (path : Text) : clean (clean path) = clean path := by
  obtain ⟨segments, slash, h, hc⟩ := exists_ofClean path
  rw [hc, clean_ofClean h]

/-- A clean path still has all segments that remain of the path, and nothing else. -/
theorem resolve_clean (path : Text) : resolve (clean path) = resolve path := by
  have h : ∀ s ∈ (resolve path).reverse, Proper s :=
    fun _ hs => (mem_resolve (List.mem_reverse.1 hs)).1
  rw [clean_eq, resolve_ofClean h, List.reverse_reverse]

/-- Whatever comes after a part of a path, also when it takes segments of that part away, the part
can be cleaned beforehand. -/
theorem clean_append (before after : Text) :
    clean (before ++ '/' :: after) = clean (clean before ++ '/' :: after) := by
  have hs : resolve (before ++ '/' :: after) = resolve (clean before ++ '/' :: after) := by
    rw [resolve_append, resolve_append, resolve_clean]
  -- The slash at the end is that of the last part, or the one in the middle if that is empty.
  have he : Text.endsWith (before ++ '/' :: after) '/'
      = Text.endsWith (clean before ++ '/' :: after) '/' := by
    have hn : '/' :: after ≠ [] := List.cons_ne_nil '/' after
    rw [Text.endsWith_append_of_ne_nil hn, Text.endsWith_append_of_ne_nil hn]
  rw [clean_eq, clean_eq, hs, he]

theorem mem_of_mem_ofClean {segments : List Text} {slash : Bool} {c : Char}
    (h : c ∈ ofClean segments slash) : c = '/' ∨ ∃ s ∈ segments, c ∈ s := by
  by_cases hn : segments = []
  · rw [hn, ofClean, if_pos rfl, List.mem_singleton] at h
    exact .inl h
  · rw [ofClean_of_ne_nil hn, List.mem_append] at h
    rcases h with h | h
    · obtain ⟨s, hs, hc⟩ := List.mem_flatMap.1 h
      rcases List.mem_cons.1 hc with rfl | hc
      · exact .inl rfl
      · exact .inr ⟨s, hs, hc⟩
    · cases slash <;> simp at h
      exact .inl h

theorem not_mem_clean {path : Text} {c : Char} (hs : c ≠ '/') (h : c ∉ path) : c ∉ clean path := by
  rw [clean_eq]
  intro hm
  rcases mem_of_mem_ofClean hm with rfl | ⟨s, hr, hc⟩
  · exact hs rfl
  · exact h ((mem_resolve (List.mem_reverse.1 hr)).2 c hc)

def turn (path : Text) : Text :=
  if Text.endsWith path '/' then path.dropLast else path ++ ['/']

theorem not_mem_turn {path : Text} {c : Char} (hs : c ≠ '/') (h : c ∉ path) : c ∉ turn path := by
  unfold turn
  split
  · exact fun hm => h (List.dropLast_subset path hm)
  · simp [h, hs]

theorem turn_ofClean {segments : List Text} (hn : segments ≠ []) (h : ∀ s ∈ segments, Proper s)
    (slash : Bool) : turn (ofClean segments slash) = ofClean segments !slash := by
  rw [turn, endsWith_ofClean hn h, ofClean_of_ne_nil hn, ofClean_of_ne_nil hn]
  cases slash <;> simp

/-- Turning the slash of a clean path other than the root gives a clean path, and turning it again
gives the first path back. -/
theorem turn_of_clean {path : Text} (h : clean path = path) (hr : path ≠ ['/']) :
    clean (turn path) = turn path ∧ turn (turn path) = path := by
  obtain ⟨segments, slash, hp, hc⟩ := exists_ofClean path
  rw [h] at hc
  have hn : segments ≠ [] := by
    rintro rfl
    exact hr (hc.trans rfl)
  rw [hc, turn_ofClean hn hp, turn_ofClean hn hp, Bool.not_not]
  exact ⟨clean_ofClean hp _, rfl⟩

end Path
end HttpRouter
