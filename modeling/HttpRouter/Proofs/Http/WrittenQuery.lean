import HttpRouter.Http.Query
import HttpRouter.Proofs.Http.CleanPath
import HttpRouter.Proofs.Text.Percent

set_option autoImplicit false

namespace HttpRouter

theorem Text.pieces_join {sep : Char} {pieces : List Text} (hn : pieces ≠ [])
    (h : ∀ piece ∈ pieces, sep ∉ piece) : Text.pieces sep (Text.join [sep] pieces) = pieces := by
  induction pieces with
  | nil => exact absurd rfl hn
  | cons piece others ih =>
    obtain ⟨hp, ho⟩ := List.forall_mem_cons.1 h
    cases others with
    | nil => exact Text.pieces_of_not_mem hp
    | cons next more =>
      have hj : Text.join [sep] (piece :: next :: more)
          = piece ++ sep :: Text.join [sep] (next :: more) := by simp [Text.join]
      rw [hj, Text.pieces_append, Text.pieces_of_not_mem hp, ih (List.cons_ne_nil next more) ho]
      rfl

namespace Query

inductive WritesChar : Char → Text → Prop
  | plain {c : Char} (h : c ≠ '&' ∧ c ≠ '=' ∧ c ≠ '+' ∧ c ≠ '%') : WritesChar c [c]
  | escaped {c : Char} {written : Text} (h : Percent.Escapes (String.utf8EncodeChar c) written) :
    WritesChar c written
  | blank : WritesChar ' ' ['+']

inductive WritesText : Text → Text → Prop
  | nil : WritesText [] []
  | cons {c : Char} {text front back : Text} (hc : WritesChar c front) (ht : WritesText text back) :
    WritesText (c :: text) (front ++ back)

inductive WritesPair : Text × Text → Text → Prop
  | divided {key value front back : Text} (hk : WritesText key front) (hv : WritesText value back) :
    WritesPair (key, value) (front ++ '=' :: back)
  | bare {key written : Text} (hn : key ≠ []) (hk : WritesText key written) :
    WritesPair (key, []) written

/-- One segment for each pair, with any number of empty segments before, between and after. -/
inductive WritesSegments : List (Text × Text) → List Text → Prop
  | nil : WritesSegments [] []
  | pair {pair : Text × Text} {segment : Text} {pairs : List (Text × Text)} {segments : List Text}
    (hp : WritesPair pair segment) (hs : WritesSegments pairs segments) :
    WritesSegments (pair :: pairs) (segment :: segments)
  | empty {pairs : List (Text × Text)} {segments : List Text} (hs : WritesSegments pairs segments) :
    WritesSegments pairs ([] :: segments)

def Writes (pairs : List (Text × Text)) (query : Text) : Prop :=
  ∃ segments, WritesSegments pairs segments ∧ query = Text.join ['&'] segments

theorem pair_of_cut {text key value : Text} (h : Text.cut '=' text = (key, value)) :
    pair text = (decode key, decode value) := by
  rw [pair, h]

def bytes (text : Text) : Bytes := Utf8.encode (plusToBlank text)

theorem bytes_append (front back : Text) : bytes (front ++ back) = bytes front ++ bytes back := by
  simp [bytes, plusToBlank, Utf8.encode]

theorem bytes_of_not_mem {text : Text} (h : '+' ∉ text) : bytes text = Utf8.encode text := by
  have hp : plusToBlank text = text := by
    refine (List.map_congr_left fun c hc => if_neg ?_).trans (List.map_id text)
    rintro rfl
    exact h hc
  rw [bytes, hp]

namespace WritesChar

variable {c : Char} {written : Text}

theorem decode_bytes (h : WritesChar c written) (rest : Bytes) :
    Percent.decode (bytes written ++ rest) = Utf8.encodeChar c ++ Percent.decode rest := by
  cases h with
  | plain h =>
    obtain ⟨-, -, hplus, hpercent⟩ := h
    have hb : bytes [c] = Utf8.encodeChar c := by
      rw [bytes_of_not_mem (by simpa using hplus.symm), Utf8.encode, List.flatMap_singleton]
    rw [hb]
    refine Percent.decode_append (fun b hm he => hpercent ?_) rest
    have hn : c.toNat = b.toNat := Utf8.toNat_of_mem_encodeChar hm (by rw [he]; decide)
    rw [he] at hn
    rw [← Char.ofNat_toNat c, hn]
    rfl
  | escaped h =>
    have hp : '+' ∉ written := by
      intro hm
      rcases h.mem hm with he | ⟨n, hd⟩
      · cases he
      · exact hd.plain.2.2 rfl
    rw [bytes_of_not_mem hp, h.decode, Utf8.encodeChar_eq]
  | blank =>
    have hb : ∀ b ∈ bytes ['+'], b ≠ 0x25 := by
      simp only [bytes, plusToBlank, List.map_cons, List.map_nil, if_true]
      exact List.forall_mem_singleton.2 (by decide)
    exact Percent.decode_append hb rest

/-- No separator is left of what is written for a character. -/
theorem mem (h : WritesChar c written) {d : Char} (hd : d ∈ written) : d ≠ '&' ∧ d ≠ '=' := by
  cases h with
  | plain h =>
    rw [List.mem_singleton.1 hd]
    exact ⟨h.1, h.2.1⟩
  | escaped h =>
    rcases h.mem hd with rfl | ⟨n, hn⟩
    · decide
    · exact ⟨hn.plain.1, hn.plain.2.1⟩
  | blank =>
    rw [List.mem_singleton.1 hd]
    decide

theorem ne_nil (h : WritesChar c written) : written ≠ [] := by
  cases h with
  | plain | blank => exact List.cons_ne_nil _ _
  | escaped h =>
    rintro rfl
    cases hs : String.utf8EncodeChar c with
    | nil => exact String.utf8EncodeChar_ne_nil hs
    | cons b bytes =>
      rw [hs] at h
      cases h

end WritesChar

namespace WritesText

variable {text written : Text}

theorem decode_bytes (h : WritesText text written) :
    Percent.decode (bytes written) = Utf8.encode text := by
  induction h with
  | nil => rfl
  | cons hc ht ih =>
    rw [bytes_append, hc.decode_bytes, ih]
    rfl

theorem decode (h : WritesText text written) : Query.decode written = text := by
  change Utf8.decodeLossy (Percent.decode (bytes written)) = text
  rw [h.decode_bytes, Utf8.decodeLossy_encode]

theorem mem (h : WritesText text written) {d : Char} (hd : d ∈ written) : d ≠ '&' ∧ d ≠ '=' := by
  induction h with
  | nil => cases hd
  | cons hc ht ih =>
    rcases List.mem_append.1 hd with hd | hd
    · exact hc.mem hd
    · exact ih hd

theorem ne_nil (h : WritesText text written) (hn : text ≠ []) : written ≠ [] := by
  cases h with
  | nil => exact absurd rfl hn
  | cons hc ht => exact List.append_ne_nil_of_left_ne_nil hc.ne_nil _

end WritesText

namespace WritesPair

variable {pair : Text × Text} {segment : Text}

theorem pair_eq (h : WritesPair pair segment) : Query.pair segment = pair := by
  cases h with
  | divided hk hv =>
    rw [pair_of_cut (Text.cut_eq (fun hm => (hk.mem hm).2 rfl) _), hk.decode, hv.decode]
  | bare hn hk =>
    rw [pair_of_cut (Text.cut_of_not_mem fun hm => (hk.mem hm).2 rfl), hk.decode,
      WritesText.nil.decode]

theorem not_mem (h : WritesPair pair segment) : '&' ∉ segment := by
  cases h with
  | divided hk hv =>
    intro hm
    rcases List.mem_append.1 hm with hm | hm
    · exact (hk.mem hm).1 rfl
    · rcases List.mem_cons.1 hm with he | hm
      · cases he
      · exact (hv.mem hm).1 rfl
  | bare hn hk => exact fun hm => (hk.mem hm).1 rfl

theorem ne_nil (h : WritesPair pair segment) : segment ≠ [] := by
  cases h with
  | divided hk hv => exact List.append_ne_nil_of_right_ne_nil _ (List.cons_ne_nil _ _)
  | bare hn hk => exact hk.ne_nil hn

end WritesPair

namespace WritesSegments

variable {pairs : List (Text × Text)} {segments : List Text}

theorem not_mem (h : WritesSegments pairs segments) : ∀ segment ∈ segments, '&' ∉ segment := by
  induction h with
  | nil => nofun
  | pair hp hs ih => exact List.forall_mem_cons.2 ⟨hp.not_mem, ih⟩
  | empty hs ih => exact List.forall_mem_cons.2 ⟨List.not_mem_nil, ih⟩

theorem map_pair (h : WritesSegments pairs segments) :
    (segments.filter (!·.isEmpty)).map Query.pair = pairs := by
  induction h with
  | nil => rfl
  | pair hp hs ih =>
    rw [List.filter_cons_of_pos (by simpa using hp.ne_nil), List.map_cons, hp.pair_eq, ih]
  | empty hs ih => rwa [List.filter_cons_of_neg (by simp)]

end WritesSegments

/-- Whichever way pairs are written as a query, reading it gives back the pairs. -/
theorem pairs_of_writes {written : List (Text × Text)} {query : Text} (h : Writes written query) :
    pairs query = written := by
  obtain ⟨segments, hs, rfl⟩ := h
  unfold pairs
  cases segments with
  | nil => exact hs.map_pair
  | cons segment others =>
    rw [Text.pieces_join (List.cons_ne_nil segment others) hs.not_mem]
    exact hs.map_pair

theorem pairs_of_crowded :
    let written := [("k&".toList, " +é".toList), ("é".toList, []), ([], [])]
    let query := "&k%26=+%2bé&&%C3%a9&=".toList
    Writes written query ∧ pairs query = written := by
  intro written query
  have amp : WritesChar '&' "%26".toList := .escaped (.cons (by decide) (by decide) .nil)
  have plus : WritesChar '+' "%2b".toList := .escaped (.cons (by decide) (by decide) .nil)
  have acute : WritesChar 'é' "%C3%a9".toList :=
    .escaped (.cons (by decide) (by decide) (.cons (by decide) (by decide) .nil))
  have first : WritesPair ("k&".toList, " +é".toList) "k%26=+%2bé".toList :=
    .divided (.cons (.plain (by decide)) (.cons amp .nil))
      (.cons .blank (.cons plus (.cons (.plain (by decide)) .nil)))
  have second : WritesPair ("é".toList, []) "%C3%a9".toList := .bare (by decide) (.cons acute .nil)
  have third : WritesPair ([], []) "=".toList := .divided .nil .nil
  have h : Writes written query :=
    ⟨_, .empty (.pair first (.empty (.pair second (.pair third .nil)))), rfl⟩
  exact ⟨h, pairs_of_writes h⟩

end Query
end HttpRouter
