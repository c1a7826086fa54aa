import HttpRouter.Proofs.Pattern.Braces
import HttpRouter.Proofs.Text.Slices

set_option autoImplicit false

namespace HttpRouter

namespace Template

open Text (width)
open Utf8 (encode encodeChar)

def openByte : UInt8 := 0x7b

def closeByte : UInt8 := 0x7d

/-- Reads on at `position` inside `level` open braces, the outermost of which is at `opened`. -/
def scanBraces : Bytes → Nat → Nat → Nat → Option (List (Nat × Nat))
  | [], level, _, _ => if level = 0 then some [] else none
  | b :: rest, level, opened, position =>
    if b = openByte then
      scanBraces rest (level + 1) (if level = 0 then position else opened) (position + 1)
    else if b = closeByte then
      if level = 0 then none
      else if level = 1 then
        (scanBraces rest 0 opened (position + 1)).map ((opened, position) :: ·)
      else scanBraces rest (level - 1) opened (position + 1)
    else scanBraces rest level opened (position + 1)

def braces? (template : Text) : Option (List (Nat × Nat)) := scanBraces (encode template) 0 0 0

/-- Where the braces around placeholders are, if the template begins at `start`. -/
def spans : Nat → List (Text × Text) → List (Nat × Nat)
  | _, [] => []
  | start, (literal, inside) :: rest =>
    let opened := start + width literal
    let closed := opened + 1 + width inside
    (opened, closed) :: spans (closed + 1) rest

def IsBrace (b : UInt8) : Prop := b = openByte ∨ b = closeByte

theorem not_isBrace_of_braceless {text : Text} (h : text.Braceless) :
    ∀ b ∈ encode text, ¬ IsBrace b := by
  rintro b hb (rfl | rfl)
  · exact (h _ (Text.mem_of_mem_encode hb (by decide))).1 rfl
  · exact (h _ (Text.mem_of_mem_encode hb (by decide))).2 rfl

theorem scanBraces_append {bytes : Bytes} (h : ∀ b ∈ bytes, ¬ IsBrace b) (rest : Bytes)
    (level opened position : Nat) :
    scanBraces (bytes ++ rest) level opened position
      = scanBraces rest level opened (position + bytes.length) := by
  induction bytes generalizing position with
  | nil => rfl
  | cons b bytes ih =>
    obtain ⟨hb, hbytes⟩ := List.forall_mem_cons.1 h
    obtain ⟨ho, hc⟩ := not_or.1 hb
    rw [List.cons_append, scanBraces, if_neg ho, if_neg hc, ih hbytes, List.length_cons,
      Nat.add_assoc, Nat.add_comm 1]

section
variable (rest : Text) (level opened position : Nat)

theorem scanBraces_open : scanBraces (encode ('\x7b' :: rest)) level opened position
    = scanBraces (encode rest) (level + 1) (if level = 0 then position else opened)
        (position + 1) := rfl

theorem scanBraces_close : scanBraces (encode ('\x7d' :: rest)) 1 opened position
    = (scanBraces (encode rest) 0 opened (position + 1)).map ((opened, position) :: ·) := rfl

theorem scanBraces_close_inner : scanBraces (encode ('\x7d' :: rest)) (level + 2) opened position
    = scanBraces (encode rest) (level + 1) opened (position + 1) := rfl

theorem scanBraces_other {c : Char} (ho : c ≠ '\x7b') (hc : c ≠ '\x7d') :
    scanBraces (encode (c :: rest)) level opened position
      = scanBraces (encode rest) level opened (position + (encodeChar c).length) := by
  have hb : Text.Braceless [c] := by
    intro d hd
    rw [List.mem_singleton.1 hd]
    exact ⟨ho, hc⟩
  have hc := not_isBrace_of_braceless hb
  rw [encode, List.flatMap_singleton] at hc
  rw [Utf8.encode_cons, scanBraces_append hc]

end

/-- Bytes are read as the characters are: what is held since the last placeholder, or since the
outermost open brace, lies between the position there and the one reached. -/
theorem scanBraces_encode (text literal held : Text) (level start opened : Nat) :
    scanBraces (encode text) 0 opened (start + width held)
        = (readFrom 0 literal held text).map (fun t => spans start t.holes) ∧
      scanBraces (encode text) (level + 1) (start + width literal)
          (start + width literal + 1 + width held)
        = (readFrom (level + 1) literal held text).map fun t => spans start t.holes := by
  induction text generalizing literal held level start opened with
  | nil => exact ⟨rfl, rfl⟩
  | cons c rest ih =>
    have hheld : ∀ before, before + width (c :: held)
        = before + width held + (encodeChar c).length := by
      intro before
      rw [Text.width_cons, Nat.add_comm _ (width held), Nat.add_assoc]
    by_cases ho : c = '\x7b'
    · subst ho
      simp only [scanBraces_open, readFrom]
      constructor
      · have hr := (ih held.reverse [] 0 start 0).2
        rwa [Text.width_reverse] at hr
      · have hr := (ih literal ('\x7b' :: held) (level + 1) start 0).2
        rwa [hheld] at hr
    by_cases hc : c = '\x7d'
    · subst hc
      refine ⟨rfl, ?_⟩
      cases level with
      | zero =>
        -- The text held becomes a placeholder, and what follows begins behind it.
        have hr := (ih [] [] 0 (start + width literal + 1 + width held + 1)
          (start + width literal)).1
        change scanBraces _ _ _ (start + width literal + 1 + width held + 1) = _ at hr
        rw [scanBraces_close, hr]
        simp only [readFrom, if_neg ho, if_true, Option.map_map]
        refine congrArg (Option.map · _) (funext fun t => ?_)
        simp only [Function.comp, spans, Text.width_reverse]
      | succ outer =>
        have hr := (ih literal ('\x7d' :: held) outer start 0).2
        rw [hheld] at hr
        exact (scanBraces_close_inner ..).trans hr
    · have hr := ih literal (c :: held) level start opened
      rw [hheld, hheld] at hr
      simp only [scanBraces_other _ _ _ _ ho hc, readFrom, if_neg ho, if_neg hc]
      exact hr

theorem braces?_eq (template : Text) :
    braces? template = (read? template).map fun t => spans 0 t.holes :=
  (scanBraces_encode template [] [] 0 0 0).1

theorem isSome_braces? (template : Text) :
    (braces? template).isSome = true ↔ template.Balanced := by
  rw [braces?_eq, Option.isSome_map, read?, isSome_readFrom, Text.closes_zero]

theorem bounds_of_mem_spans {start : Nat} {holes : List (Text × Text)} {pair : Nat × Nat}
    (h : pair ∈ spans start holes) : start ≤ pair.1 ∧ pair.1 < pair.2 := by
  induction holes generalizing start with
  | nil => cases h
  | cons hole rest ih =>
    rcases List.mem_cons.1 h with rfl | h
    · dsimp only
      omega
    · have hr := ih h
      omega

theorem pairwise_spans (start : Nat) (holes : List (Text × Text)) :
    (spans start holes).Pairwise fun first later => first.2 < later.1 := by
  induction holes generalizing start with
  | nil => exact .nil
  | cons hole rest ih => exact .cons (fun later hl => (bounds_of_mem_spans hl).1) (ih _)

structure Outermost (template : Text) (pairs : List (Nat × Nat)) : Prop where
  ordered : ∀ pair ∈ pairs, pair.1 < pair.2
  apart : pairs.Pairwise fun first later => first.2 < later.1
  matched : ∀ pair ∈ pairs, ∃ before inside after,
    template = before ++ (brace inside ++ after) ∧ inside.Balanced ∧
      pair = (width before, width before + 1 + width inside)
  complete : ∀ position b, (encode template)[position]? = some b → IsBrace b →
    ∃ pair ∈ pairs, pair.1 ≤ position ∧ position ≤ pair.2

theorem text_cons (literal inside tail : Text) (holes : List (Text × Text)) :
    text ⟨(literal, inside) :: holes, tail⟩
      = literal ++ (brace inside ++ text ⟨holes, tail⟩) := by
  simp [text]

theorem text_append (holes : List (Text × Text)) (tail : Text) :
    text ⟨holes, tail⟩ = text ⟨holes, []⟩ ++ tail := by
  simp [text]

theorem width_brace (inside : Text) : width (brace inside) = 1 + width inside + 1 := by
  have hopen : (encodeChar '\x7b').length = 1 := by decide
  have hclose : width ['\x7d'] = 1 := by decide
  rw [brace, Text.width_cons, Text.width_append, hopen, hclose, Nat.add_assoc]

theorem width_behind (front literal inside : Text) : width (front ++ (literal ++ brace inside))
    = width front + width literal + 1 + width inside + 1 := by
  rw [Text.width_append, Text.width_append, width_brace]
  omega

section
variable {tail : Text} {holes : List (Text × Text)}

theorem matched_spans (h : Proper ⟨holes, tail⟩) (front : Text) {pair : Nat × Nat}
    (hp : pair ∈ spans (width front) holes) :
    ∃ before inside after, front ++ text ⟨holes, tail⟩ = before ++ (brace inside ++ after) ∧
      inside.Balanced ∧ pair = (width before, width before + 1 + width inside) := by
  induction holes generalizing front with
  | nil => cases hp
  | cons hole rest ih =>
    obtain ⟨literal, inside⟩ := hole
    obtain ⟨-, hi, hr⟩ := proper_cons.1 h
    rw [text_cons]
    rcases List.mem_cons.1 hp with rfl | hp
    · refine ⟨front ++ literal, inside, text ⟨rest, tail⟩, ?_, hi, ?_⟩
      · rw [List.append_assoc]
      · rw [Text.width_append]
    · rw [← width_behind] at hp
      have hlater := ih hr _ hp
      rwa [List.append_assoc, List.append_assoc] at hlater

/-- A brace behind the front is in one of the spans, as the literal texts have none. -/
theorem complete_spans (h : Proper ⟨holes, tail⟩) (front : Text) {position : Nat} {b : UInt8}
    (hf : width front ≤ position)
    (hp : (encode (front ++ text ⟨holes, tail⟩))[position]? = some b) (hb : IsBrace b) :
    ∃ pair ∈ spans (width front) holes, pair.1 ≤ position ∧ position ≤ pair.2 := by
  induction holes generalizing front with
  | nil =>
    rw [Utf8.encode_append, List.getElem?_append_right hf] at hp
    exact absurd hb (not_isBrace_of_braceless (proper_nil.1 h) b (List.mem_of_getElem? hp))
  | cons hole rest ih =>
    obtain ⟨literal, inside⟩ := hole
    obtain ⟨hl, -, hr⟩ := proper_cons.1 h
    rw [text_cons] at hp
    by_cases hbefore : position < width front + width literal
    · rw [Utf8.encode_append, List.getElem?_append_right hf, Utf8.encode_append,
        List.getElem?_append_left (by rw [Text.length_encode, Text.length_encode]; omega)] at hp
      exact absurd hb (not_isBrace_of_braceless hl b (List.mem_of_getElem? hp))
    by_cases hwithin : position ≤ width front + width literal + 1 + width inside
    · exact ⟨_, List.mem_cons_self, Nat.le_of_not_lt hbefore, hwithin⟩
    · have hbehind : width (front ++ (literal ++ brace inside)) ≤ position := by
        rw [width_behind]
        omega
      obtain ⟨pair, hm, hpair⟩ := ih hr _ hbehind (by simpa using hp)
      rw [width_behind] at hm
      exact ⟨pair, List.mem_cons_of_mem _ hm, hpair⟩

end

theorem outermost_of_braces? {template : Text} {pairs : List (Nat × Nat)}
    (h : braces? template = some pairs) : Outermost template pairs := by
  rw [braces?_eq] at h
  obtain ⟨t, ht, rfl⟩ := Option.map_eq_some_iff.1 h
  obtain ⟨hp, rfl⟩ := read?_eq_some_iff.1 ht
  exact ⟨fun pair hm => (bounds_of_mem_spans hm).2, pairwise_spans 0 t.holes,
    fun pair hm => matched_spans hp [] hm,
    fun position b hb hbrace => complete_spans hp [] (Nat.zero_le _) hb hbrace⟩

end Template
end HttpRouter
