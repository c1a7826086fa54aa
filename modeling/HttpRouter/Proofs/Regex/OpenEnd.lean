import HttpRouter.Proofs.Regex.Greedy

set_option autoImplicit false

namespace HttpRouter.Regex

def line : Regex := .rep 0 none true (.set (.compl (.single '\n')))

def openEnd (more : Bool) : List Regex := (if more then [line] else []) ++ [.look .finish]

def completes (more : Bool) (rest : Text) : Bool :=
  rest.isEmpty || (more && !rest.contains '\n')

namespace Reader

theorem closes_openEnd (more : Bool) :
    Closes .path ((if more then ".*".toList else []) ++ ['$']) (openEnd more) := by
  cases more with
  | false => exact closes_finish .path
  | true =>
    intro r parts h
    have hp := h.push ⟨line, 1⟩
    obtain ⟨last, hl, hh⟩ := closes_finish .path hp
    refine ⟨last, ?_, by simpa [openEnd] using hh⟩
    obtain ⟨flags, level, enclosing, groups, names⟩ := r
    obtain rfl : flags = Style.path.flags := h.flags
    refine .step rfl rfl (Nat.le_refl _) ?_
    exact .step rfl rfl (Nat.le_refl _) hl

end Reader

section Line
variable {text : Text} {r : Regex} {s t : State}

def groupsAtEnd? (s : State) : Option (List Span) :=
  if s.rest.isEmpty then some s.groups else none

/-- The longest walk within a line reaches the end of the text if no line ends before. -/
theorem findSome?_walk_line {limit : Nat} (h : s.rest.length ≤ limit) :
    (walk (.compl (.single '\n')) limit s).reverse.findSome? groupsAtEnd?
      = if '\n' ∈ s.rest then none else some s.groups := by
  obtain ⟨offset, before, rest, groups, passed⟩ := s
  induction rest generalizing limit offset before passed with
  | nil => cases limit <;> rfl
  | cons c rest ih =>
    cases limit with
    | zero => cases h
    | succ limit =>
      by_cases hc : c = '\n'
      · subst hc
        have hs : (CharSet.compl (.single '\n')).contains '\n' = false := by decide
        simp [walk, State.step?, hs, groupsAtEnd?]
      · have hs : (CharSet.compl (.single '\n')).contains c = true := by
          rw [CharSet.contains_compl, Bool.not_eq_true', ← Bool.not_eq_true,
            CharSet.contains_single]
          exact hc
        have hi := @ih limit (offset + 1) (some c) [] (Nat.le_of_succ_le_succ h)
        simp only [walk, State.step?, hs, if_true, List.reverse_cons, List.findSome?_append, hi]
        simp [groupsAtEnd?, Ne.symm hc]

theorem findSome?_line (h : t.Open) (a : Address) :
    (line.run a t).findSome? groupsAtEnd? = if '\n' ∈ t.rest then none else some t.groups := by
  have hp : ¬ (0 = 0 ∧ t.passed.contains (a.exit 0) = true) := by
    rw [List.contains_iff_mem]
    exact fun hm => h _ hm.2 rfl
  have hr := @runSet_map_erase (.compl (.single '\n')) a 0 none true t hp
  have he : groupsAtEnd? ∘ State.erase = groupsAtEnd? := rfl
  rw [line, run, ← he, ← List.findSome?_map, hr]
  simp only [if_true, Option.getD_none, List.drop_zero]
  rw [← List.map_reverse, List.findSome?_map, he]
  exact findSome?_walk_line (Nat.le_refl _)

theorem on_of_mem_line (h : s.On text) {a : Address} (ht : t ∈ line.run a s) : t.On text := by
  rw [line, run, runSet] at ht
  split at ht
  · cases ht
  · simp only [if_true, List.mem_reverse, List.mem_map, Prod.exists, Option.getD_none,
      List.drop_zero] at ht
    obtain ⟨u, more, hu, rfl⟩ := ht
    have hm : u ∈ walk (.compl (.single '\n')) s.rest.length s := List.fst_mem_of_mem_zipIdx hu
    rw [walk_eq_cons] at hm
    rcases List.mem_cons.1 hm with rfl | hm
    · exact h
    · exact (on_of_mem_walk h hm).1

theorem ends_openEnd (more : Bool) : Ends (openEnd more) (completes more) := by
  intro text r s hr a
  cases more with
  | false =>
    obtain ⟨b, hb⟩ := ends_closing false true hr a
    refine ⟨b, hb.trans ?_⟩
    simp [closes, completes]
  | true =>
    have hon : ∀ t ∈ (r.run (0 :: 0 :: a) s).flatMap (line.run (1 :: 0 :: a)), t.On text := by
      intro t ht
      obtain ⟨u, hu, ht⟩ := List.mem_flatMap.1 ht
      exact on_of_mem_line (hr _ u hu).1 ht
    refine ⟨0 :: 0 :: a, (findSome?_finish (seq r line) s a).trans ?_⟩
    rw [run]
    refine (findSome?_andThen fun t ht u hu ho => ?_).trans (findSome?_congr fun t ht => ?_)
    · rw [State.rest_eq (hon t ht) (hon u hu) ho]
      split <;> rfl
    · refine (findSome?_line (hr _ t ht).2 _).trans ?_
      by_cases hn : '\n' ∈ t.rest
      · have he : t.rest ≠ [] := List.ne_nil_of_mem hn
        simp [completes, hn, he]
      · simp [completes, hn]

end Line
end HttpRouter.Regex
