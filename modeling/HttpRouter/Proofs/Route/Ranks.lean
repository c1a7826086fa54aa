import HttpRouter.Proofs.Route.Gains

set_option autoImplicit false

/-!
# Matchers in the order of their ranks

A binary search finds where a list stops having a property if the elements that have it come before
all others.  The place of a new matcher is found in this way.  Lists of matchers that are sorted meet
the condition and stay sorted, so that adding matchers one after another is sorting them, with those
of one rank in the order in which they were added.
-/
namespace HttpRouter

def Partitioned {α : Type} (p : α → Bool) (xs : List α) : Prop :=
  ∃ front back, xs = front ++ back ∧ (∀ x ∈ front, p x = true) ∧ ∀ x ∈ back, p x = false

namespace Partition

section
variable {α : Type} (p : α → Bool) (xs : List α)

/-- Where the upper half of a stretch begins if the element there has the property, and otherwise
where the stretch begins. -/
def halve (base size : Nat) : Nat :=
  if xs[base + size / 2]?.any p then base + size / 2 else base

def search (base size : Nat) : Nat :=
  if 1 < size then search (halve p xs base size) (size - size / 2) else base
termination_by size

def point : Nat :=
  let base := search p xs 0 xs.length
  if xs[base]?.any p then base + 1 else base

variable {p xs}

section
variable {n : Nat} (hn : ∀ i, xs[i]?.any p = decide (i < n)) {base size : Nat}
include hn

/-- A stretch begins at the start of the list or at an element with the property, and ends behind all
elements with the property. -/
theorem halve_spec (hsize : 1 < size) (hl : base = 0 ∨ base < n) (hr : n ≤ base + size) :
    (halve p xs base size = 0 ∨ halve p xs base size < n) ∧
      n ≤ halve p xs base size + (size - size / 2) := by
  rw [halve, hn]
  by_cases hmid : base + size / 2 < n
  · rw [decide_eq_true hmid, if_pos rfl]
    exact ⟨.inr hmid, by omega⟩
  · rw [decide_eq_false hmid, if_neg Bool.false_ne_true]
    exact ⟨hl, by omega⟩

theorem search_spec (hl : base = 0 ∨ base < n) (hr : n ≤ base + size) :
    (search p xs base size = 0 ∨ search p xs base size < n) ∧ n ≤ search p xs base size + 1 := by
  fun_induction search p xs base size with
  | case1 base size hsize ih =>
    obtain ⟨hl', hr'⟩ := halve_spec hn hsize hl hr
    exact ih hl' hr'
  | case2 base size hsize => exact ⟨hl, by omega⟩

theorem point_eq (hlength : n ≤ xs.length) : point p xs = n := by
  obtain ⟨hl, hr⟩ := search_spec hn (.inl rfl) (Nat.zero_add xs.length ▸ hlength)
  rw [point, hn]
  by_cases h : search p xs 0 xs.length < n
  · rw [decide_eq_true h, if_pos rfl]
    omega
  · rw [decide_eq_false h, if_neg Bool.false_ne_true]
    omega

end

theorem any_getElem?_append {front back : List α} (hf : ∀ x ∈ front, p x = true)
    (hb : ∀ x ∈ back, p x = false) (i : Nat) :
    (front ++ back)[i]?.any p = decide (i < front.length) := by
  by_cases hi : i < front.length
  · rw [List.getElem?_append_left hi, List.getElem?_eq_getElem hi, decide_eq_true hi]
    exact hf _ (List.getElem_mem hi)
  · rw [List.getElem?_append_right (Nat.le_of_not_lt hi), decide_eq_false hi]
    cases hx : back[i - front.length]? with
    | none => rfl
    | some x => exact hb x (List.mem_of_getElem? hx)

theorem point_append {front back : List α} (hf : ∀ x ∈ front, p x = true)
    (hb : ∀ x ∈ back, p x = false) : point p (front ++ back) = front.length :=
  point_eq (any_getElem?_append hf hb) (List.length_append ▸ Nat.le_add_right ..)

end
end Partition

namespace Matcher

def Ranked (ms : List Matcher) : Prop := ms.Pairwise fun first later => first.rank ≤ later.rank

theorem Ranked.rank_le {m other : Matcher} {rest : List Matcher} (h : Ranked (m :: rest))
    (ho : other ∈ m :: rest) : m.rank ≤ other.rank := by
  rcases List.mem_cons.1 ho with rfl | ho
  · exact Nat.le_refl _
  · exact (List.pairwise_cons.1 h).1 other ho

def notAbove (m other : Matcher) : Bool := decide (m.rank ≤ other.rank)

section
variable {m : Matcher} {ms : List Matcher}

theorem Ranked.partitioned (h : Ranked ms) (m : Matcher) : Partitioned (·.notAbove m) ms := by
  induction ms with
  | nil => exact ⟨[], [], rfl, nofun, nofun⟩
  | cons first rest ih =>
    obtain ⟨hfirst, hrest⟩ := List.pairwise_cons.1 h
    by_cases hr : first.rank ≤ m.rank
    · obtain ⟨front, back, rfl, hf, hb⟩ := ih hrest
      exact ⟨first :: front, back, rfl, List.forall_mem_cons.2 ⟨decide_eq_true hr, hf⟩, hb⟩
    · have hlt := Nat.lt_of_not_le hr
      refine ⟨[], first :: rest, rfl, nofun, List.forall_mem_cons.2 ⟨decide_eq_false hr, ?_⟩⟩
      intro other ho
      exact decide_eq_false (Nat.not_le_of_lt (Nat.lt_of_lt_of_le hlt (hfirst other ho)))

theorem insertByRank_eq {front back : List Matcher} (hf : ∀ x ∈ front, x.notAbove m = true)
    (hb : ∀ x ∈ back, x.notAbove m = false) :
    m.insertByRank (front ++ back) = front ++ m :: back := by
  rw [insertByRank_append (fun x hx => of_decide_eq_true (hf x hx))]
  cases back with
  | nil => rfl
  | cons first rest =>
    rw [insertByRank, if_neg (of_decide_eq_false (hb first List.mem_cons_self))]

theorem insertIdx_append (front back : List Matcher) :
    (front ++ back).insertIdx front.length m = front ++ m :: back := by
  induction front with
  | nil => rfl
  | cons first rest ih => exact congrArg (first :: ·) ih

/-- Where the search may be used, it finds the place of the new matcher. -/
theorem insertByRank_eq_insertIdx (h : Partitioned (·.notAbove m) ms) :
    m.insertByRank ms = ms.insertIdx (Partition.point (·.notAbove m) ms) m := by
  obtain ⟨front, back, rfl, hf, hb⟩ := h
  rw [insertByRank_eq hf hb, Partition.point_append hf hb, insertIdx_append]

end

def isOfRank (r : Nat) (m : Matcher) : Bool := decide (m.rank = r)

theorem mem_iff_of_filter {ms others : List Matcher}
    (hr : ∀ r, ms.filter (isOfRank r) = others.filter (isOfRank r)) (m : Matcher) :
    m ∈ ms ↔ m ∈ others := by
  have hm : isOfRank m.rank m = true := decide_eq_true rfl
  have hiff : m ∈ ms.filter (isOfRank m.rank) ↔ m ∈ others.filter (isOfRank m.rank) := by
    rw [hr]
  simpa only [List.mem_filter, hm, and_true] using hiff

/-- Two sorted lists are the same if they have the same matchers of each rank in the same order. -/
theorem Ranked.ext {ms others : List Matcher} (h : Ranked ms) (g : Ranked others)
    (hr : ∀ r, ms.filter (isOfRank r) = others.filter (isOfRank r)) : ms = others := by
  have hmem := mem_iff_of_filter hr
  induction ms generalizing others with
  | nil => exact (List.eq_nil_iff_forall_not_mem.2 fun m hm => nomatch (hmem m).2 hm).symm
  | cons m rest ih =>
    cases others with
    | nil => exact nomatch (hmem m).1 List.mem_cons_self
    | cons other later =>
      -- Each list has the first matcher of the other, and nothing of a lower rank than its own first.
      have hrank : m.rank = other.rank := Nat.le_antisymm
        (h.rank_le ((hmem other).2 List.mem_cons_self))
        (g.rank_le ((hmem m).1 List.mem_cons_self))
      have hm : isOfRank m.rank m = true := decide_eq_true rfl
      have ho : isOfRank m.rank other = true := decide_eq_true hrank.symm
      have hfirst := hr m.rank
      rw [List.filter_cons_of_pos hm, List.filter_cons_of_pos ho] at hfirst
      obtain ⟨rfl, -⟩ := List.cons.inj hfirst
      have hlater : ∀ r, rest.filter (isOfRank r) = later.filter (isOfRank r) := by
        intro r
        have hboth := hr r
        rw [List.filter_cons, List.filter_cons] at hboth
        split at hboth
        · exact (List.cons.inj hboth).2
        · exact hboth
      exact congrArg (m :: ·) (ih h.tail g.tail hlater (mem_iff_of_filter hlater))

theorem notAbove_trans (a b c : Matcher) (hab : a.notAbove b = true) (hbc : b.notAbove c = true) :
    a.notAbove c = true :=
  decide_eq_true (Nat.le_trans (of_decide_eq_true hab) (of_decide_eq_true hbc))

theorem notAbove_total (a b : Matcher) : (a.notAbove b || b.notAbove a) = true := by
  rw [Bool.or_eq_true]
  exact (Nat.le_total a.rank b.rank).imp decide_eq_true decide_eq_true

def byRank (ms : List Matcher) : List Matcher := ms.mergeSort notAbove

theorem ranked_byRank (ms : List Matcher) : Ranked (byRank ms) :=
  (List.pairwise_mergeSort notAbove_trans notAbove_total ms).imp of_decide_eq_true

theorem perm_byRank (ms : List Matcher) : (byRank ms).Perm ms := List.mergeSort_perm ms notAbove

theorem filter_byRank (ms : List Matcher) (r : Nat) :
    (byRank ms).filter (isOfRank r) = ms.filter (isOfRank r) := by
  have hrank : ∀ {m : Matcher}, m ∈ ms.filter (isOfRank r) → m.rank = r :=
    fun hm => of_decide_eq_true (List.mem_filter.1 hm).2
  have hsorted : (ms.filter (isOfRank r)).Pairwise (notAbove · · = true) :=
    List.pairwise_of_forall_mem_list fun a ha b hb =>
      decide_eq_true (Nat.le_of_eq ((hrank ha).trans (hrank hb).symm))
  -- The matchers of one rank are sorted as they are, so sorting keeps their order among themselves.
  have hsub := List.sublist_mergeSort notAbove_trans notAbove_total hsorted List.filter_sublist
  have hfilter := hsub.filter (isOfRank r)
  simp only [List.filter_filter, Bool.and_self] at hfilter
  exact (hfilter.eq_of_length ((perm_byRank ms).filter (isOfRank r)).length_eq.symm).symm

theorem byRank_of_ranked {ms : List Matcher} (h : Ranked ms) : byRank ms = ms :=
  List.mergeSort_of_pairwise (h.imp decide_eq_true)

/-- Adding a matcher to a sorted list is sorting it with the others, as the last one. -/
theorem insertByRank_byRank (m : Matcher) (ms : List Matcher) :
    m.insertByRank (byRank ms) = byRank (ms ++ [m]) := by
  have hs := ranked_byRank ms
  obtain ⟨-, -, -, -, hi⟩ := insertByRank_sorted (m := m) hs
  refine Ranked.ext hi (ranked_byRank _) fun r => ?_
  obtain ⟨front, back, he, hf, hb⟩ := hs.partitioned m
  have hold := filter_byRank ms r
  rw [filter_byRank, List.filter_append, ← hold, he, insertByRank_eq hf hb, List.filter_append,
    List.filter_append, List.append_assoc]
  cases hm : isOfRank r m with
  | false =>
    have hnot := Bool.eq_false_iff.1 hm
    rw [List.filter_cons_of_neg hnot, List.filter_cons_of_neg hnot, List.filter_nil,
      List.append_nil]
  | true =>
    -- What stands behind the place of the matcher is of a higher rank than it.
    have hback : back.filter (isOfRank r) = [] := by
      refine List.filter_eq_nil_iff.2 fun x hx hxr => ?_
      have hr : m.rank = r := of_decide_eq_true hm
      have hxr : x.rank = r := of_decide_eq_true hxr
      exact of_decide_eq_false (hb x hx) (Nat.le_of_eq (hxr.trans hr.symm))
    rw [List.filter_cons_of_pos hm, List.filter_cons_of_pos hm, hback]
    rfl

end Matcher

namespace Settings

theorem insertAll_byRank (own ms : List Matcher) :
    insertAll own (Matcher.byRank ms) = Matcher.byRank (ms ++ own) := by
  induction own generalizing ms with
  | nil => rw [List.append_nil]; rfl
  | cons m rest ih =>
    change insertAll rest (m.insertByRank (Matcher.byRank ms)) = _
    rw [Matcher.insertByRank_byRank, ih, List.append_assoc]
    rfl

theorem insertAll_eq_byRank {inherited : List Matcher} (h : Matcher.Ranked inherited)
    (own : List Matcher) : insertAll own inherited = Matcher.byRank (inherited ++ own) := by
  rw [← insertAll_byRank, Matcher.byRank_of_ranked h]

/-- A list of matchers as it is once `own` were added one after another to the `inherited` ones. -/
structure Accrued (inherited own ms : List Matcher) : Prop where
  made : ms = insertAll own inherited
  sorted : ms = Matcher.byRank (inherited ++ own)
  complete : ms.Perm (inherited ++ own)
  /-- The search for the place of each new matcher is made where it may be, and finds the place. -/
  inserted : ∀ front m back, own = front ++ m :: back →
    Partitioned (Matcher.notAbove · m) (insertAll front inherited) ∧
    m.insertByRank (insertAll front inherited) = (insertAll front inherited).insertIdx
      (Partition.point (Matcher.notAbove · m) (insertAll front inherited)) m

theorem accrued_insertAll {inherited : List Matcher} (h : Matcher.Ranked inherited)
    (own : List Matcher) : Accrued inherited own (insertAll own inherited) where
  made := rfl
  sorted := insertAll_eq_byRank h own
  complete := perm_insertAll own inherited
  inserted front m back _ := by
    have hp := (Matcher.ranked_byRank (inherited ++ front)).partitioned m
    rw [← insertAll_eq_byRank h front] at hp
    exact ⟨hp, Matcher.insertByRank_eq_insertIdx hp⟩

theorem Accrued.more {inherited own ms : List Matcher} (h : Accrued inherited own ms)
    (hi : Matcher.Ranked inherited) (added : List Matcher) :
    Accrued inherited (own ++ added) (insertAll added ms) := by
  rw [h.made, ← insertAll_append]
  exact accrued_insertAll hi (own ++ added)

end Settings

end HttpRouter
