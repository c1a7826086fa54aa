import HttpRouter.Regex.Match

set_option autoImplicit false

namespace HttpRouter.Regex

namespace State

def erase (s : State) : State := { s with passed := [] }

@[simp]
theorem erase_erase (s : State) : s.erase.erase = s.erase := rfl

theorem step?_erase (s : State) (chars : CharSet) : s.erase.step? chars = s.step? chars := by
  unfold step? erase
  cases s.rest <;> rfl

def closed (s : State) : List Nat := s.groups.map Span.index

theorem closed_of_step? {s t : State} {chars : CharSet} (h : s.step? chars = some t) :
    t.closed = s.closed := by
  unfold step? at h
  split at h
  · cases h
  · split at h
    · cases h
      rfl
    · cases h

end State

/-- No choices, and no repetitions but of sets, each at least so many times. -/
def Straight (least : Nat) : Regex → Prop
  | empty | set _ | look _ => True
  | group _ r => r.Straight least
  | seq r t => r.Straight least ∧ t.Straight least
  | alt _ _ => False
  | rep count _ _ (set _) => least ≤ count
  | rep _ _ _ _ => False

theorem keepNew_map {f : State → State} (h : ∀ s, (f s).offset = s.offset) (seen : Offsets)
    (states : List State) :
    keepNew seen (states.map f) = ((keepNew seen states).1.map f, (keepNew seen states).2) := by
  induction states generalizing seen with
  | nil => rfl
  | cons s rest ih =>
    simp only [List.map_cons, keepNew, h]
    split
    · exact ih seen
    · rw [ih]
      rfl

theorem andThen_eq {states : List State} (h : ∀ s, states ≠ [s]) (next : State → List State) :
    andThen states next = (keepNew 0 (states.flatMap next)).1 := by
  cases states with
  | nil => rfl
  | cons s rest =>
    cases rest with
    | nil => exact absurd rfl (h s)
    | cons t more => exact gather_eq next 0 (s :: t :: more)

theorem flatMap_map_erase {f g : State → List State}
    (h : ∀ s, (f s).map State.erase = (g s.erase).map State.erase) (states : List State) :
    (states.flatMap f).map State.erase = ((states.map State.erase).flatMap g).map State.erase := by
  induction states with
  | nil => rfl
  | cons s rest ih => simp [List.map_append, h s, ih]

theorem andThen_map_erase {f g : State → List State}
    (h : ∀ s, (f s).map State.erase = (g s.erase).map State.erase) (states : List State) :
    (andThen states f).map State.erase = (andThen (states.map State.erase) g).map State.erase := by
  -- A single state is passed on without a comparison of offsets.
  by_cases hs : ∃ s, states = [s]
  · obtain ⟨s, rfl⟩ := hs
    exact h s
  · have hn : ∀ s, states ≠ [s] := fun s he => hs ⟨s, he⟩
    have hm : ∀ s, states.map State.erase ≠ [s] := by
      intro s he
      obtain ⟨t, ht, -⟩ := List.map_eq_singleton_iff.1 he
      exact hn t ht
    rw [andThen_eq hn, andThen_eq hm]
    have ho : ∀ s : State, s.erase.offset = s.offset := fun _ => rfl
    have hk := keepNew_map ho 0 (states.flatMap f)
    have hk' := keepNew_map ho 0 ((states.map State.erase).flatMap g)
    rw [← flatMap_map_erase h, hk] at hk'
    exact (Prod.mk.inj hk').1

theorem walk_map_erase (chars : CharSet) (limit : Nat) (s : State) :
    (walk chars limit s).map State.erase = (walk chars limit s.erase).map State.erase := by
  cases limit with
  | zero => rfl
  | succ limit => simp [walk, State.step?_erase]

theorem zipIdx_map_erase (leave : State × Nat → State)
    (h : ∀ t more, (leave (t, more)).erase = t.erase) (states : List State) :
    (states.zipIdx.map leave).map State.erase = states.map State.erase := by
  have hc : State.erase ∘ leave = State.erase ∘ Prod.fst := by
    funext ⟨t, more⟩
    exact h t more
  rw [List.map_map, hc, ← List.map_map, List.zipIdx_map_fst]

theorem runSet_map_erase {chars : CharSet} {address : Address} {least : Nat} (most : Option Nat)
    (greedy : Bool) {s : State} (h : ¬ (least = 0 ∧ s.passed.contains (address.exit 0) = true)) :
    (runSet chars address least most greedy s).map State.erase =
      let states := ((walk chars (most.getD s.rest.length) s).drop least).map State.erase
      if greedy then states.reverse else states := by
  rw [runSet, if_neg h]
  cases greedy with
  | false =>
    refine zipIdx_map_erase _ (fun t more => ?_) _
    cases most with
    | none => rfl
    | some most =>
      simp only
      split <;> rfl
  | true =>
    refine (List.map_reverse ..).trans (congrArg List.reverse ?_)
    refine zipIdx_map_erase _ (fun t more => ?_) _
    cases most with
    | none => rfl
    | some most =>
      simp only
      split <;> rfl

/-- Choices passed before a straight expression and its address leave no trace but in the record of
choices. -/
theorem run_map_erase {r : Regex} (h : r.Straight 1) (a b : Address) (s : State) :
    (r.run a s).map State.erase = (r.run b s.erase).map State.erase := by
  -- The address of the parts changes from case to case, so both addresses are general.
  induction r generalizing a b s with
  | empty => rfl
  | set chars => rw [run, run, State.step?_erase]
  | look l =>
    have hl : l.holds s.erase = l.holds s := by cases l <;> rfl
    simp only [run, hl]
    split <;> rfl
  | group index r ih =>
    have hc : State.erase ∘ State.close index s.offset
        = State.close index s.offset ∘ State.erase := rfl
    have ho : s.erase.offset = s.offset := rfl
    rw [run, run, List.map_map, List.map_map, ho, hc, ← List.map_map, ← List.map_map, ih h a b]
  | seq r t ihr iht =>
    obtain ⟨hr, ht⟩ := h
    have next : ∀ c : Address, ∀ s,
        (t.run c s).map State.erase = (t.run (1 :: b) s.erase).map State.erase :=
      fun c s => iht ht c (1 :: b) s
    rw [run, run, andThen_map_erase (next (1 :: a)), ihr hr (0 :: a) (0 :: b)]
    exact (andThen_map_erase (next (1 :: b)) _).symm
  | alt r t => exact h.elim
  | rep least most greedy r =>
    cases r with
    | set chars =>
      have hl : least ≠ 0 := Nat.ne_of_gt h
      have hw := walk_map_erase chars (most.getD s.rest.length) s
      rw [run, run, runSet_map_erase most greedy (fun he => hl he.1),
        runSet_map_erase most greedy (fun he => hl he.1), List.map_drop, List.map_drop, hw]
      rfl
    | _ => exact h.elim

theorem run_ne_nil {r : Regex} (h : r.Straight 1) {a : Address} (b : Address) {s : State}
    (hr : r.run a s ≠ []) : r.run b s ≠ [] := by
  intro hb
  have he := (run_map_erase h a b s).trans (run_map_erase h b b s).symm
  rw [hb, List.map_nil, List.map_eq_nil_iff] at he
  exact hr he

theorem foldl_seq_ne_nil (r : Regex) (rest : List Regex) {a : Address} {s : State}
    (h : (rest.foldl seq r).run a s ≠ []) : ∃ b, r.run b s ≠ [] := by
  induction rest generalizing r a with
  | nil => exact ⟨a, h⟩
  | cons t rest ih =>
    obtain ⟨b, hb⟩ := ih (seq r t) h
    refine ⟨0 :: b, fun hn => hb ?_⟩
    rw [run, hn]
    rfl

theorem run_sequence_ne_nil {first : Regex} {front back : List Regex}
    (hf : (sequence (first :: front)).Straight 1) {a : Address} (b : Address) {s : State}
    (h : (sequence (first :: front ++ back)).run a s ≠ []) :
    (sequence (first :: front)).run b s ≠ [] := by
  rw [List.cons_append, sequence, List.foldl_append] at h
  obtain ⟨c, hc⟩ := foldl_seq_ne_nil _ back h
  exact run_ne_nil hf b hc

theorem search_isSome {r t : Regex} (h : ∀ s, r.run [] s ≠ [] → t.run [] s ≠ []) (offset : Nat)
    (before : Option Char) (text : Text) (hr : (r.search offset before text).isSome = true) :
    (t.search offset before text).isSome = true := by
  induction text generalizing offset before with
  | nil =>
    rw [search, List.isSome_head?] at hr ⊢
    exact h _ hr
  | cons c rest ih =>
    simp only [search, Option.orElse_eq_orElse, Option.orElse_eq_or, Option.isSome_or,
      Bool.or_eq_true, List.isSome_head?] at hr ⊢
    exact hr.imp (h _) (ih _ _)

theorem mem_run_of_search {r : Regex} {offset : Nat} {before : Option Char} {text : Text}
    {t : State} (h : r.search offset before text = some t) : ∃ s, t ∈ r.run [] s := by
  induction text generalizing offset before with
  | nil => exact ⟨_, List.mem_of_head? h⟩
  | cons c rest ih =>
    simp only [search, Option.orElse_eq_orElse, Option.orElse_eq_or, Option.or_eq_some_iff] at h
    rcases h with h | ⟨-, h⟩
    · exact ⟨_, List.mem_of_head? h⟩
    · exact ih h

def indices : Regex → List Nat
  | empty | set _ | look _ => []
  | group index r => index :: r.indices
  | seq r t | alt r t => r.indices ++ t.indices
  | rep _ _ _ r => r.indices

theorem mem_keepNew {seen : Offsets} {states : List State} {t : State}
    (h : t ∈ (keepNew seen states).1) : t ∈ states := by
  induction states generalizing seen with
  | nil => exact h
  | cons s rest ih =>
    simp only [keepNew] at h
    split at h
    · exact List.mem_cons_of_mem s (ih h)
    · rcases List.mem_cons.1 h with rfl | h
      · exact List.mem_cons_self
      · exact List.mem_cons_of_mem s (ih h)

theorem mem_andThen {states : List State} {next : State → List State} {t : State}
    (h : t ∈ andThen states next) : ∃ s ∈ states, t ∈ next s := by
  by_cases hs : ∃ s, states = [s]
  · obtain ⟨s, rfl⟩ := hs
    exact ⟨s, List.mem_singleton_self s, h⟩
  · rw [andThen_eq fun s he => hs ⟨s, he⟩] at h
    exact List.mem_flatMap.1 (mem_keepNew h)

theorem closed_of_mem_walk {chars : CharSet} {limit : Nat} {s t : State}
    (h : t ∈ walk chars limit s) : t.closed = s.closed := by
  induction limit generalizing s with
  | zero => rw [List.mem_singleton.1 h]
  | succ limit ih =>
    rcases List.mem_cons.1 h with rfl | h
    · rfl
    · cases hs : s.step? chars with
      | none => simp [hs] at h
      | some u =>
        rw [hs] at h
        rw [ih h, State.closed_of_step? hs]

theorem closed_of_mem_runSet {chars : CharSet} {address : Address} {least : Nat}
    {most : Option Nat} {greedy : Bool} {s t : State}
    (h : t ∈ runSet chars address least most greedy s) : t.closed = s.closed := by
  by_cases hp : least = 0 ∧ s.passed.contains (address.exit 0) = true
  · rw [runSet, if_pos hp] at h
    cases h
  · have he : t.erase ∈ ((walk chars (most.getD s.rest.length) s).drop least).map State.erase := by
      have hm : t.erase ∈ (runSet chars address least most greedy s).map State.erase :=
        List.mem_map_of_mem h
      rw [runSet_map_erase most greedy hp] at hm
      cases greedy with
      | false => exact hm
      | true => exact List.mem_reverse.1 hm
    obtain ⟨u, hu, ht⟩ := List.mem_map.1 he
    have hc : u.erase.closed = t.erase.closed := congrArg State.closed ht
    exact Eq.trans hc.symm (closed_of_mem_walk (List.mem_of_mem_drop hu) : u.closed = s.closed)

/-- A match keeps the groups closed before it and closes all its own. -/
theorem closed_of_mem_run {r : Regex} (h : r.Straight 0) {a : Address} {s t : State}
    (ht : t ∈ r.run a s) : ∀ i ∈ r.indices ++ s.closed, i ∈ t.closed := by
  induction r generalizing a s t with
  | empty => cases List.mem_singleton.1 ht; simp [indices]
  | set chars =>
    simp [indices, State.closed_of_step? (Option.mem_toList.1 ht)]
  | look l =>
    simp only [run] at ht
    split at ht
    · cases List.mem_singleton.1 ht
      simp [indices]
    · cases ht
  | group index r ih =>
    obtain ⟨u, hu, rfl⟩ := List.mem_map.1 ht
    have hc := ih h hu
    intro i hi
    have he : (u.close index s.offset).closed = index :: u.closed := rfl
    rw [he]
    rcases List.mem_cons.1 hi with rfl | hi
    · exact List.mem_cons_self
    · exact List.mem_cons_of_mem index (hc i hi)
  | seq r t ihr iht =>
    obtain ⟨u, hu, ht⟩ := mem_andThen ht
    intro i hi
    apply iht h.2 ht
    simp only [indices, List.mem_append] at hi ⊢
    rcases hi with (hi | hi) | hi
    · exact .inr (ihr h.1 hu i (List.mem_append_left _ hi))
    · exact .inl hi
    · exact .inr (ihr h.1 hu i (List.mem_append_right _ hi))
  | alt r t => exact h.elim
  | rep least most greedy r =>
    cases r with
    | set chars => simp [indices, closed_of_mem_runSet ht]
    | _ => exact h.elim

end HttpRouter.Regex
