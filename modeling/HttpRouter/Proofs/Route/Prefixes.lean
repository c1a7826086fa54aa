import HttpRouter.Proofs.Pattern.Beginning
import HttpRouter.Proofs.Pattern.Names
import HttpRouter.Proofs.Route.Judgement
import HttpRouter.Route.Build

set_option autoImplicit false

namespace HttpRouter

namespace Pattern

/-- The other pattern matches wherever this one does, and has no variables but those that every
match of this one gives a value. -/
structure Covers (q p : Pattern) : Prop where
  matching : ∀ text, (q.bindings? text).isSome = true → (p.bindings? text).isSome = true
  names : ∀ text bindings, p.bindings? text = some bindings → bindings.map Prod.fst ⊆ q.names

theorem covers_of_form {a b : Text} {p q : Pattern} {t u : Template} {strict : Bool}
    (hs : Text.endsWith a '/' = false) (hp : Form a .pathStart false p t)
    (hq : Form (a ++ b) .path strict q u) : q.Covers p where
  matching _ h := isSome_of_beginning hs hp hq h
  names text bindings hb := by
    rw [names_of_bindings? hp hb]
    exact names_of_beginning hp hq

end Pattern

namespace Matcher

def isBare : Matcher → Bool
  | schemes _ | headers _ | headerExpressions _ | custom _ | methods _ => true
  | host _ | path _ | pathStart _ | query _ => false

theorem rank_of_isBare {m : Matcher} (h : m.isBare = true) : m.rank < 2 ∨ 2 < m.rank := by
  cases m <;> simp [isBare, rank] at h ⊢

theorem mem_insertByRank {m other : Matcher} {ms : List Matcher} :
    other ∈ m.insertByRank ms ↔ other = m ∨ other ∈ ms := by
  induction ms with
  | nil => simp [insertByRank]
  | cons first rest ih =>
    simp only [insertByRank]
    split
    · rw [List.mem_cons, ih, List.mem_cons]
      exact or_left_comm
    · exact List.mem_cons

theorem insertByRank_append {m : Matcher} {front : List Matcher}
    (h : ∀ other ∈ front, other.rank ≤ m.rank) (back : List Matcher) :
    m.insertByRank (front ++ back) = front ++ m.insertByRank back := by
  induction front with
  | nil => rfl
  | cons first rest ih =>
    rw [List.cons_append, insertByRank, if_pos (h first List.mem_cons_self),
      ih fun other ho => h other (List.mem_cons_of_mem first ho)]
    rfl

theorem insertByRank_before {m other : Matcher} (h : m.rank < other.rank)
    (front back : List Matcher) :
    m.insertByRank (front ++ other :: back) = m.insertByRank front ++ other :: back := by
  induction front with
  | nil => simp [insertByRank, Nat.not_le.2 h]
  | cons first rest ih =>
    simp only [List.cons_append, insertByRank]
    split
    · rw [ih, List.cons_append]
    · rfl

end Matcher

namespace Settings

variable {request : Request}

theorem judge_append (front back : List Matcher) (vars : Vars) (wrong : Bool) :
    judge request (front ++ back) vars wrong
      = (judge request front vars wrong).bind fun (vars, wrong) =>
          judge request back vars wrong := by
  induction front generalizing vars wrong with
  | nil => rfl
  | cons m rest ih =>
    simp only [List.cons_append, judge]
    cases m.evaluate request vars with
    | matched vars => exact ih vars wrong
    | rejected => rfl
    | methodMismatch accepted => exact ih vars true

theorem judge_bare {ms : List Matcher} (h : ∀ m ∈ ms, m.isBare = true) {vars after : Vars}
    {wrong flag : Bool} (hj : judge request ms vars wrong = some (after, flag)) : after = vars := by
  induction ms generalizing vars wrong with
  | nil =>
    cases hj
    rfl
  | cons m rest ih =>
    have hr := fun other ho => h other (List.mem_cons_of_mem m ho)
    have hm : ∀ vars', m.evaluate request vars = .matched vars' → vars' = vars := by
      intro vars' he
      have hb := h m List.mem_cons_self
      cases m
      case host | path | pathStart | query => cases hb
      all_goals
        simp only [Matcher.evaluate, Matcher.ofBool] at he
        split at he
        · exact (Matcher.Verdict.matched.inj he).symm
        · cases he
    simp only [judge] at hj
    split at hj
    · rename_i vars' he
      rw [ih hr hj, hm vars' he]
    · cases hj
    · exact ih hr hj

/-- Prefixes that all match are passed, and nothing but their variables comes in. -/
theorem judge_prefixes {q : Pattern} {prefixes : List Pattern}
    (hp : ∀ p ∈ prefixes, q.Covers p) (hq : (q.bindings? request.path).isSome = true)
    {vars : Vars} (hv : vars.names ⊆ q.names) (wrong : Bool) :
    ∃ after, judge request (prefixes.map .pathStart) vars wrong = some (after, wrong) ∧
      after.names ⊆ q.names := by
  induction prefixes generalizing vars with
  | nil => exact ⟨vars, rfl, hv⟩
  | cons p rest ih =>
    have hc := hp p List.mem_cons_self
    obtain ⟨bindings, hb⟩ := Option.isSome_iff_exists.1 (hc.matching request.path hq)
    have hn : (vars.insertAll bindings).names ⊆ q.names := by
      intro name hm
      rcases Vars.mem_names_insertAll.1 hm with h | h
      · exact hc.names request.path bindings hb h
      · exact hv h
    simp only [List.map_cons, judge, Matcher.evaluate, Pattern.captures?_eq, hb, Option.map_some,
      Matcher.ofCaptures]
    exact ih (fun other ho => hp other (List.mem_cons_of_mem p ho)) hn

theorem judge_path (q : Pattern) (rest : List Matcher) (vars : Vars) (wrong : Bool) :
    judge request (.path q :: rest) vars wrong
      = (q.bindings? request.path).bind fun bindings =>
          judge request rest (vars.insertAll bindings) wrong := by
  simp only [judge, Matcher.evaluate, Pattern.captures?_eq]
  cases q.bindings? request.path <;> rfl

/-- Prefixes that the path of a route covers make no difference to it. -/
theorem judge_covered {q : Pattern} {prefixes : List Pattern} (hp : ∀ p ∈ prefixes, q.Covers p)
    (hq : ∀ text bindings, q.bindings? text = some bindings → bindings.map Prod.fst = q.names)
    (rest : List Matcher) (wrong : Bool) :
    judge request (prefixes.map .pathStart ++ .path q :: rest) .empty wrong
      = judge request (.path q :: rest) .empty wrong := by
  rw [judge_append]
  -- If the path does not match, it does not matter what the prefixes do.
  cases hb : q.bindings? request.path with
  | none =>
    rw [judge_path, hb, Option.bind_none]
    cases judge request (prefixes.map .pathStart) .empty wrong with
    | none => rfl
    | some judged =>
      obtain ⟨vars, flag⟩ := judged
      exact (judge_path q rest vars flag).trans (by rw [hb]; rfl)
  | some bindings =>
    have hs : (q.bindings? request.path).isSome = true := by rw [hb]; rfl
    have he : Vars.empty.names ⊆ q.names := List.nil_subset _
    obtain ⟨after, ha, hn⟩ := judge_prefixes hp hs he wrong
    rw [← hq request.path bindings hb] at hn
    rw [ha, judge_path, hb, Option.bind_some, Option.bind_some, ← Vars.insertAll_of_subset hn]
    exact (judge_path q rest after wrong).trans (by rw [hb]; rfl)

/-- The same settings, but with matchers for prefixes before that for the path. -/
structure Behind (prefixes : List Pattern) (q : Pattern) (s t : Settings) : Prop where
  path : s.path = some q
  compiler : s.compiler = .standard
  others : ∃ before after, (∀ m ∈ before, m.isBare = true ∧ m.rank < 2) ∧
    (∀ m ∈ after, m.isBare = true) ∧ s.matchers = before ++ .path q :: after ∧
    t = { s with matchers := before ++ (prefixes.map .pathStart ++ .path q :: after) }

namespace Behind

variable {prefixes : List Pattern} {q : Pattern} {s t : Settings}

theorem addMatcher (h : Behind prefixes q s t) {m : Matcher} (hm : m.isBare = true) :
    Behind prefixes q (s.addMatcher m) (t.addMatcher m) := by
  obtain ⟨hp, hc, before, after, hb, ha, hs, rfl⟩ := h
  refine ⟨hp, hc, ?_⟩
  unfold Settings.addMatcher
  rw [hs]
  rcases m.rank_of_isBare hm with hr | hr
  · -- A lower rank than that of paths comes before all of them.
    have hpath : m.rank < (Matcher.path q).rank := hr
    refine ⟨m.insertByRank before, after, ?_, ha, Matcher.insertByRank_before hpath _ _, ?_⟩
    · intro other ho
      rcases Matcher.mem_insertByRank.1 ho with rfl | ho
      · exact ⟨hm, hr⟩
      · exact hb other ho
    · cases prefixes with
      | nil =>
        rw [List.map_nil, List.nil_append, Matcher.insertByRank_before hpath]
      | cons p rest =>
        have hstart : m.rank < (Matcher.pathStart p).rank := hr
        rw [List.map_cons, List.cons_append, Matcher.insertByRank_before hstart]
  · -- A higher rank comes after all of them.
    have hle : ∀ other ∈ before, other.rank ≤ m.rank := fun other ho => by
      have := (hb other ho).2
      omega
    have hpath : (Matcher.path q).rank ≤ m.rank := Nat.le_of_lt hr
    have hstarts : ∀ other ∈ prefixes.map Matcher.pathStart, other.rank ≤ m.rank := by
      intro other ho
      obtain ⟨p, -, rfl⟩ := List.mem_map.1 ho
      exact Nat.le_of_lt hr
    have hins : m.insertByRank (.path q :: after) = .path q :: m.insertByRank after := by
      rw [Matcher.insertByRank, if_pos hpath]
    refine ⟨before, m.insertByRank after, hb, ?_, ?_, ?_⟩
    · intro other ho
      rcases Matcher.mem_insertByRank.1 ho with rfl | ho
      · exact hm
      · exact ha other ho
    · rw [Matcher.insertByRank_append hle, hins]
    · rw [Matcher.insertByRank_append hle, Matcher.insertByRank_append hstarts, hins]

theorem compiler_eq (h : Behind prefixes q s t) : t.compiler = .standard := by
  obtain ⟨-, hc, -, -, -, -, -, rfl⟩ := h
  exact hc

theorem judge_eq (h : Behind prefixes q s t) (hp : ∀ p ∈ prefixes, q.Covers p)
    (hq : ∀ text bindings, q.bindings? text = some bindings → bindings.map Prod.fst = q.names)
    (request : Request) :
    judge request t.matchers .empty false = judge request s.matchers .empty false := by
  obtain ⟨-, -, before, after, hb, -, hs, rfl⟩ := h
  rw [hs, judge_append, judge_append]
  cases hj : judge request before .empty false with
  | none => rfl
  | some judged =>
    obtain ⟨vars, wrong⟩ := judged
    obtain rfl := judge_bare (fun m hm => (hb m hm).1) hj
    exact judge_covered hp hq after wrong

theorem judge_eq_some (h : Behind prefixes q s t) {request : Request} {vars : Vars} {wrong : Bool}
    (hj : judge request s.matchers .empty false = some (vars, wrong)) :
    ∃ bindings, q.bindings? request.path = some bindings ∧
      vars = Vars.empty.insertAll bindings := by
  obtain ⟨-, -, before, after, hb, ha, hs, -⟩ := h
  rw [hs, judge_append, Option.bind_eq_some_iff] at hj
  obtain ⟨⟨first, flag⟩, hf, hj⟩ := hj
  obtain rfl := judge_bare (fun m hm => (hb m hm).1) hf
  simp only [judge_path, Option.bind_eq_some_iff] at hj
  obtain ⟨bindings, hq, hj⟩ := hj
  exact ⟨bindings, hq, judge_bare ha hj⟩

theorem methods?_eq (h : Behind prefixes q s t) : t.methods? = s.methods? := by
  obtain ⟨-, -, before, after, -, -, hs, rfl⟩ := h
  have hn : (prefixes.map Matcher.pathStart).filterMap Matcher.methods? = [] := by
    simp [List.filterMap_map, Matcher.methods?]
  unfold methods?
  simp [hs, hn, List.filterMap_append]

theorem path_eq (h : Behind prefixes q s t) : t.path = s.path := by
  obtain ⟨-, -, before, after, -, -, -, rfl⟩ := h
  rfl

end Behind
end Settings
end HttpRouter
