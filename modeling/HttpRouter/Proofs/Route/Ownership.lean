import HttpRouter.Proofs.Route.Moves
import HttpRouter.Proofs.Route.Prefixes

set_option autoImplicit false

/-!
# Owners of variables

The current patterns of a route are its path, its host and its queries.  Matchers of patterns that
these took the place of stay, but whatever comes after the matcher of a current pattern has none of
its variables: the current patterns share none, a path has all variables of the paths before it, and
matchers of a replaced host come before everything else that captures.  A judgement therefore gives
the variables of a current pattern the values that this pattern captures.
-/
namespace HttpRouter

namespace Pattern

def matcher (p : Pattern) : Matcher :=
  match p.kind with
  | .path => .path p
  | .pathStart => .pathStart p
  | .host => .host p
  | .query => .query p

def reading (p : Pattern) (request : Request) : Text :=
  match p.kind with
  | .path | .pathStart => request.path
  | .host => request.hostName
  | .query => Matcher.queryText p request

def Kind.rank : Kind → Nat
  | .host => 1
  | .path | .pathStart => 2
  | .query => 4

theorem rank_matcher (p : Pattern) : p.matcher.rank = p.kind.rank := by
  unfold matcher
  cases p.kind <;> rfl

theorem eq_of_matcher {p q : Pattern} (h : p.matcher = .query q) : p.kind = .query ∧ q = p := by
  unfold matcher at h
  split at h
  all_goals cases h
  exact ⟨‹_›, rfl⟩

theorem evaluate_matcher (p : Pattern) (request : Request) (vars : Vars) :
    p.matcher.evaluate request vars
      = Matcher.ofCaptures ((p.bindings? (p.reading request)).map vars.insertAll) := by
  unfold matcher reading
  cases p.kind <;> rfl

end Pattern

namespace Matcher

def names : Matcher → List Text
  | host p | path p | pathStart p | query p => p.names
  | schemes _ | headers _ | headerExpressions _ | custom _ | methods _ => []

theorem names_matcher (p : Pattern) : p.matcher.names = p.names := by
  unfold Pattern.matcher
  cases p.kind <;> rfl

theorem names_of_isBare {m : Matcher} (h : m.isBare = true) : m.names = [] := by
  cases m <;> first | rfl | cases h

theorem evaluate_keeps {m : Matcher} {request : Request} {vars after : Vars} {name : Text}
    (h : m.evaluate request vars = .matched after) (hn : name ∉ m.names) :
    after.get? name = vars.get? name := by
  have captured : ∀ (p : Pattern) (text : Text), name ∉ p.names →
      ofCaptures (p.captures? text vars) = .matched after →
      after.get? name = vars.get? name := by
    intro p text hp hc
    rw [Pattern.captures?_eq] at hc
    cases hb : p.bindings? text with
    | none =>
      rw [hb] at hc
      cases hc
    | some bindings =>
      rw [hb] at hc
      cases hc
      exact Vars.get?_insertAll_of_not_mem fun hm =>
        hp ((Pattern.sublist_of_bindings? hb).subset hm)
  have passed : ∀ holds : Bool, ofBool vars holds = .matched after →
      after.get? name = vars.get? name := by
    intro holds hb
    cases holds with
    | false => cases hb
    | true =>
      cases hb
      rfl
  cases m with
  | host p | path p | pathStart p | query p => exact captured p _ hn h
  | schemes | headers | headerExpressions | custom => exact passed _ h
  | methods accepted =>
    simp only [evaluate] at h
    split at h
    · cases h
      rfl
    · cases h

theorem insertByRank_split (m x : Matcher) (front back : List Matcher) :
    m.insertByRank (front ++ x :: back) = m.insertByRank front ++ x :: back ∨
      x.rank ≤ m.rank ∧
        m.insertByRank (front ++ x :: back) = front ++ x :: m.insertByRank back := by
  induction front with
  | nil =>
    simp only [List.nil_append, insertByRank]
    split
    · exact .inr ⟨‹_›, rfl⟩
    · exact .inl rfl
  | cons first rest ih =>
    simp only [List.cons_append, insertByRank]
    split
    · rcases ih with h | ⟨hr, h⟩
      · exact .inl (by rw [h, List.cons_append])
      · exact .inr ⟨hr, by rw [h]⟩
    · exact .inl rfl

/-- In a list that is sorted, what stands behind the place of a matcher has a higher rank. -/
theorem insertByRank_sorted {m : Matcher} {ms : List Matcher}
    (h : ms.Pairwise fun first later => first.rank ≤ later.rank) :
    ∃ front back, m.insertByRank ms = front ++ m :: back ∧ (∀ x ∈ back, x ∈ ms ∧ m.rank < x.rank) ∧
      (m.insertByRank ms).Pairwise fun first later => first.rank ≤ later.rank := by
  induction ms with
  | nil => exact ⟨[], [], rfl, nofun, List.pairwise_singleton _ m⟩
  | cons first rest ih =>
    obtain ⟨hfirst, hrest⟩ := List.pairwise_cons.1 h
    simp only [insertByRank]
    split
    · rename_i hr
      obtain ⟨front, back, he, hb, hp⟩ := ih hrest
      refine ⟨first :: front, back, by rw [he]; rfl, fun x hx => ?_, ?_⟩
      · exact ⟨List.mem_cons_of_mem first (hb x hx).1, (hb x hx).2⟩
      · refine List.pairwise_cons.2 ⟨fun x hx => ?_, hp⟩
        rcases mem_insertByRank.1 hx with rfl | hx
        · exact hr
        · exact hfirst x hx
    · rename_i hr
      have hlt : ∀ x ∈ first :: rest, m.rank < x.rank := by
        intro x hx
        rcases List.mem_cons.1 hx with rfl | hx
        · exact Nat.lt_of_not_le hr
        · exact Nat.lt_of_lt_of_le (Nat.lt_of_not_le hr) (hfirst x hx)
      exact ⟨[], first :: rest, rfl, fun x hx => ⟨hx, hlt x hx⟩,
        List.pairwise_cons.2 ⟨fun x hx => Nat.le_of_lt (hlt x hx), h⟩⟩

end Matcher

namespace Settings

def patterns (s : Settings) : List Pattern := s.queries ++ s.host.toList ++ s.path.toList

theorem judge_keeps {request : Request} {ms : List Matcher} {vars after : Vars}
    {wrong flag : Bool} {name : Text} (h : judge request ms vars wrong = some (after, flag))
    (hn : ∀ m ∈ ms, name ∉ m.names) : after.get? name = vars.get? name := by
  induction ms generalizing vars wrong with
  | nil =>
    cases h
    rfl
  | cons m rest ih =>
    have hr := fun other ho => hn other (List.mem_cons_of_mem m ho)
    simp only [judge] at h
    split at h
    · rename_i next he
      rw [ih h hr, Matcher.evaluate_keeps he (hn m List.mem_cons_self)]
    · cases h
    · exact ih h hr

/-- No matcher behind that of the pattern has a variable of it. -/
def Owns (s : Settings) (p : Pattern) : Prop :=
  ∃ front back, s.matchers = front ++ p.matcher :: back ∧
    ∀ m ∈ back, ∀ name ∈ p.names, name ∉ m.names

theorem Owns.judge {s : Settings} {p : Pattern} (h : s.Owns p) (hd : p.names.Nodup)
    {request : Request} {vars after : Vars} {wrong flag : Bool}
    (hj : judge request s.matchers vars wrong = some (after, flag)) :
    ∃ bindings, p.bindings? (p.reading request) = some bindings ∧
      ∀ name value, (name, value) ∈ bindings → after.get? name = some value := by
  obtain ⟨front, back, hm, hb⟩ := h
  rw [hm, judge_append, Option.bind_eq_some_iff] at hj
  obtain ⟨⟨first, wrong'⟩, -, hj⟩ := hj
  simp only [Settings.judge, Pattern.evaluate_matcher] at hj
  cases hp : p.bindings? (p.reading request) with
  | none =>
    rw [hp] at hj
    cases hj
  | some bindings =>
    rw [hp] at hj
    refine ⟨bindings, rfl, fun name value hmem => ?_⟩
    have hs := Pattern.sublist_of_bindings? hp
    have hname : name ∈ p.names := hs.subset (List.mem_map_of_mem hmem)
    rw [judge_keeps hj fun m hm => hb m hm name hname]
    exact Vars.get?_insertAll_of_mem (hd.sublist hs) hmem

theorem distinct_of_checkRivals {p : Pattern} {rivals : List Pattern}
    (h : checkRivals p rivals = .ok ()) :
    ∀ q ∈ rivals, ∀ name ∈ p.names, name ∉ q.names := by
  induction rivals with
  | nil => exact nofun
  | cons first rest ih =>
    rw [checkRivals, distinctFrom] at h
    cases hf : p.names.find? first.names.contains with
    | some name =>
      rw [hf] at h
      cases h
    | none =>
      rw [hf] at h
      intro q hq
      rcases List.mem_cons.1 hq with rfl | hq
      · simpa using List.find?_eq_none.1 hf
      · exact ih h q hq

theorem adopt_matchers_eq (s : Settings) (p : Pattern) :
    (s.adopt p).matchers = p.matcher.insertByRank s.matchers := by
  unfold adopt Pattern.matcher
  cases p.kind <;> rfl

theorem adopt_host (s : Settings) (p : Pattern) :
    (s.adopt p).host = if p.kind = .host then some p else s.host := by
  unfold adopt
  cases p.kind <;> rfl

theorem adopt_path (s : Settings) (p : Pattern) :
    (s.adopt p).path = if p.kind.rank = 2 then some p else s.path := by
  unfold adopt
  cases p.kind <;> rfl

theorem adopt_queries (s : Settings) (p : Pattern) :
    (s.adopt p).queries = if p.kind = .query then s.queries ++ [p] else s.queries := by
  unfold adopt
  cases p.kind <;> rfl

/-- The rivals of a new pattern are the patterns that stay current beside it. -/
theorem mem_patterns_adopt {s : Settings} {p q : Pattern} :
    q ∈ (s.adopt p).patterns ↔ q = p ∨ q ∈ s.rivals p.kind := by
  rw [patterns, adopt_host, adopt_path, adopt_queries]
  unfold rivals
  cases p.kind <;> simp [Pattern.Kind.rank, or_left_comm, or_comm]

theorem mem_patterns_of_mem_rivals {s : Settings} {kind : Pattern.Kind} {q : Pattern}
    (h : q ∈ s.rivals kind) : q ∈ s.patterns := by
  unfold rivals at h
  simp only [patterns, List.mem_append]
  cases kind with
  | host =>
    rcases List.mem_append.1 h with h | h
    · exact .inl (.inl h)
    · exact .inr h
  | query => simpa only [List.mem_append] using h
  | path | pathStart => exact .inl (List.mem_append.1 h)

structure Owned (s : Settings) : Prop where
  labelled : ∀ p ∈ s.patterns, p.Labelled
  host : ∀ p, s.host = some p → p.kind = .host
  path : ∀ p, s.path = some p → p.kind.rank = 2
  query : ∀ p ∈ s.queries, p.kind = .query
  sorted : s.matchers.Pairwise fun first later => first.rank ≤ later.rank
  paths : ∀ m ∈ s.matchers, m.rank = 2 → ∃ p, s.path = some p ∧ m.names ⊆ p.names
  queries : ∀ p, .query p ∈ s.matchers → p ∈ s.queries
  owns : ∀ p ∈ s.patterns, s.Owns p

/-- A path goes on where the path before it ends. -/
theorem template_of_fullTemplate {s : Settings} {template full : Text} {kind : Pattern.Kind}
    {old : Pattern} (h : s.fullTemplate template kind = .ok full) (hk : kind.rank = 2)
    (hp : s.path = some old) : full = Text.trimEnd '/' old.template ++ template := by
  have hx : s.extend template = Text.trimEnd '/' old.template ++ template := by rw [extend, hp]
  rw [← hx]
  unfold fullTemplate at h
  cases kind with
  | host => cases hk
  | query => cases hk
  | path | pathStart =>
    simp only at h
    split at h
    · exact (Except.ok.inj h).symm
    · cases h

theorem Owns.insert {s t : Settings} {p : Pattern} (h : s.Owns p) {m : Matcher}
    (ht : t.matchers = m.insertByRank s.matchers) (hm : ∀ name ∈ p.names, name ∉ m.names) :
    t.Owns p := by
  obtain ⟨front, back, hs, hb⟩ := h
  rw [hs] at ht
  rcases m.insertByRank_split p.matcher front back with he | ⟨-, he⟩
  · exact ⟨m.insertByRank front, back, ht.trans he, hb⟩
  · refine ⟨front, m.insertByRank back, ht.trans he, fun other ho => ?_⟩
    rcases Matcher.mem_insertByRank.1 ho with rfl | ho
    · exact hm
    · exact hb other ho

namespace Owned

variable {s : Settings}

theorem initial : Settings.initial.Owned :=
  ⟨nofun, nofun, nofun, nofun, .nil, nofun, nofun, nofun⟩

theorem addMatcher (h : s.Owned) {m : Matcher} (hm : m.isBare = true) :
    (s.addMatcher m).Owned where
  labelled := h.labelled
  host := h.host
  path := h.path
  query := h.query
  sorted := by
    obtain ⟨-, -, -, -, hs⟩ := Matcher.insertByRank_sorted (m := m) h.sorted
    exact hs
  paths other ho hr := by
    rcases Matcher.mem_insertByRank.1 ho with rfl | ho
    · have := Matcher.rank_of_isBare hm
      omega
    · exact h.paths other ho hr
  queries p hp := by
    rcases Matcher.mem_insertByRank.1 hp with rfl | hp
    · cases hm
    · exact h.queries p hp
  owns p hp := by
    refine (h.owns p hp).insert rfl fun name _ => ?_
    rw [Matcher.names_of_isBare hm]
    exact List.not_mem_nil

/-- Matchers of higher ranks have no variable of a pattern that is distinct from its rivals. -/
theorem distinct_later (h : s.Owned) {p : Pattern}
    (hd : ∀ q ∈ s.rivals p.kind, ∀ name ∈ p.names, name ∉ q.names) {m : Matcher}
    (hm : m ∈ s.matchers) (hr : p.kind.rank < m.rank) : ∀ name ∈ p.names, name ∉ m.names := by
  have paths : m.rank = 2 → ∀ name ∈ p.names, name ∉ m.names := by
    intro hm2 name hn hc
    obtain ⟨current, hcurrent, hsub⟩ := h.paths m hm hm2
    refine hd current ?_ name hn (hsub hc)
    rw [hm2] at hr
    revert hr
    unfold rivals
    cases p.kind <;> simp [Pattern.Kind.rank, hcurrent]
  cases m with
  | path q => exact paths rfl
  | pathStart q => exact paths rfl
  | query q =>
    refine hd q ?_
    have hq := h.queries q hm
    unfold rivals
    cases p.kind <;> simp [hq]
  | host q =>
    revert hr
    cases p.kind <;> simp [Pattern.Kind.rank, Matcher.rank]
  | schemes | headers | headerExpressions | custom | methods => exact fun _ _ => List.not_mem_nil

theorem mem_adopt {p : Pattern} {m : Matcher} :
    m ∈ (s.adopt p).matchers ↔ m = p.matcher ∨ m ∈ s.matchers := by
  rw [adopt_matchers_eq]
  exact Matcher.mem_insertByRank

/-- The path that counts has the variables of all matchers of paths, of which it was the last. -/
theorem paths_adopt (h : s.Owned) {p : Pattern}
    (hpath : p.kind.rank = 2 → ∀ old, s.path = some old → old.names ⊆ p.names) :
    ∀ m ∈ (s.adopt p).matchers, m.rank = 2 →
      ∃ q, (s.adopt p).path = some q ∧ m.names ⊆ q.names := by
  intro m hm hr
  rw [adopt_path]
  by_cases hk : p.kind.rank = 2
  · refine ⟨p, if_pos hk, ?_⟩
    rcases mem_adopt.1 hm with rfl | hm
    · rw [Matcher.names_matcher]
      exact List.Subset.refl _
    · obtain ⟨old, ho, hsub⟩ := h.paths m hm hr
      exact List.Subset.trans hsub (hpath hk old ho)
  · rw [if_neg hk]
    rcases mem_adopt.1 hm with rfl | hm
    · exact absurd ((Pattern.rank_matcher p).symm.trans hr) hk
    · exact h.paths m hm hr

/-- A new pattern owns its variables, and takes none from the patterns that stay current. -/
theorem owns_adopt (h : s.Owned) {p : Pattern}
    (hd : ∀ q ∈ s.rivals p.kind, ∀ name ∈ p.names, name ∉ q.names) :
    ∀ q ∈ (s.adopt p).patterns, (s.adopt p).Owns q := by
  have hm := adopt_matchers_eq s p
  obtain ⟨front, back, he, hb, -⟩ := Matcher.insertByRank_sorted (m := p.matcher) h.sorted
  intro q hq
  rcases mem_patterns_adopt.1 hq with rfl | hq
  · refine ⟨front, back, hm.trans he, fun m hmb => ?_⟩
    have hlt := (hb m hmb).2
    rw [Pattern.rank_matcher] at hlt
    exact h.distinct_later hd (hb m hmb).1 hlt
  · refine (h.owns q (mem_patterns_of_mem_rivals hq)).insert hm fun name hn hc => ?_
    rw [Matcher.names_matcher] at hc
    exact hd q hq name hc hn

theorem adopt (h : s.Owned) {p : Pattern} (hl : p.Labelled)
    (hr : checkRivals p (s.rivals p.kind) = .ok ())
    (hpath : p.kind.rank = 2 → ∀ old, s.path = some old → old.names ⊆ p.names) :
    (s.adopt p).Owned where
  labelled q hq := by
    rcases mem_patterns_adopt.1 hq with rfl | hq
    · exact hl
    · exact h.labelled q (mem_patterns_of_mem_rivals hq)
  host q hq := by
    rw [adopt_host] at hq
    split at hq
    · cases hq
      assumption
    · exact h.host q hq
  path q hq := by
    rw [adopt_path] at hq
    split at hq
    · cases hq
      assumption
    · exact h.path q hq
  query q hq := by
    rw [adopt_queries] at hq
    split at hq
    · rcases List.mem_append.1 hq with hq | hq
      · exact h.query q hq
      · rwa [List.mem_singleton.1 hq]
    · exact h.query q hq
  sorted := by
    obtain ⟨-, -, -, -, hs⟩ := Matcher.insertByRank_sorted (m := p.matcher) h.sorted
    exact adopt_matchers_eq s p ▸ hs
  paths := h.paths_adopt hpath
  queries q hq := by
    rw [adopt_queries]
    rcases mem_adopt.1 hq with hq | hq
    · obtain ⟨hk, rfl⟩ := Pattern.eq_of_matcher hq.symm
      rw [if_pos hk]
      exact List.mem_concat_self
    · split
      · exact List.mem_append_left _ (h.queries q hq)
      · exact h.queries q hq
  owns := h.owns_adopt (distinct_of_checkRivals hr)

end Owned

/-- Whatever a step moves, the current patterns own their variables. -/
theorem Move.owned {s t : Settings} {w w' : Workshop}
    (h : Move (·.isBare = true) (fun _ => True) s w t w') (hs : s.Owned) : t.Owned := by
  cases h with
  | matcher hm => exact hs.addMatcher hm
  | pattern _ h =>
    obtain ⟨full, p, hfull, hp, hr, rfl⟩ := exists_of_addPattern h
    obtain ⟨rfl, rfl, hl⟩ := Pattern.labelled_of_compile hp
    refine hs.adopt hl hr fun hk old hold => ?_
    obtain ⟨t, ht, htn, -⟩ := hs.labelled old (by simp [patterns, hold])
    obtain ⟨u, hu, hun, -⟩ := hl
    rw [template_of_fullTemplate hfull hk hold] at hu
    rw [htn, hun]
    exact Template.labels_of_trimEnd ht hu
  | refused h => exact hs
  | compile source => exact hs

theorem Moves.owned {s t : Settings} {w w' : Workshop}
    (h : Moves (·.isBare = true) (fun _ => True) s w t w') (hs : s.Owned) : t.Owned := by
  induction h with
  | refl => exact hs
  | more h _ ih => exact ih (h.owned hs)

def readings (s : Settings) (request : Request) : List (Pattern × Text) :=
  s.path.toList.map (·, request.path) ++ s.host.toList.map (·, request.hostName)
    ++ s.queries.map fun p => (p, Matcher.queryText p request)

theorem Owned.readings {s : Settings} (h : s.Owned) {request : Request} {p : Pattern}
    {text : Text} (hp : (p, text) ∈ s.readings request) :
    p ∈ s.patterns ∧ text = p.reading request := by
  simp only [Settings.readings, List.mem_append, List.mem_map, Option.mem_toList,
    Prod.mk.injEq] at hp
  simp only [patterns, List.mem_append, Option.mem_toList]
  unfold Pattern.reading
  rcases hp with (⟨q, hq, rfl, rfl⟩ | ⟨q, hq, rfl, rfl⟩) | ⟨q, hq, rfl, rfl⟩
  · have hk := h.path q hq
    refine ⟨.inr hq, ?_⟩
    revert hk
    cases q.kind <;> simp [Pattern.Kind.rank]
  · rw [h.host q hq]
    exact ⟨.inl (.inr hq), rfl⟩
  · rw [h.query q hq]
    exact ⟨.inl (.inl hq), rfl⟩

/-- A judgement gives the variables of a current pattern what that pattern captures. -/
theorem Owned.judge {s : Settings} (h : s.Owned) {request : Request} {vars after : Vars}
    {wrong flag : Bool} (hj : Settings.judge request s.matchers vars wrong = some (after, flag))
    {p : Pattern} {text : Text} (hp : (p, text) ∈ s.readings request) :
    ∃ bindings, p.bindings? text = some bindings ∧
      ∀ name value, (name, value) ∈ bindings → after.get? name = some value := by
  obtain ⟨hm, rfl⟩ := h.readings hp
  obtain ⟨-, -, -, hd⟩ := h.labelled p hm
  exact (h.owns p hm).judge hd hj

end Settings

theorem RouteStep.within_bare (step : RouteStep) :
    step.Within (·.isBare = true) fun _ => True := by
  cases step with
  | headers | headerExpressions => exact fun _ => rfl
  | path | pathStart | host | queries => trivial
  | methods | schemes | custom => rfl
  | handler | name | buildOnly | metadata | use => trivial

theorem Route.apply_owned (step : RouteStep) {route : Route} (h : route.settings.Owned)
    (w : Workshop) : (Route.apply step route w).1.2.settings.Owned :=
  (Route.apply_configured step.within_bare route w).moves.owned h

end HttpRouter
