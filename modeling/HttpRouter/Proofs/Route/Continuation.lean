import HttpRouter.Proofs.Route.Ranks
import Mathlib.Data.List.Chain

set_option autoImplicit false

namespace HttpRouter

namespace Text

def Rooted (text : Text) : Prop := text = [] ∨ ∃ rest, text = '/' :: rest

theorem rooted_iff {text : Text} :
    text.Rooted ↔ (text.isEmpty || startsWith text ['/']) = true := by
  cases text with
  | nil => simp [Rooted]
  | cons c rest =>
    simp only [Rooted, startsWith, List.isPrefixOf, List.isEmpty_cons, Bool.false_or, Bool.and_true,
      beq_iff_eq, reduceCtorEq, false_or, List.cons.injEq, exists_and_left, exists_eq', and_true]
    exact eq_comm

def continued (before : Text) : List Text → List Text
  | [] => []
  | text :: rest =>
    (trimEnd '/' before ++ text) :: continued (trimEnd '/' before ++ text) rest

theorem continued_concat (before : Text) (texts : List Text) (text : Text) :
    continued before (texts ++ [text]) = continued before texts
      ++ [trimEnd '/' ((continued before texts).getLast?.getD before) ++ text] := by
  induction texts generalizing before with
  | nil => rfl
  | cons first rest ih =>
    rw [List.cons_append, continued, ih, continued, List.getLast?_cons]
    rfl

theorem Rooted.continue {before text : Text} (hb : before.Rooted) (ht : text.Rooted) :
    Rooted (trimEnd '/' before ++ text) := by
  obtain ⟨slashes, -, hs⟩ := exists_trimEnd '/' before
  cases htrim : trimEnd '/' before with
  | nil => exact ht
  | cons c front =>
    rw [htrim] at hs
    rcases hb with rfl | ⟨rest, rfl⟩
    · cases hs
    · cases hs
      exact .inr ⟨_, rfl⟩

end Text

namespace Matcher

theorem rank_of_path? {m : Matcher} {p : Pattern} (h : m.path? = some p) : m.rank = 2 := by
  cases m <;> first | rfl | cases h

/-- Among the matchers of paths, a new one is the last. -/
theorem paths_insertByRank (m : Matcher) {ms : List Matcher} (h : Ranked ms) :
    (m.insertByRank ms).filterMap path? = ms.filterMap path? ++ m.path?.toList := by
  obtain ⟨front, back, rfl, hf, hb⟩ := h.partitioned m
  rw [insertByRank_eq hf hb, List.filterMap_append, List.filterMap_append]
  cases hm : m.path? with
  | none => rw [List.filterMap_cons_none hm, Option.toList_none, List.append_nil]
  | some p =>
    have hback : back.filterMap path? = [] := by
      refine List.filterMap_eq_nil_iff.2 fun x hx => Option.eq_none_iff_forall_ne_some.2 ?_
      intro q hq
      have habove := of_decide_eq_false (hb x hx)
      rw [rank_of_path? hm, rank_of_path? hq] at habove
      exact habove (Nat.le_refl 2)
    rw [List.filterMap_cons_some hm, hback, List.append_nil]
    rfl

end Matcher

namespace Settings

def paths (s : Settings) : List Pattern := s.matchers.filterMap Matcher.path?

/-- The paths are those to which the texts lead, and the current one is the last. -/
structure Continues (texts : List Text) (s : Settings) : Prop where
  templates : s.paths.map (·.template) = Text.continued [] texts
  rooted : ∀ p ∈ s.paths, p.template.Rooted
  names : (s.paths.map (·.names)).IsChain (· <+: ·)
  current : s.path = s.paths.getLast?

theorem Continues.initial : Settings.initial.Continues [] := ⟨rfl, nofun, .nil, rfl⟩

theorem Continues.congr {texts : List Text} {s t : Settings} (h : s.Continues texts)
    (hs : t.paths = s.paths) (hp : t.path = s.path) : t.Continues texts :=
  ⟨hs ▸ h.templates, hs ▸ h.rooted, hs ▸ h.names, by rw [hs, hp, h.current]⟩

theorem path?_matcher {p : Pattern} :
    p.matcher.path? = if p.kind.rank = 2 then some p else none := by
  unfold Pattern.matcher
  cases p.kind <;> rfl

theorem paths_adopt {s : Settings} (h : s.Owned) (p : Pattern) :
    (s.adopt p).paths = if p.kind.rank = 2 then s.paths ++ [p] else s.paths := by
  rw [paths, adopt_matchers_eq, Matcher.paths_insertByRank _ h.sorted, path?_matcher]
  split
  · rfl
  · exact List.append_nil _

theorem fullTemplate_eq_ok {s : Settings} {text full : Text} {kind : Pattern.Kind}
    (hk : kind.rank = 2) (h : s.fullTemplate text kind = .ok full) :
    text.Rooted ∧ full = Text.trimEnd '/' ((s.path.map (·.template)).getD []) ++ text := by
  have hx : s.extend text = Text.trimEnd '/' ((s.path.map (·.template)).getD []) ++ text := by
    unfold extend
    cases s.path <;> rfl
  rw [Text.rooted_iff, ← hx]
  unfold fullTemplate at h
  cases kind with
  | host | query => cases hk
  | path | pathStart =>
    simp only at h
    split at h
    · exact ⟨‹_›, (Except.ok.inj h).symm⟩
    · cases h

/-- A path that is added goes on where the current path ends. -/
theorem Continues.addPattern {texts : List Text} {s after : Settings} (h : s.Continues texts)
    (ho : s.Owned) {text : Text} {kind : Pattern.Kind} (hk : kind.rank = 2) {w w' : Workshop}
    (ha : s.addPattern text kind w = (.ok after, w')) : after.Continues (texts ++ [text]) := by
  obtain ⟨full, p, hfull, hp, -, rfl⟩ := exists_of_addPattern ha
  obtain ⟨rfl, rfl, u, hu, hun, -⟩ := Pattern.labelled_of_compile hp
  obtain ⟨htext, hfull⟩ := fullTemplate_eq_ok hk hfull
  have hpaths := paths_adopt ho p
  have hcurrent := adopt_path s p
  rw [if_pos hk] at hpaths hcurrent
  have hlast : (Text.continued [] texts).getLast? = s.path.map (·.template) := by
    rw [← h.templates, List.getLast?_map, h.current]
  refine ⟨?_, fun q hq => ?_, ?_, ?_⟩
  · rw [hpaths, List.map_append, h.templates, Text.continued_concat, hlast, ← hfull]
    rfl
  · rw [hpaths] at hq
    rcases List.mem_append.1 hq with hq | hq
    · exact h.rooted q hq
    rw [List.mem_singleton.1 hq, hfull]
    refine Text.Rooted.continue ?_ htext
    cases hold : s.path with
    | none => exact .inl rfl
    | some old => exact h.rooted old (List.mem_of_getLast? (h.current.symm.trans hold))
  · rw [hpaths, List.map_append, List.isChain_append]
    refine ⟨h.names, List.isChain_singleton _, fun names hnames other hother => ?_⟩
    rw [List.getLast?_map, ← h.current] at hnames
    obtain ⟨old, hold, rfl⟩ := Option.map_eq_some_iff.1 hnames
    obtain rfl : p.names = other := Option.some.inj hother
    -- Names are those of the templates, and the new one begins with the old one without slashes.
    obtain ⟨t, ht, htn, -⟩ := ho.labelled old (by simp [patterns, hold])
    rw [hold] at hfull
    rw [hfull] at hu
    rw [htn, hun]
    exact Template.labels_prefix_of_trimEnd ht hu
  · rw [hpaths, hcurrent, List.getLast?_concat]

theorem Move.ofAnyKind {C : Matcher → Prop} {K : Pattern.Kind → Prop} {s t : Settings}
    {w w' : Workshop} (h : Move C K s w t w') : Move C (fun _ => True) s w t w' := by
  cases h with
  | matcher hm => exact .matcher hm
  | pattern _ h => exact .pattern trivial h
  | refused h => exact .refused h
  | compile source => exact .compile source

/-- What adds no path changes none. -/
theorem Move.paths_eq {s t : Settings} {w w' : Workshop}
    (h : Move (·.isBare = true) (·.rank ≠ 2) s w t w') (ho : s.Owned) :
    t.paths = s.paths ∧ t.path = s.path := by
  cases h with
  | @matcher _ m hm =>
    have hn : m.path? = none := by cases m <;> first | rfl | cases hm
    refine ⟨?_, rfl⟩
    rw [paths, addMatcher, Matcher.paths_insertByRank m ho.sorted, hn]
    exact List.append_nil _
  | pattern hk h =>
    obtain ⟨full, p, -, hp, -, rfl⟩ := exists_of_addPattern h
    obtain ⟨-, rfl, -⟩ := Pattern.labelled_of_compile hp
    rw [paths_adopt ho, adopt_path, if_neg hk, if_neg hk]
    exact ⟨rfl, rfl⟩
  | refused h => exact ⟨rfl, rfl⟩
  | compile source => exact ⟨rfl, rfl⟩

theorem Moves.paths_eq {s t : Settings} {w w' : Workshop}
    (h : Moves (·.isBare = true) (·.rank ≠ 2) s w t w') (ho : s.Owned) :
    t.paths = s.paths ∧ t.path = s.path := by
  induction h with
  | refl => exact ⟨rfl, rfl⟩
  | more h _ ih =>
    obtain ⟨hpaths, hpath⟩ := h.paths_eq ho
    obtain ⟨hlater, hcurrent⟩ := ih (h.ofAnyKind.owned ho)
    exact ⟨hlater.trans hpaths, hcurrent.trans hpath⟩

end Settings
end HttpRouter
