import HttpRouter.Proofs.Pattern.Caching
import HttpRouter.Proofs.Route.Growth
import HttpRouter.Proofs.Route.Ownership

set_option autoImplicit false

/-!
# Gains of settings

Each step of configuration that narrows a route stands for the matchers that it brings, which do not
depend on what the route has already.  Settings gain a matcher with its pattern.  They admit matchers
if no two of these, or one of them and a current pattern, share a variable.  With a place for one
path and one host at most, matchers are admitted together exactly if they are one after another.
-/
namespace HttpRouter

namespace Compiler

def Steady (c : Compiler) (w : Workshop) : Prop := ∃ holds, w.Sound holds ∧ c.Numbered holds w.made

variable {c : Compiler} {w : Workshop}

theorem Made.steady {held : List Compiler} (h : Made held w) (hc : c ∈ held) : c.Steady w := by
  obtain ⟨holds, hs, hn⟩ := h.sound
  exact ⟨holds, hs, hn c hc⟩

theorem Steady.compile (h : c.Steady w) (source : Text) :
    (c.compile source w).1 = c.meaning source ∧ c.Steady (c.compile source w).2 := by
  obtain ⟨holds, hs, hn⟩ := h
  obtain ⟨ha, hs'⟩ := compile_of_sound hn hs (Nat.le_refl _) source
  exact ⟨ha, holds, hs', by rwa [made_compile]⟩

end Compiler

namespace Pattern

def meant (f : Text → Option Expression) (strictSlash : Bool) (template : Text) (kind : Kind) :
    Except Error Pattern :=
  (compile template kind strictSlash (.supplied f) .initial).1

theorem compile_of_steady {c : Compiler} {w : Workshop} (h : c.Steady w) (strictSlash : Bool)
    (template : Text) (kind : Kind) :
    (compile template kind strictSlash c w).1 = meant c.meaning strictSlash template kind ∧
      c.Steady (compile template kind strictSlash c w).2 := by
  unfold meant compile
  simp only
  cases plan template kind (strictSlash && kind = .path) with
  | error e => exact ⟨rfl, h⟩
  | ok made =>
    obtain ⟨ha, hs⟩ := h.compile made.source
    exact ⟨congrArg (ofCompiled template kind (strictSlash && kind = .path) made) ha, hs⟩

theorem labelled_of_meant {f : Text → Option Expression} {strictSlash : Bool} {template : Text}
    {kind : Kind} {p : Pattern} (h : meant f strictSlash template kind = .ok p) :
    p.kind = kind ∧ p.names.Nodup := by
  obtain ⟨-, hk, -, -, -, hn⟩ := labelled_of_compile (Prod.ext h rfl)
  exact ⟨hk, hn⟩

end Pattern

namespace Matcher

def path? : Matcher → Option Pattern
  | path p | pathStart p => some p
  | _ => none

def host? : Matcher → Option Pattern
  | host p => some p
  | _ => none

def query? : Matcher → Option Pattern
  | query p => some p
  | _ => none

theorem perm_insertByRank (m : Matcher) (ms : List Matcher) :
    (m.insertByRank ms).Perm (m :: ms) := by
  induction ms with
  | nil => exact .refl _
  | cons other rest ih =>
    simp only [insertByRank]
    split
    · exact (ih.cons other).trans (.swap m other rest)
    · exact .refl _

end Matcher

namespace Settings

theorem perm_insertAll (added ms : List Matcher) : (insertAll added ms).Perm (ms ++ added) := by
  induction added generalizing ms with
  | nil => rw [List.append_nil]; exact .refl ms
  | cons m rest ih =>
    refine (ih (m.insertByRank ms)).trans ?_
    exact ((m.perm_insertByRank ms).append_right rest).trans List.perm_middle.symm

def gain (s : Settings) (m : Matcher) : Settings :=
  { s.addMatcher m with
    path := m.path?.or s.path
    host := m.host?.or s.host
    queries := s.queries ++ m.query?.toList }

def gainAll (s : Settings) (ms : List Matcher) : Settings := ms.foldl gain s

theorem gainAll_append (s : Settings) (ms others : List Matcher) :
    s.gainAll (ms ++ others) = (s.gainAll ms).gainAll others := List.foldl_append

theorem adopt_eq_gain (s : Settings) (p : Pattern) : s.adopt p = s.gain p.matcher := by
  unfold adopt Pattern.matcher
  cases p.kind <;> simp [gain, addMatcher, Matcher.path?, Matcher.host?, Matcher.query?]

theorem addMatcher_eq_gain (s : Settings) {m : Matcher} (h : m.isBare = true) :
    s.addMatcher m = s.gain m := by
  cases m
  case host | path | pathStart | query => cases h
  all_goals simp [gain, addMatcher, Matcher.path?, Matcher.host?, Matcher.query?]

theorem gainAll_eq (s : Settings) (ms : List Matcher) :
    s.gainAll ms = { s with
      matchers := insertAll ms s.matchers
      path := (ms.filterMap Matcher.path?).getLast?.or s.path
      host := (ms.filterMap Matcher.host?).getLast?.or s.host
      queries := s.queries ++ ms.filterMap Matcher.query? } := by
  induction ms generalizing s with
  | nil => simp [gainAll, insertAll]
  | cons m rest ih =>
    change (s.gain m).gainAll rest = _
    have latest : ∀ (first : Option Pattern) (later : List Pattern) (old : Option Pattern),
        later.getLast?.or (first.or old) = (first.toList ++ later).getLast?.or old := by
      intro first later old
      cases first <;> simp [List.getLast?_cons]
    have split : ∀ part : Matcher → Option Pattern,
        (m :: rest).filterMap part = (part m).toList ++ rest.filterMap part := by
      intro part
      cases hp : part m <;> simp [hp]
    rw [ih, split, split, split, ← latest, ← latest]
    simp [gain, addMatcher, insertAll]

def uses (s : Settings) (name : Text) : Prop := ∃ p ∈ s.patterns, name ∈ p.names

/-- Places for the path and the host that no two patterns compete for. -/
structure Free (s : Settings) (ms : List Matcher) : Prop where
  path : s.path.toList.length + (ms.filterMap Matcher.path?).length ≤ 1
  host : s.host.toList.length + (ms.filterMap Matcher.host?).length ≤ 1

section
variable {s : Settings} {m : Matcher} {ms rest : List Matcher} {name : Text}

theorem eq_none_of_length {α : Type} {part : Option α} {n : Nat}
    (h : part.toList.length + (n + 1) ≤ 1) : part = none := by
  cases part with
  | none => rfl
  | some value =>
    rw [Option.toList_some, List.length_singleton] at h
    omega

theorem uses_gain (h : s.Free (m :: rest)) :
    (s.gain m).uses name ↔ s.uses name ∨ name ∈ m.names := by
  have hpath := h.path
  have hhost := h.host
  unfold uses patterns gain
  cases m with
  | host p =>
    have hnone := eq_none_of_length hhost
    simp [Matcher.path?, Matcher.host?, Matcher.query?, Matcher.names, hnone, or_and_right, exists_or,
      or_comm, or_left_comm]
  | path p | pathStart p =>
    have hnone := eq_none_of_length hpath
    simp [Matcher.path?, Matcher.host?, Matcher.query?, Matcher.names, hnone, or_and_right, exists_or,
      or_assoc]
  | query p =>
    simp [Matcher.path?, Matcher.host?, Matcher.query?, Matcher.names, or_and_right, exists_or,
      or_comm, or_left_comm]
  | _ => simp [Matcher.path?, Matcher.host?, Matcher.query?, Matcher.names]

theorem Free.tail (h : s.Free (m :: rest)) : (s.gain m).Free rest := by
  have hpath := h.path
  have hhost := h.host
  constructor
  · cases hm : m.path? with
    | none => simpa [gain, hm] using hpath
    | some p =>
      rw [List.filterMap_cons_some hm] at hpath
      rw [eq_none_of_length hpath] at hpath
      simpa [gain, hm, Nat.add_comm] using hpath
  · cases hm : m.host? with
    | none => simpa [gain, hm] using hhost
    | some p =>
      rw [List.filterMap_cons_some hm] at hhost
      rw [eq_none_of_length hhost] at hhost
      simpa [gain, hm, Nat.add_comm] using hhost

theorem uses_gainAll (h : s.Free ms) :
    (s.gainAll ms).uses name ↔ s.uses name ∨ name ∈ ms.flatMap Matcher.names := by
  induction ms generalizing s with
  | nil => simp [gainAll]
  | cons m rest ih =>
    change ((s.gain m).gainAll rest).uses name ↔ _
    rw [ih h.tail, uses_gain h, List.flatMap_cons, List.mem_append, or_assoc]

end

structure Admits (s : Settings) (ms : List Matcher) : Prop where
  distinct : (ms.flatMap Matcher.names).Nodup
  fresh : ∀ name ∈ ms.flatMap Matcher.names, ¬ s.uses name

/-- All the matchers could be made, and the settings admit them. -/
def Fits (s : Settings) (parts : List (Option Matcher)) : Prop :=
  (∀ part ∈ parts, part.isSome = true) ∧ s.Admits (parts.filterMap id)

section
variable {s : Settings} {front back : List (Option Matcher)}

theorem fits_append (hf : s.Free (front.filterMap id)) :
    s.Fits (front ++ back) ↔ s.Fits front ∧ (s.gainAll (front.filterMap id)).Fits back := by
  have hadmits : ∀ later : List Matcher, s.Admits (front.filterMap id ++ later) ↔
      s.Admits (front.filterMap id) ∧ (s.gainAll (front.filterMap id)).Admits later := by
    intro later
    constructor
    · rintro ⟨hd, hu⟩
      rw [List.flatMap_append, List.nodup_append] at hd
      rw [List.flatMap_append] at hu
      refine ⟨⟨hd.1, fun name hn => hu name (List.mem_append_left _ hn)⟩, hd.2.1, ?_⟩
      intro name hn hused
      rcases (uses_gainAll hf).1 hused with hused | hused
      · exact hu name (List.mem_append_right _ hn) hused
      · exact hd.2.2 name hused name hn rfl
    · rintro ⟨⟨hd, hu⟩, hd', hu'⟩
      simp only [uses_gainAll hf, not_or] at hu'
      constructor
      · rw [List.flatMap_append, List.nodup_append]
        exact ⟨hd, hd', fun name hn other ho he => (hu' other ho).2 (he ▸ hn)⟩
      · intro name hn
        rw [List.flatMap_append, List.mem_append] at hn
        rcases hn with hn | hn
        · exact hu name hn
        · exact (hu' name hn).1
  unfold Fits
  rw [List.filterMap_append, hadmits, List.forall_mem_append]
  exact and_and_and_comm

theorem fits_nil (s : Settings) : s.Fits [] := ⟨nofun, List.nodup_nil, nofun⟩

theorem fits_bare (s : Settings) {m : Matcher} (h : m.isBare = true) : s.Fits [some m] := by
  have hn : [m].flatMap Matcher.names = [] := by
    rw [List.flatMap_singleton, Matcher.names_of_isBare h]
  refine ⟨by simp, ?_, ?_⟩
  · exact hn ▸ List.nodup_nil
  · exact fun name hm => absurd (hn ▸ hm) List.not_mem_nil

theorem not_fits_none (s : Settings) : ¬ s.Fits [none] := fun h => by simpa using h.1 none

end

theorem checkRivals_eq_ok_iff {p : Pattern} {rivals : List Pattern} :
    checkRivals p rivals = .ok () ↔ ∀ q ∈ rivals, ∀ name ∈ p.names, name ∉ q.names := by
  refine ⟨distinct_of_checkRivals, fun h => ?_⟩
  induction rivals with
  | nil => rfl
  | cons first rest ih =>
    obtain ⟨hfirst, hrest⟩ := List.forall_mem_cons.1 h
    have hnone : p.names.find? first.names.contains = none := by
      rw [List.find?_eq_none]
      simpa using hfirst
    simp only [checkRivals, distinctFrom, hnone]
    exact ih hrest

/-- Where no pattern is replaced, all of them are rivals. -/
theorem mem_rivals_iff {s : Settings} {p q : Pattern} (h : s.Free [p.matcher]) :
    q ∈ s.rivals p.kind ↔ q ∈ s.patterns := by
  have hpath := h.path
  have hhost := h.host
  unfold Pattern.matcher at hpath hhost
  unfold rivals patterns
  cases hk : p.kind with
  | host =>
    rw [hk] at hhost
    simp [eq_none_of_length hhost]
  | query => rfl
  | path | pathStart =>
    rw [hk] at hpath
    simp [eq_none_of_length hpath]

theorem fits_matcher_iff {s : Settings} {p : Pattern} (h : s.Free [p.matcher])
    (hd : p.names.Nodup) : s.Fits [some p.matcher] ↔ checkRivals p (s.rivals p.kind) = .ok () := by
  have hn : [p.matcher].flatMap Matcher.names = p.names := by
    rw [List.flatMap_singleton, Matcher.names_matcher]
  rw [checkRivals_eq_ok_iff]
  simp only [mem_rivals_iff h]
  constructor
  · rintro ⟨-, -, hu⟩ q hq name hname hc
    exact hu name (hn ▸ hname) ⟨q, hq, hc⟩
  · refine fun hr => ⟨by simp, hn ▸ hd, fun name hname => ?_⟩
    rintro ⟨q, hq, hc⟩
    exact hr q hq name (hn ▸ hname) hc

structure Vacant (s : Settings) (kind : Pattern.Kind) : Prop where
  path : kind.rank = 2 → s.path = none
  host : kind = .host → s.host = none

theorem length_toList_le {α : Type} (current : Option α) : current.toList.length ≤ 1 := by
  cases current <;> simp

theorem free_nil (s : Settings) : s.Free [] := ⟨length_toList_le s.path, length_toList_le s.host⟩

theorem Vacant.free {s : Settings} {p : Pattern} (h : s.Vacant p.kind) : s.Free [p.matcher] := by
  have hpath := h.path
  have hhost := h.host
  unfold Pattern.matcher
  constructor
  · cases hk : p.kind with
    | path | pathStart =>
      rw [hk] at hpath
      rw [hpath rfl]
      exact Nat.le_refl 1
    | host | query => exact length_toList_le s.path
  · cases hk : p.kind with
    | host =>
      rw [hhost hk]
      exact Nat.le_refl 1
    | path | pathStart | query => exact length_toList_le s.host

theorem Vacant.fullTemplate {s : Settings} {kind : Pattern.Kind} (h : s.Vacant kind)
    (template : Text) : s.fullTemplate template kind = initial.fullTemplate template kind := by
  unfold Settings.fullTemplate extend
  cases kind with
  | host | query => rfl
  | path | pathStart =>
    rw [h.path rfl]
    rfl

def part (f : Text → Option Expression) (strict : Bool) (template : Text) (kind : Pattern.Kind) :
    Option Matcher :=
  match initial.fullTemplate template kind with
  | .error _ => none
  | .ok full => (Pattern.meant f strict full kind).toOption.map Pattern.matcher

theorem kind_of_part {f : Text → Option Expression} {strict : Bool} {template : Text}
    {kind : Pattern.Kind} {m : Matcher} (h : part f strict template kind = some m) :
    ∃ p : Pattern, p.kind = kind ∧ m = p.matcher := by
  unfold part at h
  split at h
  · cases h
  · rename_i full _
    cases hm : Pattern.meant f strict full kind with
    | error e =>
      rw [hm] at h
      cases h
    | ok p =>
      rw [hm] at h
      exact ⟨p, (Pattern.labelled_of_meant hm).1, (Option.some.inj h).symm⟩

theorem Vacant.free_part {s : Settings} {kind : Pattern.Kind} (hk : s.Vacant kind)
    {f : Text → Option Expression} {strict : Bool} {template : Text} :
    s.Free ([part f strict template kind].filterMap id) := by
  cases hpart : part f strict template kind with
  | none => exact s.free_nil
  | some m =>
    obtain ⟨p, rfl, rfl⟩ := kind_of_part hpart
    exact hk.free

end Settings

/-- The matchers that a step brings, where it brings any, and none in place of each failure. -/
def RouteStep.parts (f : Text → Option Expression) (strict : Bool) :
    RouteStep → List (Option Matcher)
  | path template => [Settings.part f strict template .path]
  | pathStart template => [Settings.part f strict template .pathStart]
  | host template => [Settings.part f strict template .host]
  | queries texts =>
    match pairUp texts with
    | .error _ => [none]
    | .ok pairs => pairs.map fun (key, value) => Settings.part f strict (key ++ '=' :: value) .query
  | headers texts => [(pairUp texts).toOption.map .headers]
  | headerExpressions texts =>
    [(pairUp texts).toOption.bind fun pairs =>
      (Route.compileHeaders (.supplied f) pairs .initial).1.toOption.map .headerExpressions]
  | methods accepted => [some (.methods accepted)]
  | schemes accepted => [some (.schemes (accepted.map Text.lower))]
  | custom holds => [some (.custom holds)]
  | handler _ | name _ | buildOnly | metadata _ _ | use _ => []

namespace RouteStep

def setsPath : RouteStep → Bool
  | path _ | pathStart _ => true
  | _ => false

def setsHost : RouteStep → Bool
  | host _ => true
  | _ => false

theorem of_mem_parts {f : Text → Option Expression} {strict : Bool} {step : RouteStep} {m : Matcher}
    (h : some m ∈ step.parts f strict) :
    (m.path? ≠ none → step.setsPath = true) ∧ (m.host? ≠ none → step.setsHost = true) := by
  have pattern : ∀ {template : Text} {kind : Pattern.Kind},
      some m = Settings.part f strict template kind →
      (m.path? ≠ none → kind.rank = 2) ∧ (m.host? ≠ none → kind = .host) := by
    intro template kind hm
    obtain ⟨p, rfl, rfl⟩ := Settings.kind_of_part hm.symm
    unfold Pattern.matcher
    cases p.kind <;> simp [Matcher.path?, Matcher.host?, Pattern.Kind.rank]
  cases step with
  | path template | pathStart template =>
    exact ⟨fun _ => rfl, fun hm => absurd ((pattern (List.mem_singleton.1 h)).2 hm) (by decide)⟩
  | host template =>
    exact ⟨fun hm => absurd ((pattern (List.mem_singleton.1 h)).1 hm) (by decide), fun _ => rfl⟩
  | queries texts =>
    simp only [parts] at h
    split at h
    · cases List.mem_singleton.1 h
    · obtain ⟨pair, -, hm⟩ := List.mem_map.1 h
      exact ⟨fun hp => absurd ((pattern hm.symm).1 hp) (by decide),
        fun hh => absurd ((pattern hm.symm).2 hh) (by decide)⟩
  | headers texts =>
    obtain ⟨pairs, -, rfl⟩ := Option.map_eq_some_iff.1 (List.mem_singleton.1 h).symm
    exact ⟨absurd rfl, absurd rfl⟩
  | headerExpressions texts =>
    obtain ⟨pairs, -, hm⟩ := Option.bind_eq_some_iff.1 (List.mem_singleton.1 h).symm
    obtain ⟨required, -, rfl⟩ := Option.map_eq_some_iff.1 hm
    exact ⟨absurd rfl, absurd rfl⟩
  | methods | schemes | custom =>
    obtain rfl := Option.some.inj (List.mem_singleton.1 h)
    exact ⟨absurd rfl, absurd rfl⟩
  | handler | name | buildOnly | metadata | use => cases h

theorem length_parts_le (f : Text → Option Expression) (strict : Bool) {step : RouteStep}
    (h : step.setsPath = true ∨ step.setsHost = true) : (step.parts f strict).length ≤ 1 := by
  cases step with
  | path | pathStart | host => exact Nat.le_refl 1
  | _ => simp [setsPath, setsHost] at h

theorem length_filterMap_parts {parts : List (Option Matcher)} {g : Matcher → Option Pattern}
    {sets : Bool} (hl : sets = true → parts.length ≤ 1)
    (hg : ∀ m, some m ∈ parts → g m ≠ none → sets = true) :
    ((parts.filterMap id).filterMap g).length ≤ if sets then 1 else 0 := by
  cases sets with
  | true =>
    have hmatchers := List.length_filterMap_le g (parts.filterMap id)
    have hparts := List.length_filterMap_le id parts
    exact Nat.le_trans hmatchers (Nat.le_trans hparts (hl rfl))
  | false =>
    have hnil : (parts.filterMap id).filterMap g = [] := by
      rw [List.filterMap_eq_nil_iff]
      intro m hm
      cases hp : g m with
      | none => rfl
      | some p => cases hg m (by simpa using hm) (by rw [hp]; nofun)
    rw [hnil]
    exact Nat.zero_le _

variable (f : Text → Option Expression) (strict : Bool) (step : RouteStep)

theorem length_paths_le : (((step.parts f strict).filterMap id).filterMap Matcher.path?).length
    ≤ if step.setsPath then 1 else 0 :=
  length_filterMap_parts (fun h => length_parts_le f strict (.inl h))
    fun _ hm => (of_mem_parts hm).1

theorem length_hosts_le : (((step.parts f strict).filterMap id).filterMap Matcher.host?).length
    ≤ if step.setsHost then 1 else 0 :=
  length_filterMap_parts (fun h => length_parts_le f strict (.inr h))
    fun _ hm => (of_mem_parts hm).2

end RouteStep

namespace Settings

/-- The settings have a path, or one of the steps brings one, but there are no two of them, and the
same holds of hosts. -/
structure Spaced (s : Settings) (steps : List RouteStep) : Prop where
  path : s.path.toList.length + steps.countP RouteStep.setsPath ≤ 1
  host : s.host.toList.length + steps.countP RouteStep.setsHost ≤ 1

namespace Spaced

variable {s : Settings} {step : RouteStep} {rest : List RouteStep}

theorem vacant (h : s.Spaced (step :: rest)) : (step.setsPath = true → s.path = none) ∧
    (step.setsHost = true → s.host = none) := by
  have hpath := h.path
  have hhost := h.host
  constructor
  · intro hp
    rw [List.countP_cons_of_pos hp] at hpath
    exact eq_none_of_length hpath
  · intro hh
    rw [List.countP_cons_of_pos hh] at hhost
    exact eq_none_of_length hhost

theorem next (h : s.Spaced (step :: rest)) (f : Text → Option Expression) (strict : Bool) :
    s.Free ((step.parts f strict).filterMap id) ∧
      (s.gainAll ((step.parts f strict).filterMap id)).Spaced rest := by
  have hpaths := step.length_paths_le f strict
  have hhosts := step.length_hosts_le f strict
  obtain ⟨hpath, hhost⟩ := h
  rw [List.countP_cons] at hpath hhost
  have hor : ∀ (later : List Pattern) (old : Option Pattern),
      (later.getLast?.or old).toList.length ≤ old.toList.length + later.length := by
    intro later old
    cases later with
    | nil => exact Nat.le_refl _
    | cons p later =>
      have := length_toList_le ((p :: later).getLast?.or old)
      rw [List.length_cons]
      omega
  refine ⟨⟨by omega, by omega⟩, ?_⟩
  rw [gainAll_eq]
  constructor
  · have := hor (((step.parts f strict).filterMap id).filterMap Matcher.path?) s.path
    simp only
    omega
  · have := hor (((step.parts f strict).filterMap id).filterMap Matcher.host?) s.host
    simp only
    omega

theorem free {steps : List RouteStep} (h : s.Spaced steps) (f : Text → Option Expression)
    (strict : Bool) : s.Free ((steps.flatMap (RouteStep.parts f strict)).filterMap id) := by
  have hcount : ∀ (g : Matcher → Option Pattern) (sets : RouteStep → Bool),
      (∀ step : RouteStep, (((step.parts f strict).filterMap id).filterMap g).length
        ≤ if sets step then 1 else 0) →
      (((steps.flatMap (RouteStep.parts f strict)).filterMap id).filterMap g).length
        ≤ steps.countP sets := by
    intro g sets hstep
    clear h
    induction steps with
    | nil => exact Nat.le_refl 0
    | cons step rest ih =>
      have := hstep step
      rw [List.flatMap_cons, List.filterMap_append, List.filterMap_append, List.length_append,
        List.countP_cons]
      omega
  have hpaths := hcount Matcher.path? RouteStep.setsPath fun step => step.length_paths_le f strict
  have hhosts := hcount Matcher.host? RouteStep.setsHost fun step => step.length_hosts_le f strict
  obtain ⟨hpath, hhost⟩ := h
  exact ⟨by omega, by omega⟩

end Spaced
end Settings

end HttpRouter
