import HttpRouter.Proofs.Route.Taken
import HttpRouter.Proofs.Router.AllowedMethods
import HttpRouter.Proofs.Router.Likeness

set_option autoImplicit false

namespace HttpRouter

namespace Vars

def Agree (vars others : Vars) : Prop := ∀ name, vars.get? name = others.get? name

theorem agree_insertAll {bindings others : List (Text × Text)}
    (hd : (bindings.map Prod.fst).Nodup) (hp : bindings.Perm others) (vars : Vars) :
    (vars.insertAll bindings).Agree (vars.insertAll others) := by
  intro name
  have hkeys := hp.map Prod.fst
  by_cases hm : name ∈ bindings.map Prod.fst
  · obtain ⟨⟨key, value⟩, hb, rfl⟩ := List.mem_map.1 hm
    rw [get?_insertAll_of_mem hd hb,
      get?_insertAll_of_mem (hkeys.nodup_iff.1 hd) (hp.mem_iff.1 hb)]
  · rw [get?_insertAll_of_not_mem hm, get?_insertAll_of_not_mem (mt hkeys.mem_iff.2 hm)]

theorem get?_fillFrom_of_none {vars outer : Vars} {name : Text} (h : vars.get? name = none) :
    (vars.fillFrom outer).get? name = outer.get? name := by
  have hkept : ∀ entries : List (Text × Text),
      (entries.filter fun entry => (vars.get? entry.1).isNone).lookup name
        = entries.lookup name := by
    intro entries
    induction entries with
    | nil => rfl
    | cons entry rest ih =>
      obtain ⟨key, value⟩ := entry
      by_cases hk : name = key
      · subst hk
        simp [h]
      · have hb : (name == key) = false := beq_eq_false_iff_ne.2 hk
        rw [List.filter_cons]
        split <;> simp only [List.lookup_cons, hb, ih]
  have hv : vars.entries.lookup name = none := h
  rw [get?, fillFrom, List.lookup_append, hv, hkept, Option.none_or]
  rfl

theorem agree_fillFrom {outer others : Vars} (h : outer.Agree others) (vars : Vars) :
    (vars.fillFrom outer).Agree (vars.fillFrom others) := by
  intro name
  cases hv : vars.get? name with
  | some value => rw [get?_fillFrom hv, get?_fillFrom hv]
  | none => rw [get?_fillFrom_of_none hv, get?_fillFrom_of_none hv, h name]

end Vars

namespace Matcher

def bindings (request : Request) : Matcher → List (Text × Text)
  | host p => (p.bindings? request.hostName).getD []
  | path p | pathStart p => (p.bindings? request.path).getD []
  | query p => (p.bindings? (queryText p request)).getD []
  | _ => []

variable {m : Matcher} {request : Request}

theorem sublist_bindings : ((m.bindings request).map Prod.fst).Sublist m.names := by
  have hsub : ∀ (p : Pattern) (text : Text),
      (((p.bindings? text).getD []).map Prod.fst).Sublist p.names := by
    intro p text
    cases hb : p.bindings? text with
    | none => exact List.nil_sublist _
    | some bindings => exact Pattern.sublist_of_bindings? hb
  cases m with
  | host p | path p | pathStart p | query p => exact hsub p _
  | _ => exact List.nil_sublist _

theorem evaluate_eq_matched {vars after : Vars} (h : m.evaluate request vars = .matched after) :
    after = vars.insertAll (m.bindings request) := by
  have captured : ∀ (p : Pattern) (text : Text),
      ofCaptures (p.captures? text vars) = .matched after →
      after = vars.insertAll ((p.bindings? text).getD []) := by
    intro p text hc
    rw [Pattern.captures?_eq] at hc
    cases hb : p.bindings? text with
    | none =>
      rw [hb] at hc
      cases hc
    | some bindings =>
      rw [hb] at hc
      cases hc
      rfl
  cases m with
  | host p | path p | pathStart p | query p => exact captured p _ h
  | schemes | headers | headerExpressions | custom =>
    simp only [evaluate, ofBool] at h
    split at h
    · cases h
      rfl
    · cases h
  | methods accepted =>
    simp only [evaluate] at h
    split at h
    · cases h
      rfl
    · cases h

end Matcher

namespace Settings

variable {request : Request}

theorem judge_eq_insertAll {ms : List Matcher} {vars after : Vars} {wrong flag : Bool}
    (h : judge request ms vars wrong = some (after, flag)) :
    after = vars.insertAll (ms.flatMap (Matcher.bindings request)) := by
  induction ms generalizing vars wrong with
  | nil =>
    cases h
    rfl
  | cons m rest ih =>
    have happend : ∀ front back, vars.insertAll (front ++ back)
        = (vars.insertAll front).insertAll back := fun _ _ => List.foldl_append
    rw [List.flatMap_cons, happend]
    simp only [judge] at h
    cases he : m.evaluate request vars with
    | matched next =>
      rw [he] at h
      rw [← Matcher.evaluate_eq_matched he]
      exact ih h
    | rejected =>
      rw [he] at h
      cases h
    | methodMismatch accepted =>
      rw [he] at h
      obtain ⟨rfl, -⟩ := Matcher.evaluate_methodMismatch he
      exact ih h

theorem sublist_flatMap_bindings (ms : List Matcher) :
    ((ms.flatMap (Matcher.bindings request)).map Prod.fst).Sublist (ms.flatMap Matcher.names) := by
  induction ms with
  | nil => exact List.Sublist.refl _
  | cons m rest ih =>
    rw [List.flatMap_cons, List.map_append, List.flatMap_cons]
    exact Matcher.sublist_bindings.append ih

/-- Where no variable has two owners, the order of matchers makes no difference to a judgement. -/
theorem judge_perm (request : Request) {ms others : List Matcher} (hp : ms.Perm others)
    (hd : (ms.flatMap Matcher.names).Nodup) :
    (judge request ms .empty false = none ∧ judge request others .empty false = none) ∨
      ∃ vars vars' wrong, judge request ms .empty false = some (vars, wrong) ∧
        judge request others .empty false = some (vars', wrong) ∧ vars.Agree vars' := by
  have hnone : judge request ms .empty false = none ↔ judge request others .empty false = none := by
    rw [judge_eq_none, judge_eq_none]
    simp only [hp.mem_iff]
  cases hj : judge request ms .empty false with
  | none => exact .inl ⟨rfl, hnone.1 hj⟩
  | some judged =>
    obtain ⟨vars, wrong⟩ := judged
    cases hj' : judge request others .empty false with
    | none =>
      rw [hnone.2 hj'] at hj
      cases hj
    | some judged' =>
      obtain ⟨vars', wrong'⟩ := judged'
      have hwrong : wrong = wrong' := by
        rw [judge_wrong hj, judge_wrong hj', hp.any_eq]
      refine .inr ⟨vars, vars', wrong, rfl, by rw [hwrong], ?_⟩
      rw [judge_eq_insertAll hj, judge_eq_insertAll hj']
      exact Vars.agree_insertAll (hd.sublist (sublist_flatMap_bindings ms))
        (hp.flatMap_right _) .empty

structure Rearranged (s t : Settings) : Prop where
  same : t = { s with matchers := t.matchers, queries := t.queries }
  matchers : s.matchers.Perm t.matchers
  queries : s.queries.Perm t.queries

theorem Rearranged.refl (s : Settings) : s.Rearranged s := ⟨rfl, .refl _, .refl _⟩

theorem Rearranged.mem_methods {s t : Settings} (h : s.Rearranged t) (method : Method) :
    method ∈ s.methods?.getD [] ↔ method ∈ t.methods?.getD [] := by
  rw [mem_methods_iff, mem_methods_iff, takes, takes, h.matchers.all_eq]
  simp only [h.matchers.mem_iff]

/-- With a place for at most one path and one host, the order of gains makes no difference. -/
theorem rearranged_gainAll {s : Settings} {ms others : List Matcher} (hf : s.Free ms)
    (hp : ms.Perm others) : (s.gainAll ms).Rearranged (s.gainAll others) := by
  have hlast : ∀ part : Matcher → Option Pattern, (ms.filterMap part).length ≤ 1 →
      (others.filterMap part).getLast? = (ms.filterMap part).getLast? := by
    intro part hl
    have hparts := hp.filterMap part
    cases hm : ms.filterMap part with
    | nil =>
      rw [hm] at hparts
      rw [hparts.symm.eq_nil]
    | cons p rest =>
      rw [hm, List.length_cons] at hl
      obtain rfl := List.length_eq_zero_iff.1 (Nat.le_zero.1 (Nat.le_of_succ_le_succ hl))
      rw [hm] at hparts
      rw [hparts.symm.eq_singleton]
  have hpath := hlast Matcher.path? (Nat.le_trans (Nat.le_add_left _ _) hf.path)
  have hhost := hlast Matcher.host? (Nat.le_trans (Nat.le_add_left _ _) hf.host)
  rw [gainAll_eq, gainAll_eq]
  refine ⟨by rw [hpath, hhost], ?_, (hp.filterMap _).append_left _⟩
  exact (perm_insertAll ms _).trans ((hp.append_left _).trans (perm_insertAll others _).symm)

end Settings

structure Found.Like (found other : Found) : Prop where
  route : ∃ settings, found.route.settings.Rearranged settings ∧
    other.route = found.route.setSettings settings
  vars : found.vars.Agree other.vars
  handler : other.handler = found.handler
  scopes : other.scopes = found.scopes

namespace Route

variable {s t : Settings}

theorem like_delegate (h : s.Rearranged t) (info : RouteInfo) {vars others : Vars}
    (hv : vars.Agree others) (wrong : Bool) (below : Outcome) :
    (delegate { info with settings := s } vars wrong below).Like Found.Like
      (delegate { info with settings := t } others wrong below) := by
  unfold delegate
  split
  · exact .methodMismatch h.mem_methods
  · have hsame : ∀ found found' : Found, found = found' → Found.Like
        { found with vars := found.vars.fillFrom vars }
        { found' with vars := found'.vars.fillFrom others } := by
      rintro found - rfl
      exact ⟨⟨_, .refl _, found.route.setSettings_self.symm⟩, Vars.agree_fillFrom hv found.vars,
        rfl, rfl⟩
    exact Outcome.Like.mapFound hsame (.refl (fun _ => rfl) below)

theorem like_evaluate (h : s.Rearranged t) (hd : (s.matchers.flatMap Matcher.names).Nodup)
    (route : Route) (request : Request) :
    ((route.setSettings s).evaluate request).Like Found.Like
      ((route.setSettings t).evaluate request) := by
  obtain ⟨info, handler, middleware, subrouter⟩ := route
  simp only [setSettings, setInfo, Route.info, handler?, Route.middleware, subrouter?, evaluate]
  split
  · exact .notFound
  · rcases Settings.judge_perm request h.matchers hd with
      ⟨hn, hn'⟩ | ⟨vars, others, wrong, hj, hj', hv⟩
    · rw [hn, hn']
      exact .notFound
    · rw [hj, hj']
      cases subrouter with
      | some child => exact like_delegate h info hv wrong (Router.scan request child)
      | none =>
        cases wrong with
        | true => exact .methodMismatch h.mem_methods
        | false =>
          refine like_answer ?_ ?_ (fun _ => ?_) request
          · rfl
          · change t.path = s.path
            rw [h.same]
          · exact ⟨⟨t, h, rfl⟩, hv, rfl, rfl⟩

end Route

/-- Nothing has narrowed the settings yet, as in those of a router that is not below a route. -/
structure Settings.Blank (s : Settings) : Prop where
  matchers : s.matchers = []
  path : s.path = none
  host : s.host = none
  queries : s.queries = []

theorem Settings.Blank.fits_perm {s : Settings} {parts others : List (Option Matcher)}
    (h : s.Blank) (hp : parts.Perm others) : s.Fits parts ↔ s.Fits others := by
  have hfits : ∀ given : List (Option Matcher), s.Fits given ↔
      (∀ part ∈ given, part.isSome = true) ∧
        ((given.filterMap id).flatMap Matcher.names).Nodup := by
    intro given
    have hunused : ∀ name, ¬ s.uses name := by
      rintro name ⟨p, hm, -⟩
      simp [patterns, h.path, h.host, h.queries] at hm
    exact and_congr_right fun _ => ⟨fun ha => ha.distinct, fun hd => ⟨hd, fun name _ => hunused name⟩⟩
  have hnames := ((hp.filterMap id).flatMap_right Matcher.names).nodup_iff
  rw [hfits, hfits, hnames]
  simp only [hp.mem_iff]

/-- No variable has two owners then. -/
theorem Settings.Blank.distinct {s : Settings} {parts : List (Option Matcher)} (h : s.Blank)
    (hf : s.Fits parts) :
    ((s.gainAll (parts.filterMap id)).matchers.flatMap Matcher.names).Nodup := by
  have hm := perm_insertAll (parts.filterMap id) s.matchers
  rw [gainAll_eq]
  simp only [h.matchers, List.nil_append] at hm ⊢
  exact (hm.flatMap_right Matcher.names).nodup_iff.2 hf.2.distinct

namespace Route

variable {held : List Compiler} {w : Workshop} {route : Route} {steps others : List RouteStep}

theorem evaluate_of_inert (h : route.info.inert = true) (request : Request) :
    route.evaluate request = .notFound := by
  obtain ⟨info, handler, middleware, subrouter⟩ := route
  have hi : info.inert = true := h
  exact evaluate_of_inactive (by simp [RouteInfo.active, hi]) handler middleware subrouter

/-- Whatever the order of steps that narrow a route, with at most one host and one path among them,
either every order makes the route inert or none does, and evaluation comes to the same. -/
theorem configure_in_any_order (made : Compiler.Made held w)
    (hc : route.settings.compiler ∈ held) (hb : route.settings.Blank)
    (hn : ∀ step ∈ steps, step.narrows = true) (hpath : steps.countP RouteStep.setsPath ≤ 1)
    (hhost : steps.countP RouteStep.setsHost ≤ 1) (hp : steps.Perm others) :
    let first := (applyEach steps route w).1
    let second := (applyEach others route w).1
    first.info.inert = second.info.inert ∧
      ∀ request, (first.evaluate request).Like Found.Like (second.evaluate request) := by
  intro first second
  have inert : first.info.inert = true → second.info.inert = true →
      first.info.inert = second.info.inert ∧
        ∀ request, (first.evaluate request).Like Found.Like (second.evaluate request) := by
    intro hfirst hsecond
    refine ⟨hfirst.trans hsecond.symm, fun request => ?_⟩
    rw [evaluate_of_inert hfirst, evaluate_of_inert hsecond]
    exact .notFound
  cases hlive : route.info.inert with
  | true => exact inert (inert_applyEach hlive) (inert_applyEach hlive)
  | false =>
    have hs := made.steady hc
    have hspaced : ∀ given : List RouteStep, steps.Perm given → route.settings.Spaced given := by
      intro given hp
      refine ⟨?_, ?_⟩
      · rw [hb.path, ← hp.countP_eq]
        simpa using hpath
      · rw [hb.host, ← hp.countP_eq]
        simpa using hhost
    obtain ⟨hall, hsome⟩ := applyEach_took hn hs hlive (hspaced steps (.refl _))
    obtain ⟨hall', hsome'⟩ := applyEach_took (fun step hm => hn step (hp.mem_iff.2 hm)) hs hlive
      (hspaced others hp)
    have hparts : (route.parts steps).Perm (route.parts others) := hp.flatMap_right _
    by_cases hfits : route.settings.Fits (route.parts steps)
    · have hfirst := hall hfits
      have hsecond := hall' ((hb.fits_perm hparts).1 hfits)
      refine ⟨(congrArg (·.info.inert) hfirst).trans (congrArg (·.info.inert) hsecond).symm,
        fun request => ?_⟩
      have hfree : route.settings.Free ((route.parts steps).filterMap id) :=
        (hspaced steps (.refl _)).free _ _
      have hrearranged := Settings.rearranged_gainAll hfree (hparts.filterMap id)
      have hlike := like_evaluate hrearranged (hb.distinct hfits) route request
      rwa [← hfirst, ← hsecond] at hlike
    · exact inert (hsome hfits) (hsome' (mt (hb.fits_perm hparts).2 hfits))

def unnarrowed : Route := .mk (.ofSettings .initial) (some .notFound) [] none

/-- The methods that both sets have, a path and a query, forwards and backwards. -/
theorem configure_backwards :
    let steps : List RouteStep := [.path "/\x7ba\x7d".toList,
      .queries ["k".toList, "\x7bb\x7d".toList], .methods [.get, .post], .methods [.get]]
    let first := (applyEach steps unnarrowed .initial).1
    let second := (applyEach steps.reverse unnarrowed .initial).1
    first.info.inert = false ∧ second.info.inert = false ∧
      ∀ request, (first.evaluate request).Like Found.Like (second.evaluate request) := by
  intro steps first second
  have made : Compiler.Made [.standard] .initial := .standard .initial
  have hc : unnarrowed.settings.compiler ∈ [Compiler.standard] := List.mem_cons_self
  obtain ⟨hinert, hlike⟩ := configure_in_any_order made hc ⟨rfl, rfl, rfl, rfl⟩
    (by decide) (by decide) (by decide) (List.reverse_perm steps).symm
  have hfirst : first.info.inert = false := by decide +kernel
  exact ⟨hfirst, hinert.symm.trans hfirst, hlike⟩

end Route
end HttpRouter
