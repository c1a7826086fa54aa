import HttpRouter.Proofs.Route.Prefixes
import HttpRouter.Proofs.Router.AllowedMethods

set_option autoImplicit false

namespace HttpRouter

structure Seen where
  template : Option Text
  vars : Vars
  handler : Handler

def Found.seen (found : Found) : Seen :=
  ⟨found.route.info.pathTemplate?, found.vars, found.handler⟩

inductive Summary where
  | matched (seen : Seen)
  | methodMismatch (allowed : List Method)
  | redirect (location : Text) (seen : Option Seen)
  | notFound

namespace Summary

def alone : Summary → Summary
  | methodMismatch allowed =>
    match unite [] allowed with
    | [] => notFound
    | first :: others => methodMismatch (first :: others)
  | other => other

theorem alone_alone (summary : Summary) : summary.alone.alone = summary.alone := by
  cases summary with
  | methodMismatch allowed =>
    have hu : unite [] (unite [] allowed) = unite [] allowed := unite_unite [] [] allowed
    simp only [alone]
    cases ha : unite [] allowed with
    | nil => rfl
    | cons first others =>
      rw [ha] at hu
      simp only [hu]
  | _ => rfl

def Binds (names : List Text) : Summary → Prop
  | matched seen => names ⊆ seen.vars.names
  | redirect _ seen => ∀ s ∈ seen, names ⊆ s.vars.names
  | methodMismatch _ | notFound => True

theorem binds_alone {names : List Text} {summary : Summary} (h : summary.Binds names) :
    summary.alone.Binds names := by
  cases summary with
  | methodMismatch allowed =>
    simp only [alone]
    split <;> trivial
  | _ => exact h

end Summary

namespace Outcome

def summary : Outcome → Summary
  | matched found => .matched found.seen
  | methodMismatch allowed => .methodMismatch allowed
  | redirect location found => .redirect location (found.map Found.seen)
  | notFound => .notFound

theorem summary_mapFound {f : Found → Found} (h : ∀ found, (f found).seen = found.seen)
    (outcome : Outcome) : (outcome.mapFound f).summary = outcome.summary := by
  cases outcome with
  | matched found => simp [mapFound, summary, h]
  | redirect location found => cases found <;> simp [mapFound, summary, h]
  | _ => rfl

theorem summary_fillFrom {vars : Vars} {names : List Text} (hv : vars.names ⊆ names)
    {outcome : Outcome} (h : outcome.summary.Binds names) :
    (outcome.mapFound fun found => { found with vars := found.vars.fillFrom vars }).summary
      = outcome.summary := by
  have hf : ∀ found : Found, names ⊆ found.vars.names → found.vars.fillFrom vars = found.vars :=
    fun found hn => Vars.fillFrom_of_subset (List.Subset.trans hv hn)
  cases outcome with
  | matched found => simp [mapFound, summary, Found.seen, hf found h]
  | redirect location found =>
    cases found with
    | none => rfl
    | some found =>
      have hn : names ⊆ found.vars.names := h _ rfl
      simp [mapFound, summary, Found.seen, hf found hn]
  | _ => rfl

end Outcome

theorem Router.summary_scan {router : Router} {route : Route} (h : router.routes = [route])
    (request : Request) :
    (router.scan request).summary = (route.evaluate request).summary.alone := by
  obtain ⟨routes, middleware, notFound, methodNotAllowed, settings, scope⟩ := router
  obtain rfl : routes = [route] := h
  rw [Router.scan, Outcome.summary_mapFound, Router.scanRoutes]
  case h => exact fun _ => rfl
  cases route.evaluate request with
  | methodMismatch allowed =>
    simp only [Router.scanRoutes, Outcome.summary, Summary.alone]
    cases unite [] allowed <;> rfl
  | _ => rfl

namespace Route

variable {prefixes : List Pattern} {q : Pattern} {s t : Settings}

def plain (settings : Settings) (handler : Handler) : Route :=
  mk (.ofSettings settings) (some handler) [] none

theorem evaluate_plain (s : Settings) (handler : Handler) (request : Request) :
    (plain s handler).evaluate request =
      match Settings.judge request s.matchers .empty false with
      | none => .notFound
      | some (vars, wrong) =>
        if wrong then mismatch (.ofSettings s) else (plain s handler).answer request vars := by
  rw [plain, Route.evaluate]
  rfl

theorem summary_behind (h : Settings.Behind prefixes q s t) (hp : ∀ p ∈ prefixes, q.Covers p)
    (hq : ∀ text bindings, q.bindings? text = some bindings → bindings.map Prod.fst = q.names)
    (handler : Handler) (request : Request) :
    ((plain t handler).evaluate request).summary
      = ((plain s handler).evaluate request).summary := by
  have hm : mismatch (.ofSettings t) = mismatch (.ofSettings s) := by
    simp only [mismatch, RouteInfo.ofSettings, h.methods?_eq]
  have hr : t.slashRedirect? request = s.slashRedirect? request := by
    unfold Settings.slashRedirect?
    rw [h.path_eq]
  rw [evaluate_plain, evaluate_plain, h.judge_eq hp hq]
  cases Settings.judge request s.matchers .empty false with
  | none => rfl
  | some judged =>
    obtain ⟨vars, wrong⟩ := judged
    cases wrong with
    | true => simp only [if_true, hm]
    | false =>
      have ht : (plain t handler).info.pathTemplate? = (plain s handler).info.pathTemplate? :=
        congrArg (Option.map Pattern.template) h.path_eq
      have hs : (plain t handler).settings.slashRedirect? request
          = (plain s handler).settings.slashRedirect? request := hr
      simp only [Bool.false_eq_true, if_false, answer]
      rw [hs]
      cases (plain s handler).settings.slashRedirect? request <;>
        simp [plain, handler?, Outcome.summary, Found.seen] <;> exact ht

theorem summary_plain (h : Settings.Behind prefixes q s t)
    (hq : ∀ text bindings, q.bindings? text = some bindings → bindings.map Prod.fst = q.names)
    (handler : Handler) (request : Request) :
    ((plain s handler).evaluate request).summary.Binds q.names ∧
      (q.bindings? request.path = none →
        ((plain s handler).evaluate request).summary = .notFound) := by
  rw [evaluate_plain]
  cases hj : Settings.judge request s.matchers .empty false with
  | none => exact ⟨trivial, fun _ => rfl⟩
  | some judged =>
    obtain ⟨vars, wrong⟩ := judged
    obtain ⟨bindings, hb, hv⟩ := h.judge_eq_some hj
    refine ⟨?_, fun hn => absurd (hn.symm.trans hb) nofun⟩
    have hs : q.names ⊆ vars.names := by
      intro name hn
      rw [← hq request.path bindings hb] at hn
      rw [hv]
      exact Vars.mem_names_insertAll.2 (.inl hn)
    cases wrong with
    | true => trivial
    | false =>
      simp only [Bool.false_eq_true, if_false, answer]
      cases (plain s handler).settings.slashRedirect? request with
      | none => exact hs
      | some location =>
        rintro seen ⟨⟩
        exact hs

/-- A route with nothing but prefixes passes on what becomes of the request below it. -/
theorem summary_prefixed {info : RouteInfo} {child : Router} {request : Request}
    (hl : info.buildOnly = false ∧ info.inert = false)
    (hm : info.settings.matchers = prefixes.map .pathStart) (hp : ∀ p ∈ prefixes, q.Covers p)
    (hb : (child.scan request).summary.Binds q.names)
    (hn : q.bindings? request.path = none → (child.scan request).summary = .notFound)
    (middleware : List Middleware) :
    ((Route.mk info none middleware (some child)).evaluate request).summary
      = (child.scan request).summary := by
  rw [Route.evaluate, hl.1, hl.2, hm]
  cases hq : q.bindings? request.path with
  | none =>
    have ho : child.scan request = .notFound := by
      have hs := hn hq
      cases h : child.scan request <;> rw [h] at hs <;> first | rfl | cases hs
    cases Settings.judge request (prefixes.map .pathStart) .empty false with
    | none => rw [ho]; rfl
    | some judged => simp [ho, delegate, Outcome.isFound, Outcome.mapFound]
  | some bindings =>
    have hs : (q.bindings? request.path).isSome = true := by rw [hq]; rfl
    have he : Vars.empty.names ⊆ q.names := List.nil_subset _
    obtain ⟨vars, hj, hv⟩ := Settings.judge_prefixes hp hs he false
    simp only [Bool.or_self, Bool.false_eq_true, if_false, hj, delegate, Bool.false_and]
    exact Outcome.summary_fillFrom hv hb

end Route
end HttpRouter
