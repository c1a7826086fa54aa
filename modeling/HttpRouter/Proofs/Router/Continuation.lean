import HttpRouter.Proofs.Route.Continuation
import HttpRouter.Proofs.Router.Chronicle
import HttpRouter.Proofs.Router.OwnTemplates
import HttpRouter.Proofs.Router.Redirects

set_option autoImplicit false

namespace HttpRouter

namespace RouteStep

def pathText? : RouteStep → Option Text
  | path text | pathStart text => some text
  | _ => none

theorem within_pathless {step : RouteStep} (h : step.pathText? = none) :
    step.Within (·.isBare = true) (·.rank ≠ 2) := by
  cases step with
  | path | pathStart => cases h
  | host | queries => exact nofun
  | headers | headerExpressions => exact fun _ => rfl
  | methods | schemes | custom => rfl
  | handler | name | buildOnly | metadata | use => trivial

end RouteStep

namespace Route

variable {texts : List Text} {route : Route}

theorem continues_pathless (h : route.settings.Continues texts) (ho : route.settings.Owned)
    {step : RouteStep} (hs : step.pathText? = none) (w : Workshop) :
    (Route.apply step route w).1.2.settings.Continues
      (texts ++ (route.done step w).filterMap RouteStep.pathText?) := by
  have hm := (apply_configured (RouteStep.within_pathless hs) route w).moves
  obtain ⟨hpaths, hpath⟩ := hm.paths_eq ho
  have hd : (route.done step w).filterMap RouteStep.pathText? = [] := by
    unfold done
    split
    · exact List.filterMap_cons_none hs
    · rfl
  rw [hd, List.append_nil]
  exact h.congr hpaths hpath

theorem continues_path (h : route.settings.Continues texts) (ho : route.settings.Owned)
    {step : RouteStep} {text : Text} {kind : Pattern.Kind} (hk : kind.rank = 2)
    (ha : Route.apply step route = route.addPattern text kind) (hs : step.pathText? = some text)
    (w : Workshop) :
    (Route.apply step route w).1.2.settings.Continues
      (texts ++ (route.done step w).filterMap RouteStep.pathText?) := by
  rw [done, ha, Route.addPattern]
  cases hp : route.settings.addPattern text kind w with
  | mk answer w' =>
    cases answer with
    | error e =>
      rw [List.filterMap_nil, List.append_nil]
      exact h
    | ok after =>
      rw [List.filterMap_cons_some hs]
      exact h.addPattern ho hk hp

theorem continues_apply (h : route.settings.Continues texts) (ho : route.settings.Owned)
    (step : RouteStep) (w : Workshop) :
    (Route.apply step route w).1.2.settings.Continues
      (texts ++ (route.done step w).filterMap RouteStep.pathText?) := by
  cases hs : step.pathText? with
  | none => exact continues_pathless h ho hs w
  | some text =>
    cases step with
    | path template => exact continues_path h ho rfl rfl rfl w
    | pathStart template => exact continues_path h ho rfl rfl rfl w
    | _ => cases hs

end Route

/-- Owners of variables, with the paths to which the steps lead. -/
theorem Settings.continues_kept : Chronicle.Kept fun past s =>
    s.Owned ∧ s.Continues (past.filterMap RouteStep.pathText?) where
  initial := ⟨.initial, .initial⟩
  configured past step router h := by
    refine ⟨owned_invariant.configured router step h.1, ?_⟩
    cases step <;> exact h.2.congr rfl rfl
  applied past step route w h := by
    rw [List.filterMap_append]
    exact ⟨Route.apply_owned step h.1 w, Route.continues_apply h.2 h.1 step w⟩

namespace Router

open Settings (withQuery)

/-- Every path of a route in the tree goes on where the one before it ends, without the slashes
there, with the text of the call that added it, and has its variables first.  The last one is the
current path, of which the route shows the template and which asks for redirects to its slash. -/
theorem path_templates_extend (calls : List Call) (scope : ScopeId) (w : Workshop)
    {outer : List Nat} {place : Nat} {route : Route}
    (hr : (after calls (.ofSettings .initial scope) w).routeAt? outer place = some route) :
    ∃ past, ((Chronicle.opened []).recordAll calls (.ofSettings .initial scope) w).stepsAt?
        outer place = some past ∧
      route.settings.Continues (past.filterMap RouteStep.pathText?) ∧
      route.info.pathTemplate?
        = (Text.continued [] (past.filterMap RouteStep.pathText?)).getLast? ∧
      ∀ request location, route.settings.slashRedirect? request = some location ↔
        (∃ p wanted, route.settings.paths.getLast? = some p ∧ p.wantsSlash? = some wanted ∧
          wanted ≠ Text.endsWith request.path '/') ∧
        location = withQuery (Path.turn request.path) request.query := by
  obtain ⟨past, hpast, -, hc⟩ := Settings.continues_kept.routeAt? calls scope w hr
  refine ⟨past, hpast, hc, ?_, fun request location => ?_⟩
  · rw [← hc.templates, List.getLast?_map, ← hc.current]
    rfl
  · rw [← hc.current]
    exact route.settings.slashRedirect?_eq_some request location

def prefixesBelow : List Call :=
  [.configure (.strictSlash true), .register [.pathStart "/a/{x:[a-z]{1,3}}//".toList],
    .delegate 0, .inside 0 (.register [.methods [.get], .pathStart "/b/".toList]),
    .inside 0 (.route 0 (.path "no slash".toList)), .inside 0 (.delegate 0),
    .inside 0 (.inside 0 (.register [.path "/{y}/".toList]))]

theorem prefixesBelow_extended :
    ∃ route,
      (after prefixesBelow (.ofSettings .initial 0) .initial).routeAt? [0, 0] 0 = some route ∧
      route.settings.Continues ["/a/{x:[a-z]{1,3}}//".toList, "/b/".toList, "/{y}/".toList] ∧
      route.info.pathTemplate? = some "/a/{x:[a-z]{1,3}}/b/{y}/".toList := by
  have hs : (((Chronicle.opened []).recordAll prefixesBelow (.ofSettings .initial 0)
      .initial).stepsAt? [0, 0] 0).map (·.filterMap RouteStep.pathText?)
      = some ["/a/{x:[a-z]{1,3}}//".toList, "/b/".toList, "/{y}/".toList] := by decide +kernel
  have hr : ((after prefixesBelow (.ofSettings .initial 0) .initial).routeAt? [0, 0] 0).isSome
      = true := by decide +kernel
  obtain ⟨route, hr⟩ := Option.isSome_iff_exists.1 hr
  obtain ⟨past, hpast, hc, ht, -⟩ := path_templates_extend prefixesBelow 0 .initial hr
  rw [hpast] at hs
  have htexts : past.filterMap RouteStep.pathText? = _ := Option.some.inj hs
  rw [htexts] at hc ht
  exact ⟨route, hr, hc, ht⟩

end Router
end HttpRouter
