import HttpRouter.Proofs.Route.Growth
import HttpRouter.Proofs.Route.Ownership

set_option autoImplicit false

namespace HttpRouter

namespace Route

def patternsAdded (route : Route) (template : Text) (kind : Pattern.Kind) (w : Workshop) :
    List Matcher :=
  (route.settings.offer template kind w).1.toOption.toList.map Pattern.matcher

/-- The patterns before the first that fails. -/
def queriesAdded : List (Text × Text) → Route → Workshop → List Matcher
  | [], _, _ => []
  | (key, value) :: rest, route, w =>
    route.patternsAdded (key ++ '=' :: value) .query w ++
      match route.addPattern (key ++ '=' :: value) .query w with
      | ((.error _, _), _) => []
      | ((.ok (), route), w) => queriesAdded rest route w

def addedWithPairs (texts : List Text) (adds : List (Text × Text) → List Matcher) : List Matcher :=
  match pairUp texts with
  | .error _ => []
  | .ok pairs => adds pairs

def added (step : RouteStep) (route : Route) (w : Workshop) : List Matcher :=
  match step with
  | .path template => route.patternsAdded template .path w
  | .pathStart template => route.patternsAdded template .pathStart w
  | .host template => route.patternsAdded template .host w
  | .queries texts => addedWithPairs texts (queriesAdded · route w)
  | .headers texts => addedWithPairs texts fun pairs => [.headers pairs]
  | .headerExpressions texts => addedWithPairs texts fun pairs =>
    (compileHeaders route.settings.compiler pairs w).1.toOption.toList.map .headerExpressions
  | .methods accepted => [.methods accepted]
  | .schemes accepted => [.schemes (accepted.map Text.lower)]
  | .custom holds => [.custom holds]
  | .handler _ | .name _ | .buildOnly | .metadata _ _ | .use _ => []

def addedAll : List RouteStep → Route → Workshop → List Matcher
  | [], _, _ => []
  | step :: rest, route, w =>
    route.added step w ++
      match route.apply step w with
      | ((.error _, _), _) => []
      | ((.ok (), route), w) => addedAll rest route w

theorem matchers_addPattern (route : Route) (template : Text) (kind : Pattern.Kind)
    (w : Workshop) : (route.addPattern template kind w).1.2.settings.matchers
      = Settings.insertAll (route.patternsAdded template kind w) route.settings.matchers := by
  rw [addPattern, patternsAdded, Settings.addPattern_eq]
  generalize route.settings.offer template kind w = offered
  obtain ⟨answer, after⟩ := offered
  cases answer with
  | error e => rfl
  | ok p => exact Settings.adopt_matchers_eq route.settings p

theorem matchers_addQueries (pairs : List (Text × Text)) (route : Route) (w : Workshop) :
    (addQueries pairs route w).1.2.settings.matchers
      = Settings.insertAll (queriesAdded pairs route w) route.settings.matchers := by
  induction pairs generalizing route w with
  | nil => rfl
  | cons pair rest ih =>
    obtain ⟨key, value⟩ := pair
    have ha := route.matchers_addPattern (key ++ '=' :: value) .query w
    rw [addQueries, queriesAdded, Settings.insertAll_append, ← ha]
    generalize route.addPattern (key ++ '=' :: value) .query w = result
    obtain ⟨⟨answer, next⟩, after⟩ := result
    cases answer with
    | error e => rfl
    | ok _ => exact ih next after

theorem matchers_addHeaderExpressions (pairs : List (Text × Text)) (route : Route) (w : Workshop) :
    (addHeaderExpressions pairs route w).1.2.settings.matchers
      = Settings.insertAll ((compileHeaders route.settings.compiler pairs w).1.toOption.toList.map
          .headerExpressions) route.settings.matchers := by
  rw [addHeaderExpressions]
  generalize compileHeaders route.settings.compiler pairs w = compiled
  obtain ⟨answer, after⟩ := compiled
  cases answer <;> rfl

theorem matchers_withPairs {step : List (Text × Text) → Route → Build (Except Error Unit × Route)}
    {route : Route} {w : Workshop} {adds : List (Text × Text) → List Matcher}
    (hs : ∀ pairs, (step pairs route w).1.2.settings.matchers
      = Settings.insertAll (adds pairs) route.settings.matchers) (texts : List Text) :
    (withPairs texts route step w).1.2.settings.matchers
      = Settings.insertAll (addedWithPairs texts adds) route.settings.matchers := by
  rw [withPairs, addedWithPairs]
  cases pairUp texts with
  | error e => rfl
  | ok pairs => exact hs pairs

theorem matchers_apply (step : RouteStep) (route : Route) (w : Workshop) :
    (Route.apply step route w).1.2.settings.matchers
      = Settings.insertAll (route.added step w) route.settings.matchers := by
  cases step with
  | path template => exact matchers_addPattern route template .path w
  | pathStart template => exact matchers_addPattern route template .pathStart w
  | host template => exact matchers_addPattern route template .host w
  | queries texts => exact matchers_withPairs (matchers_addQueries · route w) texts
  | headers texts => exact matchers_withPairs (fun _ => rfl) texts
  | headerExpressions texts =>
    exact matchers_withPairs (matchers_addHeaderExpressions · route w) texts
  | methods | schemes | custom => rfl
  | handler | name | buildOnly | metadata | use => rfl

theorem matchers_applyAll (steps : List RouteStep) (route : Route) (w : Workshop) :
    (applyAll steps route w).1.2.settings.matchers
      = Settings.insertAll (addedAll steps route w) route.settings.matchers := by
  induction steps generalizing route w with
  | nil => rfl
  | cons step rest ih =>
    have ha := matchers_apply step route w
    rw [applyAll, addedAll, Settings.insertAll_append, ← ha]
    generalize Route.apply step route w = result
    obtain ⟨⟨answer, next⟩, after⟩ := result
    cases answer with
    | error e => rfl
    | ok _ => exact ih next after

end Route
end HttpRouter
