import HttpRouter.Proofs.Router.Pruning

set_option autoImplicit false

/-!
# Outlines of trees

The outline of a tree forgets what its routes and routers do once dispatch has decided: the
middleware, the fallbacks, and which handlers there are.  Dispatch decides on the outline what it
decides on the tree, so that trees of one outline are told apart by none of its decisions.
-/
namespace HttpRouter

mutual

/-- One handler stands for all.  Scopes are renamed, so that they may be forgotten too. -/
def Route.outline (rename : ScopeId → ScopeId) : Route → Route
  | .mk info handler _ none => .mk info (handler.map fun _ => .notFound) [] none
  | .mk info handler _ (some router) =>
    .mk info (handler.map fun _ => .notFound) [] (some (Router.outline rename router))

def Router.outline (rename : ScopeId → ScopeId) : Router → Router
  | ⟨routes, _, _, _, settings, scope⟩ =>
    ⟨Router.outlineRoutes rename routes, [], none, none, settings, rename scope⟩

def Router.outlineRoutes (rename : ScopeId → ScopeId) : List Route → List Route
  | [] => []
  | route :: rest => Route.outline rename route :: Router.outlineRoutes rename rest

end

variable {rename : ScopeId → ScopeId}

namespace Route

theorem outline_mk (info : RouteInfo) (handler : Option Handler) (middleware : List Middleware)
    (subrouter : Option Router) :
    (Route.mk info handler middleware subrouter).outline rename
      = .mk info (handler.map fun _ => .notFound) [] (subrouter.map (Router.outline rename)) := by
  cases subrouter <;> rfl

theorem info_outline (route : Route) : (route.outline rename).info = route.info := by
  obtain ⟨info, handler, middleware, subrouter⟩ := route
  rw [outline_mk]
  rfl

theorem subrouter?_outline (route : Route) :
    (route.outline rename).subrouter? = route.subrouter?.map (Router.outline rename) := by
  obtain ⟨info, handler, middleware, subrouter⟩ := route
  rw [outline_mk]
  rfl

end Route

namespace Found

def outline (rename : ScopeId → ScopeId) (found : Found) : Found :=
  ⟨found.route.outline rename, found.vars, .notFound, found.scopes.map (Router.outline rename)⟩

end Found

namespace Outcome

def outline (rename : ScopeId → ScopeId) (outcome : Outcome) : Outcome :=
  outcome.mapFound (Found.outline rename)

end Outcome

namespace Route

theorem outline_answer (info : RouteInfo) (handler : Option Handler)
    (middleware : List Middleware) (request : Request) (vars : Vars) :
    ((Route.mk info handler middleware none).outline rename).answer request vars
      = ((Route.mk info handler middleware none).answer request vars).outline rename := by
  rw [outline_mk]
  cases handler with
  | none => rfl
  | some handler =>
    simp only [answer, handler?, settings, Route.info, Option.map_some, Option.map_none]
    cases info.settings.slashRedirect? request <;> rfl

/-- A route decides on its outline what it decides itself, if the router below it does. -/
theorem evaluate_outline (request : Request) (route : Route)
    (below : ∀ child, route.subrouter? = some child →
      (child.outline rename).scan request = (child.scan request).outline rename) :
    (route.outline rename).evaluate request = (route.evaluate request).outline rename := by
  obtain ⟨info, handler, middleware, subrouter⟩ := route
  rw [outline_mk]
  exact evaluate_mapFound (fun _ _ => rfl) (outline_answer info handler middleware request) below

end Route

namespace Router

theorem scanRoutes_outline (request : Request) {routes : List Route}
    (h : ∀ route ∈ routes,
      (route.outline rename).evaluate request = (route.evaluate request).outline rename)
    (allowed : List Method) :
    scanRoutes request allowed (outlineRoutes rename routes)
      = (scanRoutes request allowed routes).outline rename := by
  induction routes generalizing allowed with
  | nil => cases allowed <;> rfl
  | cons route rest ih =>
    have hr := fun allowed => ih (fun other ho => h other (List.mem_cons_of_mem route ho)) allowed
    rw [outlineRoutes, scanRoutes, scanRoutes, h route List.mem_cons_self]
    cases route.evaluate request with
    | notFound => exact hr allowed
    | methodMismatch methods => exact hr (unite allowed methods)
    | matched found => rfl
    | redirect location found => rfl

theorem scan_outline (rename : ScopeId → ScopeId) (request : Request) (router : Router) :
    (router.outline rename).scan request = (router.scan request).outline rename := by
  induction router using tree_induction with
  | step router ih =>
    have hs := scanRoutes_outline request
      (fun route hr => Route.evaluate_outline request route (ih route hr)) []
    obtain ⟨routes, middleware, notFound, methodNotAllowed, settings, scope⟩ := router
    rw [outline, scan, scan, hs]
    simp only [Outcome.outline, Outcome.mapFound_mapFound, Found.outline, List.map_append,
      List.map_cons, List.map_nil, outline]

theorem outline_eq (router : Router) :
    router.outline rename = ⟨outlineRoutes rename router.routes, [], none, none, router.settings,
      rename router.scope⟩ := by
  obtain ⟨routes, middleware, notFound, methodNotAllowed, settings, scope⟩ := router
  rfl

/-- Dispatch decides on the outline of a tree what it decides on the tree. -/
theorem resolve_outline (rename : ScopeId → ScopeId) (router : Router) (request : Request) :
    (router.outline rename).resolve request = (router.resolve request).outline rename := by
  have hs : (router.outline rename).settings = router.settings := by rw [outline_eq]
  simp only [resolve, hs]
  split
  · rfl
  · exact scan_outline rename request router

theorem resolve_of_outline_eq {router other : Router}
    (h : other.outline rename = router.outline rename) (request : Request) :
    (other.resolve request).outline rename = (router.resolve request).outline rename := by
  rw [← resolve_outline, h, resolve_outline]

theorem allowedFrom_outline (request : Request) (routes : List Route) (allowed : List Method) :
    allowedFrom request allowed (outlineRoutes rename routes)
      = allowedFrom request allowed routes := by
  induction routes generalizing allowed with
  | nil => rfl
  | cons route rest ih =>
    have he := Route.evaluate_outline request route fun child _ =>
      scan_outline rename request child
    have hm : (route.outline rename).methods = route.methods := by
      rw [Route.methods, Route.settings, Route.info_outline]
      rfl
    rw [outlineRoutes, allowedFrom, allowedFrom, Route.subrouter?_outline, Option.isSome_map, he,
      Outcome.outline, Outcome.isNotFound_mapFound, hm]
    simp only [ih]

theorem allowedMethods_outline (router : Router) :
    (router.outline rename).allowedMethods = router.allowedMethods := by
  funext request
  rw [outline_eq]
  exact allowedFrom_outline request router.routes []

end Router
end HttpRouter
