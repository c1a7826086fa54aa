import HttpRouter.Proofs.Router.AllowedMethods

set_option autoImplicit false

namespace HttpRouter

mutual

def Route.prune (drop : RouteInfo → Bool) : Route → Route
  | .mk info handler middleware none => .mk info handler middleware none
  | .mk info handler middleware (some router) =>
    .mk info handler middleware (some (Router.prune drop router))

def Router.prune (drop : RouteInfo → Bool) : Router → Router
  | ⟨routes, middleware, notFound, methodNotAllowed, settings, scope⟩ =>
    ⟨Router.pruneRoutes drop routes, middleware, notFound, methodNotAllowed, settings, scope⟩

def Router.pruneRoutes (drop : RouteInfo → Bool) : List Route → List Route
  | [] => []
  | route :: rest =>
    if drop route.info then Router.pruneRoutes drop rest
    else Route.prune drop route :: Router.pruneRoutes drop rest

end

variable {drop : RouteInfo → Bool}

theorem Router.pruneRoutes_eq (routes : List Route) :
    Router.pruneRoutes drop routes
      = (routes.filter fun route => !drop route.info).map (Route.prune drop) := by
  induction routes with
  | nil => rfl
  | cons route rest ih =>
    rw [pruneRoutes, List.filter_cons]
    cases drop route.info with
    | true => simpa using ih
    | false => simpa using ih

theorem Router.prune_eq (router : Router) :
    router.prune drop = { router with
      routes := (router.routes.filter fun route => !drop route.info).map (Route.prune drop) } := by
  obtain ⟨routes, middleware, notFound, methodNotAllowed, settings, scope⟩ := router
  rw [prune, pruneRoutes_eq]

namespace Route

theorem prune_mk (info : RouteInfo) (handler : Option Handler) (middleware : List Middleware)
    (subrouter : Option Router) :
    (Route.mk info handler middleware subrouter).prune drop
      = .mk info handler middleware (subrouter.map (Router.prune drop)) := by
  cases subrouter <;> rfl

theorem info_prune (route : Route) : (route.prune drop).info = route.info := by
  obtain ⟨info, handler, middleware, subrouter⟩ := route
  rw [prune_mk]
  rfl

theorem subrouter?_prune (route : Route) :
    (route.prune drop).subrouter? = route.subrouter?.map (Router.prune drop) := by
  obtain ⟨info, handler, middleware, subrouter⟩ := route
  rw [prune_mk]
  rfl

end Route

namespace Outcome

def prune (drop : RouteInfo → Bool) (outcome : Outcome) : Outcome :=
  outcome.mapFound fun found => { found with scopes := found.scopes.map (Router.prune drop) }

theorem mapFound_mapFound (f g : Found → Found) (outcome : Outcome) :
    (outcome.mapFound f).mapFound g = outcome.mapFound fun found => g (f found) := by
  cases outcome with
  | redirect location found => cases found <;> rfl
  | matched | methodMismatch | notFound => rfl

theorem isFound_mapFound (f : Found → Found) (outcome : Outcome) :
    (outcome.mapFound f).isFound = outcome.isFound := by
  cases outcome <;> rfl

theorem isNotFound_mapFound (f : Found → Found) (outcome : Outcome) :
    (outcome.mapFound f).isNotFound = outcome.isNotFound := by
  cases outcome <;> rfl

end Outcome

namespace Route

section
variable {f : Found → Found}
  (fill : ∀ (found : Found) (vars : Vars), f { found with vars := found.vars.fillFrom vars }
    = { f found with vars := (f found).vars.fillFrom vars })
include fill

theorem delegate_mapFound (info : RouteInfo) (vars : Vars) (wrong : Bool) (below : Outcome) :
    delegate info vars wrong (below.mapFound f) = (delegate info vars wrong below).mapFound f := by
  simp only [delegate, Outcome.isFound_mapFound]
  split
  · rfl
  · rw [Outcome.mapFound_mapFound, Outcome.mapFound_mapFound]
    simp only [fill]

/-- Routes with the same matchers come to the same outcome, but for what is done to the route that
was found, if their answers and the routers below them do. -/
theorem evaluate_mapFound {change : Router → Router} {request : Request} {info : RouteInfo}
    {handler other : Option Handler} {middleware wares : List Middleware}
    {subrouter : Option Router}
    (answer : ∀ vars, (Route.mk info other wares none).answer request vars
      = ((Route.mk info handler middleware none).answer request vars).mapFound f)
    (below : ∀ child, subrouter = some child →
      (change child).scan request = (child.scan request).mapFound f) :
    (Route.mk info other wares (subrouter.map change)).evaluate request
      = ((Route.mk info handler middleware subrouter).evaluate request).mapFound f := by
  rw [Route.evaluate, Route.evaluate]
  split
  · rfl
  · cases Settings.judge request info.settings.matchers .empty false with
    | none => rfl
    | some judged =>
      obtain ⟨vars, wrong⟩ := judged
      cases subrouter with
      | some router =>
        simp only [Option.map_some]
        rw [below router rfl, delegate_mapFound fill]
      | none =>
        cases wrong with
        | true => rfl
        | false => exact answer vars

end

theorem prune_answer (route : Route) (request : Request) (vars : Vars) :
    (route.answer request vars).prune drop = route.answer request vars := by
  unfold answer
  cases route.handler? with
  | none => rfl
  | some handler => cases route.settings.slashRedirect? request <;> rfl

/-- Pruning below a route makes no difference to it if it makes none to the router there. -/
theorem evaluate_prune (request : Request) (route : Route)
    (below : ∀ child, route.subrouter? = some child →
      (child.prune drop).scan request = (child.scan request).prune drop) :
    (route.prune drop).evaluate request = (route.evaluate request).prune drop := by
  obtain ⟨info, handler, middleware, subrouter⟩ := route
  rw [prune_mk]
  exact evaluate_mapFound (fun _ _ => rfl) (fun vars => (prune_answer _ request vars).symm) below

end Route

def Dead (drop : RouteInfo → Bool) : Prop :=
  ∀ info, drop info = true → info.active = false

theorem Dead.evaluate (hd : Dead drop) {route : Route} (h : drop route.info = true)
    (request : Request) : route.evaluate request = .notFound := by
  obtain ⟨info, handler, middleware, subrouter⟩ := route
  exact Route.evaluate_of_inactive (hd info h) handler middleware subrouter

theorem dead_inert : Dead (·.inert) := fun info h => by
  have hi : info.inert = true := h
  rw [RouteInfo.active, hi, Bool.not_true, Bool.and_false]

theorem dead_buildOnly : Dead (·.buildOnly) := fun info h => by
  have hb : info.buildOnly = true := h
  rw [RouteInfo.active, hb, Bool.not_true, Bool.false_and]

namespace Router

theorem scanRoutes_prune (hd : Dead drop) (request : Request) {routes : List Route}
    (h : ∀ route ∈ routes,
      (route.prune drop).evaluate request = (route.evaluate request).prune drop)
    (allowed : List Method) :
    scanRoutes request allowed (pruneRoutes drop routes)
      = (scanRoutes request allowed routes).prune drop := by
  induction routes generalizing allowed with
  | nil => cases allowed <;> rfl
  | cons route rest ih =>
    have hr := fun allowed => ih (fun other ho => h other (List.mem_cons_of_mem route ho)) allowed
    rw [pruneRoutes]
    split
    · rename_i hdrop
      rw [scanRoutes, hd.evaluate hdrop, hr]
    · rw [scanRoutes, scanRoutes, h route List.mem_cons_self]
      cases route.evaluate request with
      | notFound => exact hr allowed
      | methodMismatch methods => exact hr (unite allowed methods)
      | matched found => rfl
      | redirect location found => rfl

theorem scan_prune (hd : Dead drop) (request : Request) (router : Router) :
    (router.prune drop).scan request = (router.scan request).prune drop := by
  induction router using tree_induction with
  | step router ih =>
    have hs := scanRoutes_prune hd request
      (fun route hr => Route.evaluate_prune request route (ih route hr)) []
    obtain ⟨routes, middleware, notFound, methodNotAllowed, settings, scope⟩ := router
    rw [prune, scan, scan, hs]
    simp only [Outcome.prune, Outcome.mapFound_mapFound, List.map_append, List.map_cons,
      List.map_nil, prune]

/-- Dispatch does not see routes that never answer. -/
theorem resolve_prune (hd : Dead drop) (router : Router) (request : Request) :
    (router.prune drop).resolve request = (router.resolve request).prune drop := by
  have hs : (router.prune drop).settings = router.settings := by rw [prune_eq]
  simp only [resolve, hs]
  split
  · rfl
  · exact scan_prune hd request router

theorem allowedFrom_prune (hd : Dead drop) (request : Request) (routes : List Route)
    (allowed : List Method) :
    allowedFrom request allowed (pruneRoutes drop routes) = allowedFrom request allowed routes := by
  induction routes generalizing allowed with
  | nil => rfl
  | cons route rest ih =>
    rw [pruneRoutes]
    split
    · rename_i hdrop
      rw [allowedFrom, hd.evaluate hdrop, ih]
      simp [Outcome.isNotFound]
    · have he := Route.evaluate_prune request route fun child _ => scan_prune hd request child
      have hm : (route.prune drop).methods = route.methods := by
        rw [Route.methods, Route.settings, Route.info_prune]
        rfl
      rw [allowedFrom, allowedFrom, Route.subrouter?_prune, Option.isSome_map, he,
        Outcome.prune, Outcome.isNotFound_mapFound, hm]
      simp only [ih]

theorem allowedMethods_prune (hd : Dead drop) (router : Router) (request : Request) :
    (router.prune drop).allowedMethods request = router.allowedMethods request := by
  obtain ⟨routes, middleware, notFound, methodNotAllowed, settings, scope⟩ := router
  exact allowedFrom_prune hd request routes []

theorem liveRoutes_prune (router : Router) :
    (router.prune (·.inert)).liveRoutes = router.liveRoutes.map (Route.prune (·.inert)) := by
  rw [prune_eq, liveRoutes, liveRoutes, List.filter_map]
  refine congrArg _ ?_
  have hlive : (fun route : Route => route.info.live) ∘ Route.prune (·.inert)
      = fun route => route.info.live := by
    funext route
    rw [Function.comp, Route.info_prune]
  rw [hlive, List.filter_filter]
  simp [RouteInfo.live]

theorem getFrom?_prune (name : Text) {routes : List Route}
    (h : ∀ route ∈ routes,
      (route.prune (·.inert)).find? name = (route.find? name).map (Route.prune (·.inert))) :
    getFrom? name (pruneRoutes (·.inert) routes)
      = (getFrom? name routes).map (Route.prune (·.inert)) := by
  induction routes with
  | nil => rfl
  | cons route rest ih =>
    have hr := ih fun other ho => h other (List.mem_cons_of_mem route ho)
    rw [pruneRoutes, getFrom?]
    cases hi : route.info.inert with
    | true => exact hr
    | false =>
      simp only [Bool.false_eq_true, if_false]
      rw [getFrom?, Route.info_prune, hi, h route List.mem_cons_self, hr]
      cases route.find? name <;> rfl

theorem get?_prune (name : Text) (router : Router) :
    (router.prune (·.inert)).get? name = (router.get? name).map (Route.prune (·.inert)) := by
  induction router using tree_induction with
  | step router ih =>
    have hfind : ∀ route ∈ router.routes,
        (route.prune (·.inert)).find? name = (route.find? name).map (Route.prune (·.inert)) := by
      intro route hr
      have hbelow := ih route hr
      obtain ⟨info, handler, middleware, subrouter⟩ := route
      cases subrouter with
      | none =>
        rw [Route.prune, Route.find?]
        split <;> simp [Route.prune]
      | some child =>
        rw [Route.prune, Route.find?, Route.find?]
        split
        · simp [Route.prune]
        · exact hbelow child rfl
    have hroutes := getFrom?_prune name hfind
    obtain ⟨routes, middleware, notFound, methodNotAllowed, settings, scope⟩ := router
    exact hroutes

end Router
end HttpRouter
