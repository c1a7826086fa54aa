import HttpRouter.Proofs.Router.Pruning

set_option autoImplicit false

/-!
# Vacant routes

A vacant route has neither a handler nor a router below it and answers no request.  Taking such
routes out of a tree never changes which route is found.  The one trace that they leave is in the
report of a wrong method: a vacant route adds its methods there if nothing but the method keeps its
matchers from accepting the request.
-/
namespace HttpRouter

namespace Outcome

def reported : Outcome → List Method
  | methodMismatch methods => methods
  | matched _ | redirect _ _ | notFound => []

end Outcome

namespace Route

def vacant (route : Route) : Bool := route.handler?.isNone && route.subrouter?.isNone

/-- The methods that a vacant route reports, which is none unless only the method of the request is
wrong. -/
def reports (request : Request) (route : Route) : List Method :=
  if Leaf.fits request ⟨route, [], []⟩ && !route.settings.takes request.method then
    route.settings.methods?.getD []
  else []

theorem evaluate_of_vacant {route : Route} (h : route.vacant = true) (request : Request) :
    (route.evaluate request = .notFound ∧ route.reports request = []) ∨
      ∃ methods, route.settings.methods? = some methods ∧
        route.evaluate request = .methodMismatch methods ∧ route.reports request = methods := by
  simp only [vacant, Bool.and_eq_true, Option.isNone_iff_eq_none] at h
  obtain ⟨hh, hs⟩ := h
  obtain ⟨vars, he⟩ := evaluate_of_no_subrouter hs request
  rw [he, reports]
  cases hf : Leaf.fits request ⟨route, [], []⟩ with
  | false => exact .inl ⟨rfl, rfl⟩
  | true =>
    cases ht : route.settings.takes request.method with
    | true =>
      refine .inl ⟨?_, rfl⟩
      simp only [if_true, answer, hh]
    | false =>
      obtain ⟨methods, hm⟩ := Settings.exists_methods_of_not_takes ht
      refine .inr ⟨methods, hm, ?_, ?_⟩
      · change mismatch route.info = _
        rw [mismatch]
        exact congrArg (fun allowed => Outcome.methodMismatch (Option.getD allowed [])) hm
      · rw [hm]
        rfl

theorem reported_of_vacant {route : Route} (h : route.vacant = true) (request : Request) :
    (route.evaluate request).isFound = false ∧
      (route.evaluate request).reported = route.reports request := by
  rcases evaluate_of_vacant h request with ⟨he, hr⟩ | ⟨methods, -, he, hr⟩
  · rw [he, hr]
    exact ⟨rfl, rfl⟩
  · rw [he, hr]
    exact ⟨rfl, rfl⟩

/-- Some routes of a sort are taken out of a list, and out of the routers below its routes. -/
inductive Thinned (sort : Route → Prop) : List Route → List Route → Prop
  | nil : Thinned sort [] []
  | drop {route : Route} {rest thin : List Route} (h : sort route)
      (later : Thinned sort rest thin) : Thinned sort (route :: rest) thin
  | keep (route : Route) {rest thin : List Route} (later : Thinned sort rest thin) :
      Thinned sort (route :: rest) (route :: thin)
  | inside (info : RouteInfo) (handler : Option Handler) (middleware : List Middleware)
      (child : Router) {routes rest thin : List Route} (inner : Thinned sort child.routes routes)
      (later : Thinned sort rest thin) :
      Thinned sort (.mk info handler middleware (some child) :: rest)
        (.mk info handler middleware (some { child with routes := routes }) :: thin)

end Route

namespace Router

def Thins (sort : Route → Prop) (router thin : Router) : Prop :=
  ∃ routes, Route.Thinned sort router.routes routes ∧ thin = { router with routes := routes }

def bare (router : Router) : Router := { router with routes := [] }

end Router

namespace Found

def bare (found : Found) : Found := { found with scopes := found.scopes.map Router.bare }

end Found

namespace Outcome

/-- Reports that are related stay so when related ones are added. -/
structure Additive (rel : List Method → List Method → Prop) : Prop where
  refl : ∀ methods, rel methods methods
  unite : ∀ {full thin more others}, rel full thin → rel more others →
    rel (unite full more) (unite thin others)

theorem additive_eq : Additive (· = ·) where
  refl _ := rfl
  unite h h' := by rw [h, h']

theorem additive_subset : Additive fun full thin => thin ⊆ full where
  refl := List.Subset.refl
  unite h h' method hm := by
    rw [mem_unite] at hm ⊢
    exact hm.imp (@h method) (@h' method)

def bare (outcome : Outcome) : Outcome := outcome.mapFound Found.bare

structure Tallies (rel : List Method → List Method → Prop) (full thin : Outcome) : Prop where
  isFound : thin.isFound = full.isFound
  bare : full.isFound = true → thin.bare = full.bare
  reported : rel full.reported thin.reported

theorem reported_mapFound (f : Found → Found) (outcome : Outcome) :
    (outcome.mapFound f).reported = outcome.reported := by
  cases outcome <;> rfl

namespace Tallies

variable {rel : List Method → List Method → Prop} {full thin : Outcome}

theorem refl (add : Additive rel) (outcome : Outcome) : Tallies rel outcome outcome :=
  ⟨rfl, fun _ => rfl, add.refl _⟩

/-- What is done to the routes that were found may differ as far as `bare` does not see it. -/
theorem mapFound {f g k : Found → Found} (hf : ∀ found : Found, (f found).bare = k found.bare)
    (hg : ∀ found : Found, (g found).bare = k found.bare) (h : Tallies rel full thin) :
    Tallies rel (full.mapFound f) (thin.mapFound g) where
  isFound := by rw [isFound_mapFound, isFound_mapFound, h.isFound]
  bare hfound := by
    have push : ∀ {f : Found → Found}, (∀ found : Found, (f found).bare = k found.bare) →
        ∀ outcome : Outcome, (outcome.mapFound f).bare = outcome.bare.mapFound k := by
      intro f hf outcome
      rw [Outcome.bare, Outcome.bare, mapFound_mapFound, mapFound_mapFound, funext hf]
    rw [isFound_mapFound] at hfound
    rw [push hf, push hg, h.bare hfound]
  reported := by
    rw [reported_mapFound, reported_mapFound]
    exact h.reported

theorem delegate (add : Additive rel) (info : RouteInfo) (vars : Vars) (wrong : Bool)
    (h : Tallies rel full thin) :
    Tallies rel (Route.delegate info vars wrong full) (Route.delegate info vars wrong thin) := by
  unfold Route.delegate
  rw [h.isFound]
  split
  · exact refl add _
  · exact h.mapFound (k := fun found => { found with vars := found.vars.fillFrom vars })
      (fun _ => rfl) fun _ => rfl

end Tallies
end Outcome

namespace Router

theorem scan_eq (request : Request) (router : Router) :
    router.scan request = (scanRoutes request [] router.routes).mapFound fun found =>
      { found with scopes := found.scopes ++ [router] } := by
  obtain ⟨routes, middleware, notFound, methodNotAllowed, settings, scope⟩ := router
  rw [scan]

theorem tallies_scan {rel : List Method → List Method → Prop} {request : Request}
    {router : Router} {routes : List Route}
    (h : Outcome.Tallies rel (scanRoutes request [] router.routes)
      (scanRoutes request [] routes)) :
    Outcome.Tallies rel (router.scan request) (scan request { router with routes := routes }) := by
  rw [scan_eq, scan_eq]
  refine h.mapFound
    (k := fun found => { found with scopes := found.scopes ++ [router.bare] }) ?_ ?_ <;>
  · intro found
    simp [Found.bare, bare]

theorem scanRoutes_cons (request : Request) (known : List Method) (route : Route)
    (rest : List Route) :
    scanRoutes request known (route :: rest) =
      if (route.evaluate request).isFound then route.evaluate request
      else scanRoutes request (unite known (route.evaluate request).reported) rest := by
  rw [scanRoutes]
  cases route.evaluate request <;> rfl

theorem tallies_cons {rel : List Method → List Method → Prop} (add : Outcome.Additive rel)
    {request : Request} {route other : Route} {rest thin : List Route}
    (first : Outcome.Tallies rel (route.evaluate request) (other.evaluate request))
    (later : ∀ known others, rel known others → Outcome.Tallies rel
      (scanRoutes request known rest) (scanRoutes request others thin))
    (known others : List Method) (h : rel known others) :
    Outcome.Tallies rel (scanRoutes request known (route :: rest))
      (scanRoutes request others (other :: thin)) := by
  rw [scanRoutes_cons, scanRoutes_cons, first.isFound]
  split
  · exact first
  · exact later _ _ (add.unite h first.reported)

theorem scanRoutes_of_missed {request : Request} {routes : List Route} {known : List Method}
    (h : (scanRoutes request known routes).isFound = false) :
    scanRoutes request known routes = .ofAllowed (scanRoutes request known routes).reported := by
  induction routes generalizing known with
  | nil => cases known <;> rfl
  | cons route rest ih =>
    rw [scanRoutes_cons] at h ⊢
    split
    · rename_i hf
      rw [if_pos hf, hf] at h
      cases h
    · rename_i hf
      rw [if_neg hf] at h
      exact ih h

/-- A vacant route adds what it reports to the methods that are announced. -/
theorem allowedFrom_cons_of_vacant {route : Route} (h : route.vacant = true) (request : Request)
    (known : List Method) (rest : List Route) :
    allowedFrom request known (route :: rest)
      = allowedFrom request (unite known (route.reports request)) rest := by
  have hs : route.subrouter?.isSome = false := by
    rw [Route.vacant, Bool.and_eq_true] at h
    rw [← Option.not_isNone, h.2]
    rfl
  rw [allowedFrom, hs]
  rcases Route.evaluate_of_vacant h request with ⟨he, hr⟩ | ⟨methods, hm, he, hr⟩
  · rw [he, hr]
    rfl
  · rw [he, hr, Route.methods, Settings.methods, hm]
    rfl

/-- The routers of a tree announce the same if the first one and those below it do. -/
theorem announced_of_below {request : Request} {router : Router} {routes : List Route}
    (here : allowedFrom request [] routes = allowedFrom request [] router.routes)
    (below : (routersOf routes).map (fun router => (router.bare, router.allowedMethods request))
      = (routersOf router.routes).map fun router => (router.bare, router.allowedMethods request)) :
    (routers { router with routes := routes }).map
        (fun router => (router.bare, router.allowedMethods request))
      = router.routers.map fun router => (router.bare, router.allowedMethods request) := by
  have ha : allowedMethods { router with routes := routes } request
      = router.allowedMethods request := here
  rw [routers_eq, routers_eq, List.map_cons, List.map_cons, below, ha]
  rfl

end Router

namespace Route.Thinned

variable {rel : List Method → List Method → Prop} {sort : Route → Prop} {request : Request}
  {routes thin : List Route}

/-- Routes that find nothing can be taken out, as far as their reports may be neglected. -/
theorem tallies (add : Outcome.Additive rel) (silent : ∀ route, sort route →
      (route.evaluate request).isFound = false ∧ rel (route.evaluate request).reported [])
    (h : Thinned sort routes thin) :
    ∀ known others, rel known others → Outcome.Tallies rel
      (Router.scanRoutes request known routes) (Router.scanRoutes request others thin) := by
  -- What was reported before is generalised: a route that is taken out makes it differ.
  induction h with
  | nil =>
    intro known others hk
    cases known <;> cases others <;> exact ⟨rfl, nofun, hk⟩
  | drop hs later ih =>
    intro known others hk
    obtain ⟨hf, hr⟩ := silent _ hs
    rw [Router.scanRoutes_cons, hf]
    exact ih _ _ (add.unite hk hr)
  | keep route later ih => exact Router.tallies_cons add (.refl add _) ih
  | inside info handler middleware child inner later ihinner ih =>
    refine Router.tallies_cons add ?_ ih
    have below := ihinner [] [] (add.refl [])
    rw [Route.evaluate, Route.evaluate]
    split
    · exact .refl add _
    · split
      · exact .refl add _
      · exact .delegate add info _ _ (Router.tallies_scan below)

theorem allowedFrom_eq
    (silent : ∀ route, sort route → route.vacant = true ∧ route.reports request = [])
    (h : Thinned sort routes thin) (known : List Method) :
    Router.allowedFrom request known thin = Router.allowedFrom request known routes := by
  induction h generalizing known with
  | nil => rfl
  | drop hs later ih =>
    obtain ⟨hv, hr⟩ := silent _ hs
    rw [Router.allowedFrom_cons_of_vacant hv, hr, ih]
    rfl
  | keep route later ih =>
    rw [Router.allowedFrom, Router.allowedFrom]
    simp only [ih]
  | inside info handler middleware child inner later ihinner ih =>
    rw [Router.allowedFrom, Router.allowedFrom]
    exact ih known

/-- Routers that keep their places in the tree announce what they did. -/
theorem announced
    (silent : ∀ route, sort route → route.vacant = true ∧ route.reports request = [])
    (h : Thinned sort routes thin) :
    (Router.routersOf thin).map (fun router => (router.bare, router.allowedMethods request))
      = (Router.routersOf routes).map
          fun router => (router.bare, router.allowedMethods request) := by
  induction h with
  | nil => rfl
  | @drop route rest thin hs later ih =>
    have hn : route.routers = [] := by
      have hv := (silent _ hs).1
      obtain ⟨info, handler, middleware, subrouter⟩ := route
      cases subrouter with
      | none => rfl
      | some child => simp [vacant, subrouter?] at hv
    rw [ih, Router.routersOf, hn, List.nil_append]
  | keep route later ih =>
    rw [Router.routersOf, List.map_append, ih, Router.routersOf, List.map_append]
  | @inside info handler middleware child routes rest thin inner later ihinner ih =>
    rw [Router.routersOf, Router.routersOf, List.map_append, List.map_append, ih, Route.routers,
      Route.routers, Router.announced_of_below (inner.allowedFrom_eq silent []) ihinner]

end Route.Thinned

namespace Router

section
variable {router thin : Router} {request : Request}

theorem Thins.tallies {rel : List Method → List Method → Prop} {sort : Route → Prop}
    (add : Outcome.Additive rel) (silent : ∀ route, sort route →
      (route.evaluate request).isFound = false ∧ rel (route.evaluate request).reported [])
    (h : router.Thins sort thin) :
    Outcome.Tallies rel (router.resolve request) (thin.resolve request) := by
  obtain ⟨routes, ht, rfl⟩ := h
  simp only [resolve]
  split
  · exact .refl add _
  · exact tallies_scan (ht.tallies add silent [] [] (add.refl []))

theorem scan_of_not_found (h : (router.scan request).isFound = false) :
    router.scan request = .ofAllowed (router.scan request).reported := by
  rw [scan_eq, Outcome.isFound_mapFound] at h
  rw [scan_eq, Outcome.reported_mapFound]
  refine (congrArg (Outcome.mapFound _) (scanRoutes_of_missed h)).trans ?_
  cases (scanRoutes request [] router.routes).reported <;> rfl

/-- Where the reports are equal, so are the outcomes. -/
theorem bare_of_tallies
    (h : Outcome.Tallies (· = ·) (router.resolve request) (thin.resolve request)) :
    (thin.resolve request).bare = (router.resolve request).bare := by
  cases hf : (router.resolve request).isFound with
  | true => exact h.bare hf
  | false =>
    have ht : (thin.resolve request).isFound = false := h.isFound.trans hf
    have hr := h.reported
    have he := (resolve_withMethod hf).1
    have he' := (resolve_withMethod ht).1
    rw [he] at hf hr ⊢
    rw [he'] at ht hr ⊢
    rw [scan_of_not_found hf, scan_of_not_found ht, hr]

theorem Thins.resolve_of_silent {sort : Route → Prop}
    (silent : ∀ route, sort route → route.vacant = true ∧ route.reports request = [])
    (h : router.Thins sort thin) : (thin.resolve request).bare = (router.resolve request).bare := by
  refine bare_of_tallies (h.tallies Outcome.additive_eq fun route hs => ?_)
  obtain ⟨hv, hr⟩ := silent route hs
  rw [← hr]
  exact Route.reported_of_vacant hv request

theorem resolve_of_only {route : Route} (only : router.routes = [route])
    (clean : router.settings.skipClean = true) (hv : route.vacant = true) :
    router.resolve request = .ofAllowed (unite [] (route.reports request)) := by
  obtain ⟨hf, hr⟩ := Route.reported_of_vacant hv request
  rw [resolve_of_clean (.inl clean), scan_eq, only, scanRoutes_cons, hf, hr]
  cases unite [] (route.reports request) <;> rfl

/-- What a vacant route reports shows if there is no other route. -/
theorem reports_eq_nil_of_unseen {route : Route} (hv : route.vacant = true)
    (unseen : ∀ router thin : Router, router.Thins (· = route) thin →
      (thin.resolve request).bare = (router.resolve request).bare) :
    route.reports request = [] := by
  let only : Router := ⟨[route], [], none, none, { Settings.initial with skipClean := true }, 0⟩
  have whole : only.resolve request = .ofAllowed (unite [] (route.reports request)) :=
    resolve_of_only rfl rfl hv
  have same := unseen only { only with routes := [] } ⟨[], .drop rfl .nil, rfl⟩
  rw [whole, resolve_of_clean (.inl rfl)] at same
  cases hu : unite [] (route.reports request) with
  | nil => exact eq_nil_of_unite hu
  | cons method others =>
    rw [hu] at same
    cases same

end

/-- Vacant routes have no say in what is found, and they have no say in anything if they report
nothing.  A vacant route that does report something is not unseen in all trees. -/
theorem vacant_unseen (request : Request) :
    (∀ router thin : Router, router.Thins (fun route => route.vacant = true) thin →
      (thin.resolve request).isFound = (router.resolve request).isFound ∧
      ((router.resolve request).isFound = true →
        (thin.resolve request).bare = (router.resolve request).bare) ∧
      (thin.resolve request).reported ⊆ (router.resolve request).reported) ∧
    (∀ router thin : Router,
      router.Thins (fun route => route.vacant = true ∧ route.reports request = []) thin →
      (thin.resolve request).bare = (router.resolve request).bare ∧
      thin.routers.map (fun router => (router.bare, router.allowedMethods request))
        = router.routers.map fun router => (router.bare, router.allowedMethods request)) ∧
    ∀ route : Route, route.vacant = true → (route.reports request = [] ↔
      ∀ router thin : Router, router.Thins (· = route) thin →
        (thin.resolve request).bare = (router.resolve request).bare) := by
  refine ⟨?_, ?_, ?_⟩
  · intro router thin h
    obtain ⟨hf, hb, hr⟩ := h.tallies Outcome.additive_subset fun route hv =>
      ⟨(Route.reported_of_vacant hv request).1, List.nil_subset _⟩
    exact ⟨hf, hb, hr⟩
  · intro router thin h
    refine ⟨h.resolve_of_silent fun _ h => h, ?_⟩
    obtain ⟨routes, ht, rfl⟩ := h
    exact announced_of_below (ht.allowedFrom_eq (fun _ h => h) []) (ht.announced fun _ h => h)
  · intro route hv
    refine ⟨fun hr router thin h => h.resolve_of_silent ?_, reports_eq_nil_of_unseen hv⟩
    rintro other rfl
    exact ⟨hv, hr⟩

def handlerless : Route :=
  .mk (.ofSettings (Settings.initial.addMatcher (.methods [.get]))) none [] none

/-- The method that the vacant route names is reported, and then is not found either. -/
theorem vacant_reported :
    let router : Router := ⟨[handlerless], [], none, none, .initial, 0⟩
    let thin : Router := ⟨[], [], none, none, .initial, 0⟩
    let get := Request.get ['/']
    let post := Request.new .post ['/']
    router.Thins (fun route => route.vacant = true) thin ∧
      router.resolve post = .methodMismatch [.get] ∧ thin.resolve post = .notFound ∧
      router.allowedMethods post = .ok [.get] ∧
      thin.allowedMethods post = .error .noMatchingRoute ∧
      router.resolve get = .notFound ∧ router.allowedMethods get = .error .noMatchingRoute := by
  exact ⟨⟨[], .drop rfl .nil, rfl⟩, rfl, rfl, rfl, rfl, rfl, rfl⟩

def strewn (vacancies : List Route) : Router :=
  let answering : Route :=
    .mk (.ofSettings (Settings.initial.addMatcher (.methods [.post]))) (some .notFound) [] none
  let below : Router := ⟨vacancies ++ [answering], [], none, none, .initial, 1⟩
  ⟨vacancies ++ [.mk (.ofSettings .initial) none [] (some below)], [], none, none, .initial, 0⟩

theorem strewn_unseen :
    let get := Request.get ['/']
    let post := Request.new .post ['/']
    (strewn [handlerless]).Thins (fun route => route.vacant = true) (strewn []) ∧
      (strewn [handlerless]).Thins (fun route => route.vacant = true ∧ route.reports get = [])
        (strewn []) ∧
      (((strewn [handlerless]).resolve post).isFound = true ∧
        ((strewn []).resolve post).bare = ((strewn [handlerless]).resolve post).bare) ∧
      (strewn [handlerless]).resolve get = .methodMismatch [.post] ∧
      ((strewn []).resolve get).bare = .methodMismatch [.post] ∧
      (strewn []).routers.map (fun router => (router.bare, router.allowedMethods get))
        = [((strewn []).bare, .error .noMatchingRoute),
          (⟨[], [], none, none, .initial, 1⟩, .ok [.post])] := by
  intro get post
  have thins : ∀ sort : Route → Prop, sort handlerless →
      (strewn [handlerless]).Thins sort (strewn []) :=
    fun sort h => ⟨_, .drop h (.inside _ _ _ _ (.drop h (.keep _ .nil)) .nil), rfl⟩
  obtain ⟨found, -⟩ := vacant_unseen post
  obtain ⟨-, unseen, -⟩ := vacant_unseen get
  have hv := thins (fun route => route.vacant = true) rfl
  have hr := thins (fun route => route.vacant = true ∧ route.reports get = []) ⟨rfl, rfl⟩
  obtain ⟨hb, ha⟩ := unseen _ _ hr
  refine ⟨hv, hr, ⟨rfl, (found _ _ hv).2.1 rfl⟩, rfl, hb.trans rfl, ha.trans rfl⟩

end Router
end HttpRouter
