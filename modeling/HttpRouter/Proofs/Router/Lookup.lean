import HttpRouter.Proofs.Router.History

set_option autoImplicit false

namespace HttpRouter

mutual

def Route.walk : Route → List Route
  | .mk info handler middleware none => [.mk info handler middleware none]
  | .mk info handler middleware (some router) =>
    .mk info handler middleware (some router) :: Router.walk router

def Router.walk : Router → List Route
  | ⟨routes, _, _, _, _, _⟩ => Router.walkOf routes

def Router.walkOf : List Route → List Route
  | [] => []
  | route :: rest =>
    if route.info.inert then Router.walkOf rest else Route.walk route ++ Router.walkOf rest

end

theorem Route.walk_eq (route : Route) :
    route.walk = route :: (route.subrouter?.map Router.walk).getD [] := by
  obtain ⟨info, handler, middleware, subrouter⟩ := route
  cases subrouter <;> rfl

def Route.isNamed (name : Text) (route : Route) : Bool := decide (route.info.name = some name)

namespace Router

theorem walkOf_eq (routes : List Route) :
    walkOf routes = (routes.filter (·.info.live)).flatMap Route.walk := by
  induction routes with
  | nil => rfl
  | cons route rest ih =>
    rw [walkOf, List.filter_cons, RouteInfo.live]
    cases route.info.inert with
    | true => exact ih
    | false => exact congrArg (route.walk ++ ·) ih

theorem walk_eq (router : Router) : router.walk = router.liveRoutes.flatMap Route.walk := by
  obtain ⟨routes, middleware, notFound, methodNotAllowed, settings, scope⟩ := router
  exact walkOf_eq routes

/-- The route is reached from the router through live routes only, and is live itself. -/
inductive Shows : Router → Route → Prop
  | here {router : Router} {route : Route} (hr : route ∈ router.liveRoutes) : Shows router route
  | deeper {router child : Router} {route found : Route} (hr : route ∈ router.liveRoutes)
    (hc : route.subrouter? = some child) (hf : Shows child found) : Shows router found

theorem shows_of_mem_walk (router : Router) {found : Route} (h : found ∈ router.walk) :
    router.Shows found := by
  induction router using tree_induction generalizing found with
  | step router below =>
    rw [walk_eq] at h
    obtain ⟨route, hr, hf⟩ := List.mem_flatMap.1 h
    rw [Route.walk_eq] at hf
    rcases List.mem_cons.1 hf with rfl | hf
    · exact .here hr
    · cases hc : route.subrouter? with
      | none =>
        rw [hc] at hf
        cases hf
      | some child =>
        rw [hc] at hf
        exact .deeper hr hc (below route (List.mem_filter.1 hr).1 child hc hf)

theorem mem_walk_of_shows {router : Router} {found : Route} (h : router.Shows found) :
    found ∈ router.walk := by
  induction h with
  | @here router route hr =>
    rw [walk_eq]
    refine List.mem_flatMap.2 ⟨route, hr, ?_⟩
    rw [Route.walk_eq]
    exact List.mem_cons_self
  | @deeper router child route found hr hc hf ih =>
    rw [walk_eq]
    refine List.mem_flatMap.2 ⟨route, hr, ?_⟩
    rw [Route.walk_eq, hc]
    exact List.mem_cons_of_mem route ih

theorem mem_walk_iff {router : Router} {found : Route} :
    found ∈ router.walk ↔ router.Shows found :=
  ⟨shows_of_mem_walk router, mem_walk_of_shows⟩

end Router

theorem Route.find?_eq (name : Text) (route : Route) : route.find? name
    = if route.isNamed name then some route else route.subrouter?.bind (Router.get? name) := by
  obtain ⟨info, handler, middleware, subrouter⟩ := route
  have hn : (Route.mk info handler middleware subrouter).isNamed name
      = decide (info.name = some name) := rfl
  rw [hn]
  by_cases h : info.name = some name
  · rw [if_pos (decide_eq_true h)]
    cases subrouter <;> rw [find?, if_pos h]
  · rw [if_neg (by simpa using h)]
    cases subrouter <;> rw [find?, if_neg h] <;> rfl

namespace Router

theorem get?_eq_getFrom? (name : Text) (router : Router) :
    router.get? name = getFrom? name router.routes := by
  obtain ⟨routes, middleware, notFound, methodNotAllowed, settings, scope⟩ := router
  rfl

theorem getFrom?_cons (name : Text) (route : Route) (rest : List Route) :
    getFrom? name (route :: rest) = if route.info.inert then getFrom? name rest
      else (route.find? name).or (getFrom? name rest) := by
  rw [getFrom?]
  split
  · rfl
  · cases route.find? name <;> rfl

theorem getFrom?_append (name : Text) (front back : List Route) :
    getFrom? name (front ++ back) = (getFrom? name front).or (getFrom? name back) := by
  induction front with
  | nil => rfl
  | cons route rest ih =>
    rw [List.cons_append, getFrom?_cons, getFrom?_cons, ih]
    split
    · rfl
    · exact (Option.or_assoc ..).symm

/-- A search that reaches the routes of each router below searches the walk. -/
theorem getFrom?_eq_find? (name : Text) {routes : List Route}
    (below : Route.Below
      (fun child => child.get? name = child.walk.find? (Route.isNamed name)) routes) :
    getFrom? name routes = (walkOf routes).find? (Route.isNamed name) := by
  induction routes with
  | nil => rfl
  | cons route rest ih =>
    have hrest := ih fun other ho => below other (List.mem_cons_of_mem route ho)
    have hroute : route.find? name = route.walk.find? (Route.isNamed name) := by
      rw [Route.find?_eq, Route.walk_eq, List.find?_cons]
      cases hn : route.isNamed name with
      | true => rfl
      | false =>
        cases hc : route.subrouter? with
        | none => rfl
        | some child => exact below route List.mem_cons_self child hc
    rw [getFrom?_cons, walkOf, hrest, hroute]
    split
    · rfl
    · exact List.find?_append.symm

theorem get?_eq_find? (name : Text) (router : Router) :
    router.get? name = router.walk.find? (Route.isNamed name) := by
  induction router using tree_induction with
  | step router below =>
    obtain ⟨routes, middleware, notFound, methodNotAllowed, settings, scope⟩ := router
    exact getFrom?_eq_find? name below

/-- A name finds the first route of the walk that has it, and nothing exactly if no route that is
shown has it.  What is found below a route comes before all later routes, and an inert route hides
what is below it. -/
theorem get?_first_of_walk (router : Router) (name : Text) :
    router.get? name = router.walk.find? (Route.isNamed name) ∧
    (router.get? name = none ↔ ∀ route, router.Shows route → route.info.name ≠ some name) ∧
    (∀ before route later child found, router.routes = before ++ route :: later →
      route.info.inert = false → route.info.name ≠ some name → route.subrouter? = some child →
      getFrom? name before = none → child.get? name = some found →
      router.get? name = some found) ∧
    ∀ before route later, router.routes = before ++ route :: later → route.info.inert = true →
      router.get? name = getFrom? name (before ++ later) := by
  refine ⟨get?_eq_find? name router, ?_, ?_, ?_⟩
  · rw [get?_eq_find?, List.find?_eq_none]
    simp [Route.isNamed, mem_walk_iff]
  · intro before route later child found hr hl hn hc hb hf
    have hfind : route.find? name = some found := by
      rw [Route.find?_eq, if_neg (by simpa [Route.isNamed] using hn), hc]
      exact hf
    rw [get?_eq_getFrom?, hr, getFrom?_append, hb, getFrom?_cons, hl, hfind]
    rfl
  · intro before route later hr hi
    rw [get?_eq_getFrom?, hr, getFrom?_append, getFrom?_append, getFrom?_cons, hi]
    rfl

/-- The name belongs to an inert route with a route below it, to one below a live route, and to a
later sibling of that. -/
def namesakes : Router :=
  after [.register [.pathStart "/a".toList], .delegate 0,
    .inside 0 (.register [.path "/x".toList, .name "x".toList]),
    .route 0 (.name "x".toList), .route 0 (.path "no slash".toList),
    .register [.pathStart "/b".toList], .delegate 1,
    .inside 1 (.register [.path "/x".toList, .name "x".toList]),
    .register [.path "/c".toList, .name "x".toList]] (.ofSettings .initial 0) .initial

def sight (name : Text) (route : Route) : Bool × Option Text × Option (Option Text) :=
  (route.info.inert, route.info.name,
    (route.subrouter?.bind (get? name)).map (·.info.pathTemplate?))

theorem namesakes_found :
    ∃ hidden front back found, namesakes.routes = [hidden, front, back] ∧
      sight "x".toList hidden = (true, some "x".toList, some (some "/a/x".toList)) ∧
      sight "x".toList front = (false, none, some (some "/b/x".toList)) ∧
      sight "x".toList back = (false, some "x".toList, none) ∧
      namesakes.get? "x".toList = some found ∧ namesakes.Shows found ∧
      found.info.pathTemplate? = some "/b/x".toList ∧
      namesakes.get? "x".toList = getFrom? "x".toList [front, back] ∧
      namesakes.get? "y".toList = none := by
  have hs : namesakes.routes.map (sight "x".toList)
      = [(true, some "x".toList, some (some "/a/x".toList)),
        (false, none, some (some "/b/x".toList)), (false, some "x".toList, none)] := by
    decide +kernel
  have hy : (namesakes.walk.find? (Route.isNamed "y".toList)).isNone = true := by decide +kernel
  obtain ⟨hidden, rest, hr, hh, hrest⟩ := List.map_eq_cons_iff.1 hs
  obtain ⟨front, rest, rfl, hf, hrest⟩ := List.map_eq_cons_iff.1 hrest
  obtain ⟨back, rest, rfl, hb, hrest⟩ := List.map_eq_cons_iff.1 hrest
  obtain rfl := List.map_eq_nil_iff.1 hrest
  obtain ⟨hwalk, -, hfirst, hhidden⟩ := get?_first_of_walk namesakes "x".toList
  obtain ⟨hother, -⟩ := get?_first_of_walk namesakes "y".toList
  have hi : hidden.info.inert = true := congrArg (·.1) hh
  have hlive : front.info.inert = false := congrArg (·.1) hf
  have hname : front.info.name = none := congrArg (·.2.1) hf
  have htemplate : (front.subrouter?.bind (get? "x".toList)).map (·.info.pathTemplate?)
      = some (some "/b/x".toList) := congrArg (·.2.2) hf
  obtain ⟨found, hfound, ht⟩ := Option.map_eq_some_iff.1 htemplate
  obtain ⟨child, hc, hg⟩ := Option.bind_eq_some_iff.1 hfound
  have hx : namesakes.get? "x".toList = some found := by
    refine hfirst [hidden] front [back] child found hr hlive (by rw [hname]; nofun) hc ?_ hg
    rw [getFrom?_cons, hi]
    rfl
  refine ⟨hidden, front, back, found, hr, hh, hf, hb, hx, ?_, ht, ?_, ?_⟩
  · exact mem_walk_iff.1 (List.mem_of_find?_eq_some (hwalk.symm.trans hx))
  · exact hhidden [] hidden [front, back] hr hi
  · exact hother.trans (Option.isNone_iff_eq_none.1 hy)

end Router
end HttpRouter
