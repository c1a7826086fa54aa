import HttpRouter.Proofs.Route.Judgement
import HttpRouter.Proofs.Router.Tree

set_option autoImplicit false

namespace HttpRouter

/-- A route that does not delegate, with what is known of the delegating routes above it and the
routers on the way to it, both innermost first. -/
structure Leaf where
  route : Route
  above : List RouteInfo
  scopes : List Router

namespace Leaf

def under (leaf : Leaf) (info : RouteInfo) : Leaf := { leaf with above := leaf.above ++ [info] }

def within (leaf : Leaf) (router : Router) : Leaf := { leaf with scopes := leaf.scopes ++ [router] }

end Leaf

mutual

def Route.leaves : Route → List Leaf
  | .mk info handler middleware none => [⟨.mk info handler middleware none, [], []⟩]
  | .mk info _ _ (some router) => (Router.leaves router).map (·.under info)

def Router.leaves : Router → List Leaf
  | ⟨routes, middleware, notFound, methodNotAllowed, settings, scope⟩ =>
    (Router.leavesOf routes).map
      (·.within ⟨routes, middleware, notFound, methodNotAllowed, settings, scope⟩)

def Router.leavesOf : List Route → List Leaf
  | [] => []
  | route :: rest => Route.leaves route ++ Router.leavesOf rest

end

theorem Router.leavesOf_eq (routes : List Route) :
    Router.leavesOf routes = routes.flatMap Route.leaves := by
  induction routes with
  | nil => rfl
  | cons route rest ih => rw [leavesOf, ih, List.flatMap_cons]

theorem Router.leaves_eq (router : Router) :
    Router.leaves router = (router.routes.flatMap Route.leaves).map (·.within router) := by
  obtain ⟨routes, middleware, notFound, methodNotAllowed, settings, scope⟩ := router
  rw [Router.leaves, leavesOf_eq]

theorem Route.mem_leaves (route : Route) (leaf : Leaf) :
    leaf ∈ route.leaves ↔ route.subrouter? = none ∧ leaf = ⟨route, [], []⟩ ∨
      ∃ child, route.subrouter? = some child ∧ ∃ inner ∈ Router.leaves child,
        leaf = inner.under route.info := by
  obtain ⟨info, handler, middleware, subrouter⟩ := route
  cases subrouter with
  | none => simp [Route.leaves, Route.subrouter?]
  | some child => simp [Route.leaves, Route.subrouter?, Route.info, eq_comm]

theorem Route.leaves_of_no_subrouter {route : Route} (h : route.subrouter? = none) :
    route.leaves = [⟨route, [], []⟩] := by
  obtain ⟨info, handler, middleware, subrouter⟩ := route
  cases h
  rfl

theorem Router.mem_leaves (router : Router) (leaf : Leaf) :
    leaf ∈ Router.leaves router ↔
      ∃ route ∈ router.routes, ∃ inner ∈ route.leaves, leaf = inner.within router := by
  simp only [Router.leaves_eq, List.mem_map, List.mem_flatMap]
  constructor
  · rintro ⟨inner, ⟨route, hr, hi⟩, rfl⟩
    exact ⟨route, hr, inner, hi, rfl⟩
  · rintro ⟨route, hr, inner, hi, rfl⟩
    exact ⟨inner, ⟨route, hr, hi⟩, rfl⟩

namespace RouteInfo

def admits (info : RouteInfo) (request : Request) : Bool :=
  !info.buildOnly && !info.inert && info.settings.matchers.all (·.accepts request)

def capture (info : RouteInfo) (request : Request) : Vars :=
  ((Settings.judge request info.settings.matchers .empty false).map (·.1)).getD .empty

theorem judge_of_admits {info : RouteInfo} {request : Request} (h : info.admits request = true) :
    Settings.judge request info.settings.matchers .empty false
      = some (info.capture request, false) := by
  simp only [admits, Bool.and_eq_true, List.all_eq_true] at h
  obtain ⟨after, ha⟩ := (Settings.judge_clean_iff request _ .empty).2 h.2
  simp [capture, ha]

end RouteInfo

namespace Leaf

def accepts (leaf : Leaf) (request : Request) : Bool :=
  leaf.route.info.admits request && leaf.above.all (·.admits request)
    && leaf.route.handler?.isSome

def capture (leaf : Leaf) (request : Request) : Vars :=
  leaf.above.foldl (fun vars info => vars.fillFrom (info.capture request))
    (leaf.route.info.capture request)

def outcome (leaf : Leaf) (request : Request) : Outcome :=
  (leaf.route.answer request (leaf.capture request)).mapFound ({ · with scopes := leaf.scopes })

theorem accepts_under (leaf : Leaf) (info : RouteInfo) (request : Request) :
    (leaf.under info).accepts request = (leaf.accepts request && info.admits request) := by
  simp only [accepts, under, List.all_append, List.all_cons, List.all_nil, Bool.and_true]
  cases leaf.route.info.admits request <;> cases leaf.above.all (·.admits request) <;>
    cases info.admits request <;> cases leaf.route.handler?.isSome <;> rfl

theorem outcome_eq {leaf : Leaf} {handler : Handler} (h : leaf.route.handler? = some handler)
    (request : Request) :
    leaf.outcome request =
      match leaf.route.settings.slashRedirect? request with
      | some location =>
        .redirect location (some ⟨leaf.route, leaf.capture request, handler, leaf.scopes⟩)
      | none => .matched ⟨leaf.route, leaf.capture request, handler, leaf.scopes⟩ := by
  unfold outcome Route.answer
  rw [h]
  cases leaf.route.settings.slashRedirect? request <;> rfl

theorem isFound_outcome {leaf : Leaf} {request : Request} (h : leaf.accepts request = true) :
    (leaf.outcome request).isFound = true := by
  simp only [accepts, Bool.and_eq_true, Option.isSome_iff_exists] at h
  obtain ⟨-, handler, hh⟩ := h
  rw [outcome_eq hh]
  cases leaf.route.settings.slashRedirect? request <;> rfl

theorem outcome_within (leaf : Leaf) (router : Router) (request : Request) :
    (leaf.within router).outcome request = (leaf.outcome request).mapFound fun found =>
      { found with scopes := found.scopes ++ [router] } := by
  unfold outcome
  change ((leaf.route.answer request (leaf.capture request)).mapFound _) = _
  cases leaf.route.answer request (leaf.capture request) with
  | matched found => rfl
  | methodMismatch allowed => rfl
  | redirect location found => cases found <;> rfl
  | notFound => rfl

theorem outcome_of_no_handler {leaf : Leaf} (h : leaf.route.handler? = none)
    (request : Request) : leaf.outcome request = .notFound := by
  unfold outcome Route.answer
  rw [h]
  rfl

theorem outcome_under (leaf : Leaf) (info : RouteInfo) (request : Request) :
    (leaf.under info).outcome request = (leaf.outcome request).mapFound fun found =>
      { found with vars := found.vars.fillFrom (info.capture request) } := by
  have hc : (leaf.under info).capture request
      = (leaf.capture request).fillFrom (info.capture request) := by
    simp [capture, under]
  cases hh : leaf.route.handler? with
  | none =>
    have hu : (leaf.under info).route.handler? = none := hh
    rw [outcome_of_no_handler hh, outcome_of_no_handler hu]
    rfl
  | some handler =>
    have hu : (leaf.under info).route.handler? = some handler := hh
    have hs : (leaf.under info).route.settings.slashRedirect? request
        = leaf.route.settings.slashRedirect? request := rfl
    rw [outcome_eq hh, outcome_eq hu, hc, hs]
    cases leaf.route.settings.slashRedirect? request <;> rfl

/-- The outcome is that of the first leaf which accepts the request, and a miss or a wrong method
if there is none. -/
def Decides (request : Request) (leaves : List Leaf) (outcome : Outcome) : Prop :=
  match leaves.find? (·.accepts request) with
  | some leaf => outcome = leaf.outcome request
  | none => outcome.isFound = false

section
variable {request : Request} {leaves : List Leaf} {outcome : Outcome}

theorem decides_of_find? {leaf : Leaf} (h : leaves.find? (·.accepts request) = some leaf) :
    Decides request leaves outcome ↔ outcome = leaf.outcome request := by
  rw [Decides, h]

theorem decides_of_none (h : ∀ leaf ∈ leaves, leaf.accepts request = false) :
    Decides request leaves outcome ↔ outcome.isFound = false := by
  have hn : leaves.find? (·.accepts request) = none := by
    rw [List.find?_eq_none]
    intro leaf hl
    simp [h leaf hl]
  rw [Decides, hn]

theorem decides_within (h : Decides request leaves outcome) (router : Router) :
    Decides request (leaves.map (·.within router))
      (outcome.mapFound fun found => { found with scopes := found.scopes ++ [router] }) := by
  unfold Decides at h ⊢
  rw [List.find?_map]
  change (match (leaves.find? (·.accepts request)).map (·.within router) with
    | some leaf => _ | none => _)
  cases hf : leaves.find? (·.accepts request) with
  | none =>
    rw [hf] at h
    cases outcome <;> simp_all [Outcome.mapFound, Outcome.isFound]
  | some leaf =>
    rw [hf] at h
    change outcome.mapFound _ = (leaf.within router).outcome request
    rw [outcome_within, h]

/-- Below a route that accepts the request, the leaves decide what the route makes of it. -/
theorem decides_delegate {info : RouteInfo} (ha : info.admits request = true)
    (h : Decides request leaves outcome) :
    Decides request (leaves.map (·.under info))
      (Route.delegate info (info.capture request) false outcome) := by
  have hp : ((·.accepts request) ∘ (·.under info) : Leaf → Bool) = (·.accepts request) := by
    funext leaf
    rw [Function.comp, accepts_under, ha, Bool.and_true]
  unfold Decides at h ⊢
  rw [List.find?_map, hp]
  cases hf : leaves.find? (·.accepts request) with
  | none =>
    rw [hf] at h
    cases outcome <;> simp_all [Route.delegate, Outcome.mapFound, Outcome.isFound]
  | some leaf =>
    rw [hf] at h
    change Route.delegate info (info.capture request) false outcome
      = (leaf.under info).outcome request
    rw [outcome_under, h]
    rfl

end

/-- One route after another: a match or redirect stops, a miss or a wrong method goes on. -/
theorem decides_routes {request : Request} {routes : List Route}
    (h : ∀ route ∈ routes, Decides request route.leaves (route.evaluate request))
    (allowed : List Method) :
    Decides request (routes.flatMap Route.leaves) (Router.scanRoutes request allowed routes) := by
  induction routes generalizing allowed with
  | nil =>
    rw [decides_of_none (by simp), Router.scanRoutes]
    cases allowed <;> rfl
  | cons route rest ih =>
    have hr := h route List.mem_cons_self
    have later := fun allowed => ih (fun other ho => h other (List.mem_cons_of_mem _ ho)) allowed
    rw [List.flatMap_cons, Router.scanRoutes]
    unfold Decides at hr later ⊢
    rw [List.find?_append]
    cases hf : route.leaves.find? (·.accepts request) with
    | some leaf =>
      rw [hf] at hr
      have ha : leaf.accepts request = true := by simpa using List.find?_some hf
      have hl := isFound_outcome ha
      simp only [Option.some_or]
      rw [hr]
      cases ho : leaf.outcome request <;> simp_all [Outcome.isFound]
    | none =>
      rw [hf] at hr
      simp only [Option.none_or]
      cases ho : route.evaluate request with
      | notFound => exact later allowed
      | methodMismatch methods => exact later (unite allowed methods)
      | matched found => simp [ho, Outcome.isFound] at hr
      | redirect location found => simp [ho, Outcome.isFound] at hr

end Leaf

namespace Route

theorem evaluate_of_not_admits {info : RouteInfo} {request : Request}
    (h : info.admits request = false) (handler : Option Handler) (middleware : List Middleware)
    (subrouter : Option Router) :
    (Route.evaluate request (.mk info handler middleware subrouter)).isFound = false := by
  rw [Route.evaluate]
  split
  · rfl
  · rename_i hl
    split
    · rfl
    · rename_i vars wrong hj
      have hw := Settings.judge_wrong hj
      have hn : wrong = true := by
        simp only [RouteInfo.admits] at h
        simp_all
      rw [hn]
      cases subrouter with
      | none => rfl
      | some router =>
        simp only [Route.delegate, Bool.true_and]
        split
        · rfl
        · rename_i hf
          cases ho : Router.scan request router <;> simp_all [Outcome.isFound, Outcome.mapFound]

theorem evaluate_of_admits {info : RouteInfo} {request : Request}
    (h : info.admits request = true) (handler : Option Handler) (middleware : List Middleware)
    (subrouter : Option Router) :
    Route.evaluate request (.mk info handler middleware subrouter) =
      match subrouter with
      | some router =>
        Route.delegate info (info.capture request) false (Router.scan request router)
      | none => Route.answer (.mk info handler middleware none) request (info.capture request) := by
  have hl : (info.buildOnly || info.inert) = false := by
    simp only [RouteInfo.admits, Bool.and_eq_true, Bool.not_eq_true'] at h
    rw [h.1.1, h.1.2]
    rfl
  rw [Route.evaluate, hl, RouteInfo.judge_of_admits h]
  rfl

theorem decides_evaluate {request : Request} (route : Route)
    (below : ∀ child, route.subrouter? = some child →
      Leaf.Decides request (Router.leaves child) (Router.scan request child)) :
    Leaf.Decides request route.leaves (route.evaluate request) := by
  obtain ⟨info, handler, middleware, subrouter⟩ := route
  cases ha : info.admits request with
  | false =>
    refine (Leaf.decides_of_none ?_).2 (evaluate_of_not_admits ha handler middleware subrouter)
    cases subrouter with
    | none => simp [Route.leaves, Leaf.accepts, Route.info, ha]
    | some router => simp [Route.leaves, Leaf.accepts_under, ha]
  | true =>
    rw [evaluate_of_admits ha]
    cases subrouter with
    | some router => exact Leaf.decides_delegate ha (below router rfl)
    | none =>
      rw [Route.leaves]
      cases handler with
      | none =>
        refine (Leaf.decides_of_none ?_).2 rfl
        simp [Leaf.accepts, Route.handler?]
      | some handler =>
        refine (Leaf.decides_of_find? (List.find?_cons_of_pos ?_)).2 ?_
        · simp [Leaf.accepts, Route.info, Route.handler?, ha]
        · rw [Leaf.outcome_eq rfl]
          rfl

end Route

theorem Router.decides_scan (request : Request) (router : Router) :
    Leaf.Decides request (Router.leaves router) (Router.scan request router) := by
  induction router using Router.tree_induction with
  | step router ih =>
    have hr : Leaf.Decides request (router.routes.flatMap Route.leaves)
        (Router.scanRoutes request [] router.routes) :=
      Leaf.decides_routes (fun route h => Route.decides_evaluate route (ih route h)) []
    obtain ⟨routes, middleware, notFound, methodNotAllowed, settings, scope⟩ := router
    rw [Router.leaves_eq, Router.scan]
    exact Leaf.decides_within hr _

def Leaf.IsFirst (request : Request) (router : Router) (leaf : Leaf) : Prop :=
  ∃ earlier later, Router.leaves router = earlier ++ leaf :: later ∧
    leaf.accepts request = true ∧ ∀ other ∈ earlier, other.accepts request = false

theorem Leaf.isFirst_iff (request : Request) (router : Router) (leaf : Leaf) :
    leaf.IsFirst request router ↔
      (Router.leaves router).find? (·.accepts request) = some leaf := by
  rw [List.find?_eq_some_iff_append]
  constructor
  · rintro ⟨earlier, later, hl, ha, hn⟩
    exact ⟨ha, earlier, later, hl, fun other ho => by rw [hn other ho]; rfl⟩
  · rintro ⟨ha, earlier, later, hl, hn⟩
    exact ⟨earlier, later, hl, ha, fun other ho => by simpa using hn other ho⟩

namespace Router

theorem scan_of_isFirst {request : Request} {router : Router} {leaf : Leaf}
    (h : leaf.IsFirst request router) :
    ∃ handler vars, router.scan request =
      match leaf.route.settings.slashRedirect? request with
      | some location => .redirect location (some ⟨leaf.route, vars, handler, leaf.scopes⟩)
      | none => .matched ⟨leaf.route, vars, handler, leaf.scopes⟩ := by
  have hd := decides_scan request router
  rw [Leaf.decides_of_find? ((Leaf.isFirst_iff request router leaf).1 h)] at hd
  obtain ⟨-, -, -, ha, -⟩ := h
  simp only [Leaf.accepts, Bool.and_eq_true, Option.isSome_iff_exists] at ha
  obtain ⟨-, handler, hh⟩ := ha
  exact ⟨handler, leaf.capture request, by rw [hd, Leaf.outcome_eq hh]⟩

theorem isFirst_or_missed (request : Request) (router : Router) :
    (∃ leaf : Leaf, leaf.IsFirst request router) ∨
      (∀ leaf ∈ Router.leaves router, leaf.accepts request = false) ∧
        (router.scan request).isFound = false := by
  cases hf : (Router.leaves router).find? (·.accepts request) with
  | some leaf => exact .inl ⟨leaf, (Leaf.isFirst_iff request router leaf).2 hf⟩
  | none =>
    have hn : ∀ leaf ∈ Router.leaves router, leaf.accepts request = false := by
      simpa using List.find?_eq_none.1 hf
    exact .inr ⟨hn, (Leaf.decides_of_none hn).1 (decides_scan request router)⟩

/-- A match, or a redirect with a route, comes from a leaf that accepts the request. -/
theorem leaf_of_found {router : Router} {request : Request} {found : Found}
    (h : router.scan request = .matched found ∨
      ∃ location, router.scan request = .redirect location (some found)) :
    ∃ leaf ∈ Router.leaves router, leaf.accepts request = true ∧
      leaf.route.handler? = some found.handler ∧
        found = ⟨leaf.route, leaf.capture request, found.handler, leaf.scopes⟩ := by
  rcases isFirst_or_missed request router with ⟨leaf, hl⟩ | ⟨-, hf⟩
  · have hd := decides_scan request router
    rw [Leaf.decides_of_find? ((Leaf.isFirst_iff request router leaf).1 hl)] at hd
    obtain ⟨earlier, later, hm, ha, -⟩ := hl
    have hh : leaf.route.handler?.isSome = true := by
      rw [Leaf.accepts, Bool.and_eq_true] at ha
      exact ha.2
    obtain ⟨handler, hh⟩ := Option.isSome_iff_exists.1 hh
    rw [hd, Leaf.outcome_eq hh] at h
    refine ⟨leaf, by simp [hm], ha, ?_⟩
    cases hs : leaf.route.settings.slashRedirect? request with
    | none =>
      rw [hs] at h
      rcases h with h | ⟨location, h⟩
      · cases h
        exact ⟨hh, rfl⟩
      · cases h
    | some target =>
      rw [hs] at h
      rcases h with h | ⟨location, h⟩
      · cases h
      · cases h
        exact ⟨hh, rfl⟩
  · rcases h with h | ⟨location, h⟩
    · rw [h] at hf
      cases hf
    · rw [h] at hf
      cases hf

theorem scan_matched_iff (request : Request) (router : Router) (route : Route)
    (scopes : List Router) :
    (∃ found, router.scan request = .matched found ∧ found.route = route ∧
        found.scopes = scopes) ↔
      ∃ leaf : Leaf, leaf.IsFirst request router ∧ leaf.route = route ∧ leaf.scopes = scopes ∧
        route.settings.slashRedirect? request = none := by
  constructor
  · rintro ⟨found, hs, rfl, rfl⟩
    rcases isFirst_or_missed request router with ⟨leaf, hl⟩ | ⟨-, hf⟩
    · obtain ⟨handler, vars, hl'⟩ := scan_of_isFirst hl
      rw [hs] at hl'
      cases hr : leaf.route.settings.slashRedirect? request with
      | some location => simp [hr] at hl'
      | none =>
        rw [hr] at hl'
        cases hl'
        exact ⟨leaf, hl, rfl, rfl, hr⟩
    · simp [hs, Outcome.isFound] at hf
  · rintro ⟨leaf, hl, rfl, rfl, hr⟩
    obtain ⟨handler, vars, hs⟩ := scan_of_isFirst hl
    rw [hr] at hs
    exact ⟨_, hs, rfl, rfl⟩

theorem scan_redirect_iff (request : Request) (router : Router) (location : Text) (route : Route)
    (scopes : List Router) :
    (∃ found, router.scan request = .redirect location (some found) ∧ found.route = route ∧
        found.scopes = scopes) ↔
      ∃ leaf : Leaf, leaf.IsFirst request router ∧ leaf.route = route ∧ leaf.scopes = scopes ∧
        route.settings.slashRedirect? request = some location := by
  constructor
  · rintro ⟨found, hs, rfl, rfl⟩
    rcases isFirst_or_missed request router with ⟨leaf, hl⟩ | ⟨-, hf⟩
    · obtain ⟨handler, vars, hl'⟩ := scan_of_isFirst hl
      rw [hs] at hl'
      cases hr : leaf.route.settings.slashRedirect? request with
      | none => simp [hr] at hl'
      | some target =>
        rw [hr] at hl'
        cases hl'
        exact ⟨leaf, hl, rfl, rfl, hr⟩
    · simp [hs, Outcome.isFound] at hf
  · rintro ⟨leaf, hl, rfl, rfl, hr⟩
    obtain ⟨handler, vars, hs⟩ := scan_of_isFirst hl
    rw [hr] at hs
    exact ⟨_, hs, rfl, rfl⟩

theorem scan_redirect_carries (request : Request) (router : Router) (location : Text) :
    router.scan request ≠ .redirect location none := by
  intro hs
  rcases isFirst_or_missed request router with ⟨leaf, hl⟩ | ⟨-, hf⟩
  · obtain ⟨handler, vars, hl'⟩ := scan_of_isFirst hl
    rw [hs] at hl'
    cases hr : leaf.route.settings.slashRedirect? request <;> simp [hr] at hl'
  · simp [hs, Outcome.isFound] at hf

theorem isFound_scan_iff (request : Request) (router : Router) :
    (router.scan request).isFound = true ↔
      ∃ leaf ∈ Router.leaves router, leaf.accepts request = true := by
  rcases isFirst_or_missed request router with ⟨leaf, hl⟩ | ⟨hn, hf⟩
  · obtain ⟨handler, vars, hs⟩ := scan_of_isFirst hl
    obtain ⟨earlier, later, hm, ha, -⟩ := hl
    refine iff_of_true ?_ ⟨leaf, by simp [hm], ha⟩
    rw [hs]
    cases leaf.route.settings.slashRedirect? request <;> rfl
  · refine iff_of_false (by simp [hf]) ?_
    rintro ⟨leaf, hl, ha⟩
    simp [hn leaf hl] at ha

theorem missed_iff (request : Request) (router : Router) :
    (∀ leaf ∈ Router.leaves router, leaf.accepts request = false) ↔
      (router.scan request).isFound = false := by
  rw [← Bool.not_eq_true, isFound_scan_iff]
  simp

theorem scan_missed_iff (request : Request) (router : Router) :
    (∀ leaf ∈ Router.leaves router, leaf.accepts request = false) ↔
      router.scan request = .notFound ∨
        ∃ allowed, router.scan request = .methodMismatch allowed := by
  rw [missed_iff]
  cases router.scan request <;> simp [Outcome.isFound]

theorem resolve_of_clean {router : Router} {request : Request}
    (h : router.settings.skipClean = true ∨ Path.clean request.path = request.path) :
    router.resolve request = router.scan request := by
  unfold resolve
  rcases h with h | h <;> simp [h]

/-- Dispatch answers with the first leaf that accepts the request, and by a redirect exactly if the
template of the leaf disagrees with the path on the slash at the end. -/
theorem scan_finds_first_leaf (request : Request) (router : Router) :
    (∀ route scopes,
      (∃ found, router.scan request = .matched found ∧ found.route = route ∧
        found.scopes = scopes) ↔
      ∃ leaf : Leaf, leaf.IsFirst request router ∧ leaf.route = route ∧ leaf.scopes = scopes ∧
        route.settings.slashRedirect? request = none) ∧
    (∀ location route scopes,
      (∃ found, router.scan request = .redirect location (some found) ∧ found.route = route ∧
        found.scopes = scopes) ↔
      ∃ leaf : Leaf, leaf.IsFirst request router ∧ leaf.route = route ∧ leaf.scopes = scopes ∧
        route.settings.slashRedirect? request = some location) ∧
    (∀ location, router.scan request ≠ .redirect location none) ∧
    ((∀ leaf ∈ Router.leaves router, leaf.accepts request = false) ↔
      router.scan request = .notFound ∨
        ∃ allowed, router.scan request = .methodMismatch allowed) ∧
    (router.settings.skipClean = true ∨ Path.clean request.path = request.path →
      router.resolve request = router.scan request) :=
  ⟨scan_matched_iff request router, scan_redirect_iff request router,
    scan_redirect_carries request router, scan_missed_iff request router, resolve_of_clean⟩

def crowded : Router :=
  let last : Router := .ofSettings .initial 1
  { last with
    routes :=
      [.mk (.ofSettings (Settings.initial.addMatcher (.methods [.post]))) (some Handler.notFound) []
        none,
       .ofSettings .initial,
       .mk (.ofSettings .initial) (some Handler.notFound) [] none] }

def delegatingRouter : Router :=
  let last : Router := .ofSettings .initial 0
  { last with
    routes :=
      [.mk (.ofSettings (Settings.initial.addMatcher (.methods [.get, .post]))) none []
        (some crowded),
       .mk (.ofSettings .initial) (some Handler.methodNotAllowed) [] none] }

theorem resolve_delegating :
    (delegatingRouter.settings.skipClean = true ∨ Path.clean ['/'] = ['/']) ∧
      ∃ found, delegatingRouter.resolve (Request.get ['/']) = .matched found ∧
        found.route = .mk (.ofSettings .initial) (some Handler.notFound) [] none ∧
        found.scopes = [crowded, delegatingRouter] := by
  obtain ⟨matched, -, -, -, clean⟩ := scan_finds_first_leaf (Request.get ['/']) delegatingRouter
  have hc : delegatingRouter.settings.skipClean = true ∨ Path.clean ['/'] = ['/'] :=
    .inr (by decide)
  refine ⟨hc, ?_⟩
  rw [clean hc]
  exact (matched _ _).2 ⟨_, (Leaf.isFirst_iff _ _ _).2 rfl, rfl, rfl, rfl⟩

end Router
end HttpRouter
