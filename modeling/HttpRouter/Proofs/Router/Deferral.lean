import HttpRouter.Proofs.Router.Failure
import HttpRouter.Proofs.Router.Narrowing

set_option autoImplicit false

/-!
# Methods before and after a delegation

A route may be narrowed to methods before it delegates, and then the routes below it are confined to
these, or afterwards, and then it checks the method itself.  Either way the same is found.  Reports
of a wrong method can differ: after the delegation they may name methods that lead to no match.
-/
namespace HttpRouter

namespace Call

def under (outer : List Nat) (c : Call) : Call := outer.foldr inside c

/-- Narrows a route to methods, lets it delegate, and makes calls on the router below it. -/
def narrowFirst (place : Nat) (M : List Method) (inner more : List Call) : List Call :=
  .route place (.methods M) :: .delegate place :: (inner ++ more).map (.inside place)

/-- Narrows the route when some of the calls on the router below it have been made. -/
def narrowLater (place : Nat) (M : List Method) (inner more : List Call) : List Call :=
  .delegate place ::
    (inner.map (.inside place) ++ .route place (.methods M) :: more.map (.inside place))

end Call

theorem Route.setSubrouter_setSubrouter (route : Route) (child other : Option Router) :
    (route.setSubrouter child).setSubrouter other = route.setSubrouter other := rfl

theorem Route.mem_methods_narrowed {M : List Method} (route : Route) (method : Method) :
    method ∈ (route.addMatcher (.methods M)).settings.methods?.getD [] ↔
      method ∈ M ∧ route.settings.takes method = true := by
  have hc : route.settings.Confined M (route.addMatcher (.methods M)).settings :=
    .methods route.settings
  rw [Settings.mem_methods_iff, hc.takes_iff]
  exact and_iff_right ⟨.methods M, hc.mem_matchers.2 (.inl rfl), rfl⟩

namespace Router

/-- Calls that find no route at their place change nothing. -/
theorem after_of_idle {calls : List Call} {router : Router}
    (h : ∀ c ∈ calls, ∀ w, router.call c w = ((.ok (), router), w)) (w : Workshop) :
    after calls router w = router := by
  induction calls with
  | nil => rfl
  | cons c rest ih =>
    rw [after_cons, h c List.mem_cons_self w]
    exact ih fun other ho => h other (List.mem_cons_of_mem c ho)

/-- Calls below a route are calls on the router there, if there is one. -/
theorem after_under (first : Nat) (rest : List Nat) (router : Router) (w : Workshop) :
    (∀ calls : List Call, after (calls.map (.under (first :: rest))) router w = router) ∨
      ∃ route child, router.routes[first]? = some route ∧ ∀ calls : List Call,
        after (calls.map (.under (first :: rest))) router w
          = router.setRoute first
              (route.setSubrouter (some (after (calls.map (.under rest)) child w))) := by
  have hmap : ∀ calls : List Call, calls.map (Call.under (first :: rest))
      = (calls.map (Call.under rest)).map (Call.inside first) := by
    intro calls
    rw [List.map_map]
    rfl
  have hidle : (∀ (c : Call) (w : Workshop),
      router.call (.inside first c) w = ((.ok (), router), w)) →
      ∀ calls : List Call, after (calls.map (.under (first :: rest))) router w = router := by
    intro h calls
    rw [hmap]
    refine after_of_idle (fun c hc => ?_) w
    obtain ⟨below, -, rfl⟩ := List.mem_map.1 hc
    exact h below
  cases hr : router.routes[first]? with
  | none => exact .inl (hidle fun c => update_of_none hr _)
  | some route =>
    cases hs : route.subrouter? with
    | none =>
      refine .inl (hidle fun c w => ?_)
      rw [call, update_of_some hr, Route.callBelow_of_none hs]
      exact congrArg (fun made => ((Except.ok (), made), w)) (setRoute_self hr)
    | some child =>
      refine .inr ⟨route, child, rfl, fun calls => ?_⟩
      rw [hmap]
      rw [after, callAll_below _ hr hs]

/-- The router below a route that was narrowed after it began to delegate, and the one that it would
have if it had been narrowed before. -/
structure Deferral (M : List Method) (route : Route) (child other : Router) : Prop where
  confined : Router.Confined M child other
  inherited : Throughout (Invariant.Holds (fun _ => True) Inherited) child
  matchers : child.settings.matchers = route.settings.matchers

structure Orderly (router : Router) : Prop where
  settled : Throughout Settled router
  handled : ∀ leaf ∈ Router.leaves router,
    leaf.active = true → leaf.route.handler?.isSome = true

def NamesOnly (M : List Method) (router : Router) : Prop :=
  ∀ leaf ∈ Router.leaves router, ∀ methods, leaf.route.settings.methods? = some methods →
    methods ⊆ M

variable {M : List Method} {place : Nat} {router : Router} {inner more : List Call}

theorem mem_routes_of_flat (flat : ∀ route ∈ router.routes, route.subrouter? = none) {leaf : Leaf}
    (hl : leaf ∈ Router.leaves router) : leaf.route ∈ router.routes := by
  obtain ⟨route, hr, inner, hi, rfl⟩ := (Router.mem_leaves router leaf).1 hl
  rw [Route.leaves_of_no_subrouter (flat route hr), List.mem_singleton] at hi
  rw [hi]
  exact hr

theorem orderly_of_flat (flat : ∀ route ∈ router.routes, route.subrouter? = none)
    (handled : ∀ route ∈ router.routes, route.handler?.isSome = true) : router.Orderly where
  settled := by
    have hnone : ∀ route ∈ router.routes, ∀ child, route.subrouter? ≠ some child := by
      intro route hr child hc
      rw [flat route hr] at hc
      cases hc
    exact ⟨fun route hr child hc => absurd hc (hnone route hr child),
      fun route hr child hc => absurd hc (hnone route hr child)⟩
  handled _ hl _ := handled _ (mem_routes_of_flat flat hl)

theorem namesOnly_of_flat (flat : ∀ route ∈ router.routes, route.subrouter? = none)
    (names : ∀ route ∈ router.routes, ∀ methods, route.settings.methods? = some methods →
      methods ⊆ M) : router.NamesOnly M :=
  fun _ hl => names _ (mem_routes_of_flat flat hl)

theorem after_of_no_route (h : router.routes[place]? = none) (w : Workshop) :
    after (Call.narrowFirst place M inner more) router w = router ∧
      after (Call.narrowLater place M inner more) router w = router := by
  have hidle : ∀ c : Call, (c = .route place (.methods M) ∨ c = .delegate place ∨
      ∃ below, c = .inside place below) → ∀ w, router.call c w = ((.ok (), router), w) := by
    rintro c (rfl | rfl | ⟨below, rfl⟩) w <;> exact update_of_none h _ w
  refine ⟨after_of_idle (fun c hc => hidle c ?_) w, after_of_idle (fun c hc => hidle c ?_) w⟩
  · simp only [Call.narrowFirst, List.mem_cons, List.mem_map] at hc
    rcases hc with hc | hc | ⟨below, -, rfl⟩
    · exact .inl hc
    · exact .inr (.inl hc)
    · exact .inr (.inr ⟨below, rfl⟩)
  · simp only [Call.narrowLater, List.mem_cons, List.mem_append, List.mem_map] at hc
    rcases hc with hc | ⟨below, -, rfl⟩ | hc | ⟨below, -, rfl⟩
    · exact .inr (.inl hc)
    · exact .inr (.inr ⟨below, rfl⟩)
    · exact .inl hc
    · exact .inr (.inr ⟨below, rfl⟩)

/-- The two histories differ in the router below the route only. -/
theorem exists_deferral {route : Route} (hr : router.routes[place]? = some route) (w : Workshop) :
    ∃ child other, Deferral M route child other ∧
      after (Call.narrowLater place M inner more) router w
        = router.setRoute place ((route.addMatcher (.methods M)).setSubrouter (some child)) ∧
      after (Call.narrowFirst place M inner more) router w
        = router.setRoute place ((route.addMatcher (.methods M)).setSubrouter (some other)) := by
  let scope := (Workshop.fresh w).1
  let next := (Workshop.fresh w).2
  let begun : Settings → Router := fun s => .ofSettings s scope
  have hstep : ∀ (before : Route) (router : Router) (w : Workshop),
      router.routes[place]? = some before → router.call (.route place (.methods M)) w
        = ((.ok (), router.setRoute place (before.addMatcher (.methods M))), w) := by
    intro before router w h
    rw [call, update_of_some h]
    rfl
  have hdelegate : ∀ (before : Route) (router : Router), router.routes[place]? = some before →
      router.call (.delegate place) w = ((.ok (),
        router.setRoute place (before.setSubrouter (some (begun before.settings)))), next) := by
    intro before router h
    rw [call, update_of_some h]
    rfl
  refine ⟨after (inner ++ more) (begun route.settings) next,
    after (inner ++ more) (begun (route.addMatcher (.methods M)).settings) next, ⟨?_, ?_, ?_⟩, ?_, ?_⟩
  · exact (Confined.opened (Settings.Confined.methods route.settings) scope).after _ _
  · exact inherited_invariant.callAll _ (Invariant.ofSettings trivial scope) next
  · rw [matchers_after]
    rfl
  · have hinner := callAll_below inner
      (getElem?_setRoute hr (route.setSubrouter (some (begun route.settings)))) rfl next
    have hmore := callAll_below more (getElem?_setRoute hr ((route.setSubrouter
      (some (after inner (begun route.settings) next))).addMatcher (.methods M))) rfl
    rw [Route.setSubrouter_setSubrouter] at hinner
    rw [Call.narrowLater, after_cons, hdelegate route router hr, after_append, hinner,
      setRoute_setRoute, after_cons, hstep _ _ _ (getElem?_setRoute hr _), setRoute_setRoute,
      after, hmore, setRoute_setRoute, after_append]
    rfl
  · have hall := callAll_below (inner ++ more) (getElem?_setRoute hr ((route.addMatcher
      (.methods M)).setSubrouter (some (begun (route.addMatcher (.methods M)).settings)))) rfl next
    rw [Call.narrowFirst, after_cons, hstep route router w hr, after_cons,
      hdelegate _ _ (getElem?_setRoute hr _), setRoute_setRoute, after, hall, setRoute_setRoute]
    rfl

namespace Deferral

variable {rel : List Method → List Method → Prop} {route : Route} {child other : Router}
  {request : Request}

/-- The narrowed route finds the same with either router below it.  What matters to reports is what
the routers below report, and what the route itself reports in place of a match below. -/
theorem concurs_evaluate (add : Outcome.Additive rel) (h : Deferral M route child other)
    (missed : (child.scan request).isFound = false → (other.scan request).isFound = false →
      rel (child.scan request).reported (other.scan request).reported)
    (hidden : (child.scan request).isFound = true → (other.scan request).isFound = false →
      request.method ∉ M →
      rel ((route.addMatcher (.methods M)).settings.methods?.getD [])
        (other.scan request).reported) :
    Outcome.Concurs rel
      (((route.addMatcher (.methods M)).setSubrouter (some child)).evaluate request)
      (((route.addMatcher (.methods M)).setSubrouter (some other)).evaluate request) := by
  have hmem : .methods M ∈ (route.addMatcher (.methods M)).settings.matchers :=
    (Settings.Confined.methods route.settings).mem_matchers.2 (.inl rfl)
  generalize route.addMatcher (.methods M) = narrowed at hidden hmem ⊢
  obtain ⟨info, handler, middleware, subrouter⟩ := narrowed
  change Outcome.Concurs rel (Route.evaluate request (.mk info handler middleware (some child)))
    (Route.evaluate request (.mk info handler middleware (some other)))
  rw [Route.evaluate, Route.evaluate]
  split
  · exact .refl add _
  · split
    · exact .refl add _
    · rename_i vars wrong hj
      change Outcome.Concurs rel (Route.delegate info vars wrong (child.scan request))
        (Route.delegate info vars wrong (other.scan request))
      by_cases hm : request.method ∈ M
      · refine .delegate vars wrong (add.refl _) ?_
        cases h.confined.scan_of_mem hm with
        | found hf hl => exact .found hf hl
        | missed hf hs _ => exact .missed hf hs (missed hf hs)
      · have hs := h.confined.scan_of_not_mem hm
        have hwrong : wrong = true := by
          rw [Settings.judge_wrong hj, Bool.false_or, List.any_eq_true]
          exact ⟨.methods M, hmem, by simp [Matcher.accepts_eq, Matcher.methods?, hm]⟩
        rw [Route.delegate_of_not_found hs]
        cases hf : (child.scan request).isFound with
        | true =>
          rw [Route.delegate, hf, hwrong]
          exact .missed rfl hs (hidden hf hs hm)
        | false =>
          rw [Route.delegate_of_not_found hf]
          exact .missed hf hs (missed hf hs)

theorem leaves (h : Deferral M route child other) (orderly : child.Orderly) :
    ∀ leaf ∈ Router.leaves child, leaf.Inherits ∧ ∀ method,
      leaf.route.settings.takes method = true → route.settings.takes method = true := by
  intro leaf hl
  obtain ⟨hi, hsub⟩ := leaf_inherits h.inherited orderly.settled leaf hl
  refine ⟨hi, fun method ht => ?_⟩
  rw [h.matchers] at hsub
  rw [Settings.takes, List.all_eq_true] at ht ⊢
  exact fun m hm => ht m (hsub hm)

theorem mem_reported_iff (h : Deferral M route child other) (orderly : child.Orderly)
    (hs : (other.scan request).isFound = false) (method : Method) :
    method ∈ (other.scan request).reported ↔ method ∈ M ∧ ∃ leaf ∈ Router.leaves child,
      leaf.fits request = true ∧ leaf.route.settings.takes method = true :=
  h.confined.mem_reported_iff orderly.handled (fun leaf hl => (h.leaves orderly leaf hl).1) hs
    method

/-- Narrowed first, no method is reported that is not reported by the route narrowed later. -/
theorem concurs_subset (h : Deferral M route child other) (orderly : child.Orderly)
    (request : Request) : Outcome.Concurs (fun late early => early ⊆ late)
      (((route.addMatcher (.methods M)).setSubrouter (some child)).evaluate request)
      (((route.addMatcher (.methods M)).setSubrouter (some other)).evaluate request) := by
  have inherits := fun leaf hl => (h.leaves orderly leaf hl).1
  refine h.concurs_evaluate Outcome.additive_subset ?_ ?_
  · intro hf hs method hm
    rw [Router.mem_reported_iff orderly.handled inherits hf]
    exact ((h.mem_reported_iff orderly hs method).1 hm).2
  · intro hf hs _ method hm
    obtain ⟨hmem, leaf, hl, -, htakes⟩ := (h.mem_reported_iff orderly hs method).1 hm
    exact (Route.mem_methods_narrowed route method).2
      ⟨hmem, (h.leaves orderly leaf hl).2 method htakes⟩

/-- If the routes below name none but these methods, the reports have the same methods. -/
theorem concurs_same (h : Deferral M route child other) (orderly : child.Orderly)
    (within : child.NamesOnly M) (request : Request) :
    Outcome.Concurs (fun late early => ∀ method, method ∈ late ↔ method ∈ early)
      (((route.addMatcher (.methods M)).setSubrouter (some child)).evaluate request)
      (((route.addMatcher (.methods M)).setSubrouter (some other)).evaluate request) := by
  have inherits := fun leaf hl => (h.leaves orderly leaf hl).1
  refine h.concurs_evaluate Outcome.additive_same ?_ ?_
  · intro hf hs method
    rw [Router.mem_reported_iff orderly.handled inherits hf, h.mem_reported_iff orderly hs,
      iff_and_self]
    rintro ⟨leaf, hl, hfits, htakes⟩
    obtain ⟨methods, hn⟩ := exists_methods_of_missed (orderly.handled leaf hl) (inherits leaf hl)
      ((missed_iff request child).2 hf leaf hl) hfits
    exact within leaf hl methods hn ((Settings.takes_iff_mem _ method).1 htakes methods hn)
  · intro hf hs hm method
    rw [Route.mem_methods_narrowed, h.mem_reported_iff orderly hs]
    refine and_congr_right fun _ => ?_
    -- A leaf that took a method which is not one of these has no methods at all and takes all.
    obtain ⟨leaf, hl, ha⟩ := (isFound_scan_iff request child).1 hf
    obtain ⟨hfits, htakes, -⟩ := (Leaf.accepts_iff (inherits leaf hl) request).1 ha
    have hall : leaf.route.settings.takes method = true := by
      rw [Settings.takes_iff_mem] at htakes ⊢
      exact fun methods hn => absurd (within leaf hl methods hn (htakes methods hn)) hm
    exact iff_of_true ((h.leaves orderly leaf hl).2 method hall) ⟨leaf, hl, hfits, hall⟩

end Deferral

theorem concurs_under {rel : List Method → List Method → Prop} (add : Outcome.Additive rel)
    {request : Request} (outer : List Nat) (router : Router) (w : Workshop)
    (bottom : ∀ route child other, Deferral M route child other →
      (after ((Call.narrowLater place M inner more).map (.under outer)) router w).routeAt? outer
        place = some ((route.addMatcher (.methods M)).setSubrouter (some child)) →
      Outcome.Concurs rel
        (((route.addMatcher (.methods M)).setSubrouter (some child)).evaluate request)
        (((route.addMatcher (.methods M)).setSubrouter (some other)).evaluate request)) :
    (after ((Call.narrowFirst place M inner more).map (.under outer)) router w).settings
        = (after ((Call.narrowLater place M inner more).map (.under outer)) router w).settings ∧
      Outcome.Concurs rel
        ((after ((Call.narrowLater place M inner more).map (.under outer)) router w).scan request)
        ((after ((Call.narrowFirst place M inner more).map (.under outer)) router w).scan
          request) := by
  induction outer generalizing router w with
  | nil =>
    have hmap : ∀ calls : List Call, calls.map (.under []) = calls := fun calls => List.map_id calls
    simp only [hmap] at bottom ⊢
    cases hr : router.routes[place]? with
    | none =>
      obtain ⟨hfirst, hlater⟩ := after_of_no_route hr w
      rw [hfirst, hlater]
      exact ⟨rfl, .refl add _⟩
    | some route =>
      obtain ⟨child, other, hd, hlater, hfirst⟩ := exists_deferral hr w
      rw [hlater] at bottom ⊢
      rw [hfirst]
      refine ⟨rfl, concurs_scan (akin_routes router _ _) ?_⟩
      exact concurs_set add (bottom route child other hd (getElem?_setRoute hr _)) place
        router.routes [] [] (add.refl [])
  | cons first rest ih =>
    rcases after_under first rest router w with hidle | ⟨route, child, hr, hafter⟩
    · rw [hidle, hidle]
      exact ⟨rfl, .refl add _⟩
    · rw [hafter] at bottom
      rw [hafter, hafter]
      obtain ⟨-, hscan⟩ := ih child w fun below late early hd hat => bottom below late early hd <| by
        rw [routeAt?, getElem?_setRoute hr]
        exact hat
      refine ⟨rfl, concurs_scan (akin_routes router _ _) ?_⟩
      exact concurs_set add (Route.concurs_delegating add route hscan) first router.routes [] []
        (add.refl [])

/-- Whether a route is narrowed to methods before it delegates or afterwards, the same is found.
Narrowed first it reports nothing that it does not report narrowed later, if the tree below it is
orderly, and the same if the routes below name none but these methods. -/
theorem narrowing_deferred (router : Router) (w : Workshop) (outer : List Nat) (place : Nat)
    (M : List Method) (inner more : List Call) (request : Request) :
    let early := after ((Call.narrowFirst place M inner more).map (.under outer)) router w
    let late := after ((Call.narrowLater place M inner more).map (.under outer)) router w
    let below := (late.routeAt? outer place).bind Route.subrouter?
    (early.resolve request).isFound = (late.resolve request).isFound ∧
    ((late.resolve request).isFound = true →
      (late.resolve request).Like Found.Akin (early.resolve request)) ∧
    ((∀ child ∈ below, child.Orderly) →
      (early.resolve request).reported ⊆ (late.resolve request).reported ∧
      ((∀ child ∈ below, child.NamesOnly M) →
        (late.resolve request).Like Found.Akin (early.resolve request))) := by
  intro early late below
  have hconcurs : ∀ {rel : List Method → List Method → Prop}, Outcome.Additive rel →
      (∀ route child other, Deferral M route child other → child ∈ below → Outcome.Concurs rel
        (((route.addMatcher (.methods M)).setSubrouter (some child)).evaluate request)
        (((route.addMatcher (.methods M)).setSubrouter (some other)).evaluate request)) →
      Outcome.Concurs rel (late.resolve request) (early.resolve request) := by
    intro rel add bottom
    obtain ⟨hs, hscan⟩ := concurs_under add outer router w
      fun route child other hd hat => bottom route child other hd (by
        change (late.routeAt? outer place).bind Route.subrouter? = some child
        rw [hat]
        rfl)
    exact concurs_resolve add hs hscan
  have hany : Outcome.Additive fun _ _ => True := ⟨fun _ => trivial, fun _ _ => trivial⟩
  have hfound := hconcurs hany fun route child other hd _ =>
    hd.concurs_evaluate hany (fun _ _ => trivial) fun _ _ _ => trivial
  refine ⟨hfound.isFound, fun hf => ?_, fun orderly => ⟨?_, fun within => ?_⟩⟩
  · cases hfound with
    | found _ h => exact h
    | missed hn =>
      rw [hf] at hn
      cases hn
  · have hsub := hconcurs Outcome.additive_subset fun route child other hd hb =>
      hd.concurs_subset (orderly child hb) request
    have hreported := hsub.reported Outcome.additive_subset
    exact hreported
  · exact like_of_concurs (hconcurs Outcome.additive_same fun route child other hd hb =>
      hd.concurs_same (orderly child hb) (within child hb) request)

/-- Of the gets and posts that come to the prefix the only route below answers gets. -/
theorem narrowing_deferred_getting :
    let router := after [.register [], .delegate 0, .inside 0 (.register [.pathStart "/a".toList])]
      (.ofSettings .initial 0) .initial
    let inner := [Call.register [.path "/b".toList, .methods [.get], .handler .notFound]]
    let early := after ((Call.narrowFirst 0 [.get, .post] inner []).map (.under [0])) router .initial
    let late := after ((Call.narrowLater 0 [.get, .post] inner []).map (.under [0])) router .initial
    (∀ child ∈ (late.routeAt? [0] 0).bind Route.subrouter?,
      child.Orderly ∧ child.NamesOnly [.get, .post]) ∧
    (late.resolve (Request.new .get "/a/b".toList)).isFound = true ∧
    (late.resolve (Request.new .put "/a/b".toList)).reported = [.get] ∧
    ∀ request, (late.resolve request).Like Found.Akin (early.resolve request) := by
  intro router inner early late
  have hbelow : ∀ child ∈ (late.routeAt? [0] 0).bind Route.subrouter?,
      child.Orderly ∧ child.NamesOnly [.get, .post] := by
    intro child hc
    obtain ⟨info, hroutes, hmethods⟩ : ∃ info,
        child.routes = [.mk info (some .notFound) [] none] ∧
          info.settings.methods? = some [.get] := by
      obtain rfl : _ = child := Option.some.inj hc
      exact ⟨_, rfl, by decide +kernel⟩
    have hflat : ∀ route ∈ child.routes, route.subrouter? = none := by
      rw [hroutes]
      exact List.forall_mem_singleton.2 rfl
    refine ⟨orderly_of_flat hflat ?_, namesOnly_of_flat hflat ?_⟩
    · rw [hroutes]
      exact List.forall_mem_singleton.2 rfl
    · rw [hroutes]
      refine List.forall_mem_singleton.2 fun methods hm => ?_
      obtain rfl : [.get] = methods := Option.some.inj (hmethods.symm.trans hm)
      decide
  refine ⟨hbelow, by decide +kernel, by decide +kernel, fun request => ?_⟩
  obtain ⟨-, -, hreports⟩ := narrowing_deferred router .initial [0] 0 [.get, .post] inner [] request
  exact (hreports fun child hc => (hbelow child hc).1).2 fun child hc => (hbelow child hc).2

/-- Narrowed to gets after the delegation the prefix lets posts be reported, which it refuses. -/
theorem narrowed_later_reports_more :
    let router := after [.register [.pathStart "/a".toList]] (.ofSettings .initial 0) .initial
    let inner := [Call.register [.path "/b".toList, .methods [.get, .post], .handler .notFound]]
    let early := after (Call.narrowFirst 0 [.get] inner []) router .initial
    let late := after (Call.narrowLater 0 [.get] inner []) router .initial
    let put := Request.new .put "/a/b".toList
    let post := Request.new .post "/a/b".toList
    (late.resolve put).reported = [.get, .post] ∧ (early.resolve put).reported = [.get] ∧
      (late.resolve post).isFound = false ∧
      ¬ (late.resolve put).Like Found.Akin (early.resolve put) := by
  intro router inner early late put post
  have hlate : (late.resolve put).reported = [.get, .post] := by decide +kernel
  have hearly : (early.resolve put).reported = [.get] := by decide +kernel
  refine ⟨hlate, hearly, by decide +kernel, fun hlike => ?_⟩
  have hpost := hlike.mem_reported .post
  rw [hlate, hearly] at hpost
  exact absurd hpost (by decide)

end Router
end HttpRouter
