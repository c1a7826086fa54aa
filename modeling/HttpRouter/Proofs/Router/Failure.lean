import HttpRouter.Proofs.Route.Ownership
import HttpRouter.Proofs.Router.History
import HttpRouter.Proofs.Router.Pruning

set_option autoImplicit false

namespace HttpRouter

theorem Route.apply_inert (step : RouteStep) (route : Route) (w : Workshop) :
    (Route.apply step route w).1.2.info.inert
      = (route.info.inert || !(Route.apply step route w).1.1.isOk) :=
  (Route.apply_configured step.within_bare route w).inert

namespace Call

def Registers : Call → Prop
  | register _ => True
  | inside _ c => c.Registers
  | configure _ | route _ _ | delegate _ => False

def on (outer : List Nat) (place : Nat) (step : RouteStep) : Call :=
  outer.foldr inside (.route place step)

/-- The call puts a new router in the place of one on the way through the outer routes. -/
def Replaces : Call → List Nat → Prop
  | delegate place, first :: _ => place = first
  | inside place c, first :: rest => place = first ∧ c.Replaces rest
  | _, _ => False

end Call

namespace Router

def routeAt? : List Nat → Nat → Router → Option Route
  | [], place, router => router.routes[place]?
  | first :: rest, place, router =>
    router.routes[first]?.bind fun route => route.subrouter?.bind (routeAt? rest place)

theorem getElem?_update (place : Nat) (change : Route → Build (Except Error Unit × Route))
    (router : Router) (w : Workshop) (i : Nat) :
    (router.update place change w).1.2.routes[i]?
      = if place = i then (router.routes[i]?).map fun route => (change route w).1.2
        else router.routes[i]? := by
  cases hp : router.routes[place]? with
  | none =>
    rw [update_of_none hp]
    by_cases hi : place = i
    · rw [if_pos hi, ← hi, hp]
      rfl
    · rw [if_neg hi]
  | some route =>
    have hl := (List.getElem?_eq_some_iff.1 hp).1
    rw [update_of_some hp]
    by_cases hi : place = i
    · rw [if_pos hi, ← hi, hp, List.getElem?_set_self hl]
      rfl
    · rw [if_neg hi, List.getElem?_set_ne hi]

theorem exists_of_update_error {place : Nat}
    {change : Route → Build (Except Error Unit × Route)} {router : Router} {w : Workshop}
    {e : Error} (h : (router.update place change w).1.1 = .error e) :
    ∃ route, router.routes[place]? = some route ∧ (change route w).1.1 = .error e ∧
      (router.update place change w).1.2
        = { router with routes := router.routes.set place (change route w).1.2 } := by
  cases hp : router.routes[place]? with
  | none =>
    rw [update_of_none hp] at h
    cases h
  | some route =>
    rw [update_of_some hp] at h ⊢
    exact ⟨route, rfl, h, rfl⟩

theorem exists_of_callBelow_error {call : Router → Build (Except Error Unit × Router)}
    {route : Route} {w : Workshop} {e : Error}
    (h : (route.callBelow call w).1.1 = .error e) :
    ∃ child, route.subrouter? = some child ∧ (call child w).1.1 = .error e ∧
      (route.callBelow call w).1.2 = route.setSubrouter (some (call child w).1.2) := by
  cases hs : route.subrouter? with
  | none =>
    rw [Route.callBelow_of_none hs] at h
    cases h
  | some child =>
    rw [Route.callBelow_of_some hs] at h ⊢
    exact ⟨child, rfl, h, rfl⟩

/-- A registration that fails changes nothing in the tree. -/
theorem call_of_registers {c : Call} (hc : c.Registers) {router : Router} {w : Workshop} {e : Error}
    (h : (router.call c w).1.1 = .error e) : (router.call c w).1.2 = router := by
  induction c generalizing router w with
  | register steps =>
    simp only [call, register] at h ⊢
    split at h
    · rfl
    · cases h
  | inside place c ih =>
    obtain ⟨route, hr, hroute, hrouter⟩ := exists_of_update_error h
    obtain ⟨child, hs, hchild, hbelow⟩ := exists_of_callBelow_error hroute
    rw [call, hrouter, hbelow, ih hc hchild, Route.setSubrouter_self hs]
    exact setRoute_self hr
  | configure | route | delegate => exact hc.elim

def InertAt (outer : List Nat) (place : Nat) (router : Router) : Prop :=
  ∃ route, router.routeAt? outer place = some route ∧ route.info.inert = true

variable {outer : List Nat} {place : Nat} {router : Router}

theorem inertAt_cons {first : Nat} {rest : List Nat} :
    InertAt (first :: rest) place router ↔
      ∃ route child, router.routes[first]? = some route ∧ route.subrouter? = some child ∧
        InertAt rest place child := by
  simp only [InertAt, routeAt?, Option.bind_eq_some_iff]
  constructor
  · rintro ⟨route, ⟨upper, hu, child, hc, hr⟩, hi⟩
    exact ⟨upper, child, hu, hc, route, hr, hi⟩
  · rintro ⟨upper, child, hu, hc, route, hr, hi⟩
    exact ⟨route, ⟨upper, hu, child, hc, hr⟩, hi⟩

/-- A call that fails on a route leaves it inert. -/
theorem inertAt_of_error {step : RouteStep} {w : Workshop} {e : Error}
    (h : (router.call (.on outer place step) w).1.1 = .error e) :
    InertAt outer place (router.call (.on outer place step) w).1.2 := by
  induction outer generalizing router with
  | nil =>
    obtain ⟨route, hr, hroute, -⟩ := exists_of_update_error h
    have hu := getElem?_update place (Route.apply step) router w place
    rw [if_pos rfl, hr, Option.map_some] at hu
    refine ⟨_, hu, ?_⟩
    rw [Route.apply_inert, hroute]
    exact Bool.or_true _
  | cons first rest ih =>
    have hon : Call.on (first :: rest) place step = .inside first (.on rest place step) := rfl
    rw [hon, call] at h ⊢
    obtain ⟨route, hr, hroute, -⟩ := exists_of_update_error h
    obtain ⟨child, hs, hchild, hbelow⟩ := exists_of_callBelow_error hroute
    have hu := getElem?_update first (Route.callBelow (call (.on rest place step))) router w first
    rw [if_pos rfl, hr, Option.map_some, hbelow] at hu
    exact inertAt_cons.2 ⟨_, _, hu, rfl, ih hchild⟩

theorem inertAt_of_routes {after : Router} (h : InertAt outer place router)
    (hr : ∀ (i : Nat) (route : Route), router.routes[i]? = some route →
      after.routes[i]? = some route) : InertAt outer place after := by
  cases outer with
  | nil =>
    obtain ⟨route, hroute, hi⟩ := h
    exact ⟨route, hr place route hroute, hi⟩
  | cons first rest =>
    obtain ⟨route, child, hroute, hc, hi⟩ := inertAt_cons.1 h
    exact inertAt_cons.2 ⟨route, child, hr first route hroute, hc, hi⟩

/-- A change of one route keeps a route inert if it keeps that one inert, or the router below that
one, should the way to the inert route lead there. -/
theorem inertAt_update {changed : Nat} {change : Route → Build (Except Error Unit × Route)}
    {w : Workshop} (h : InertAt outer place router)
    (hi : ∀ route, route.info.inert = true → (change route w).1.2.info.inert = true)
    (hb : ∀ rest, outer = changed :: rest → ∀ route child, route.subrouter? = some child →
      InertAt rest place child → ∃ after, (change route w).1.2.subrouter? = some after ∧
        InertAt rest place after) :
    InertAt outer place (router.update changed change w).1.2 := by
  have hu := getElem?_update changed change router w
  cases outer with
  | nil =>
    obtain ⟨route, hroute, hinert⟩ := h
    have hroute' : router.routes[place]? = some route := hroute
    have hp := hu place
    rw [hroute'] at hp
    split at hp
    · exact ⟨_, hp, hi route hinert⟩
    · exact ⟨route, hp, hinert⟩
  | cons first rest =>
    obtain ⟨route, child, hroute, hc, hinert⟩ := inertAt_cons.1 h
    have hp := hu first
    rw [hroute] at hp
    split at hp
    · rename_i he
      subst he
      obtain ⟨after, ha, hinert'⟩ := hb rest rfl route child hc hinert
      exact inertAt_cons.2 ⟨_, after, hp, ha, hinert'⟩
    · exact inertAt_cons.2 ⟨route, child, hp, hc, hinert⟩

/-- No call makes an inert route live, unless it takes the route out of the tree. -/
theorem inertAt_call (c : Call) {outer : List Nat} {router : Router}
    (h : InertAt outer place router) (hk : ¬ c.Replaces outer) (w : Workshop) :
    InertAt outer place (router.call c w).1.2 := by
  induction c generalizing outer router w with
  | configure step =>
    refine inertAt_of_routes h fun i route hr => ?_
    cases step <;> exact hr
  | register steps =>
    simp only [call, register]
    split
    · exact h
    · refine inertAt_of_routes h fun i route hr => ?_
      have hl := (List.getElem?_eq_some_iff.1 hr).1
      exact (List.getElem?_append_left hl).trans hr
  | route changed step =>
    refine inertAt_update h (fun route hi => ?_) fun rest _ route child hc hinert => ?_
    · rw [Route.apply_inert, hi]
      rfl
    · exact ⟨child, (Route.apply_grows step route w).subrouter.trans hc, hinert⟩
  | delegate changed =>
    refine inertAt_update h (fun route hi => hi) fun rest he => ?_
    subst he
    exact absurd rfl hk
  | inside changed c ih =>
    refine inertAt_update h (fun route hi => ?_) fun rest he route child hc hinert => ?_
    · cases hs : route.subrouter? with
      | none => rwa [Route.callBelow_of_none hs]
      | some child =>
        rw [Route.callBelow_of_some hs]
        exact hi
    · subst he
      have hbelow := ih hinert (fun hr => hk ⟨rfl, hr⟩) w
      rw [Route.callBelow_of_some hc]
      exact ⟨_, rfl, hbelow⟩

theorem inertAt_after {calls : List Call} (h : InertAt outer place router)
    (hk : ∀ c ∈ calls, ¬ c.Replaces outer) (w : Workshop) :
    InertAt outer place (after calls router w) := by
  induction calls generalizing router w with
  | nil => exact h
  | cons c rest ih =>
    rw [after_cons]
    exact ih (inertAt_call c h (hk c List.mem_cons_self) w)
      (fun other ho => hk other (List.mem_cons_of_mem c ho)) _

theorem routeAt?_of_empty {router : Router} (h : router.routes = []) (outer : List Nat)
    (place : Nat) : router.routeAt? outer place = none := by
  cases outer <;> simp [routeAt?, h]

/-- A new router on the way to a route takes the route out of the tree. -/
theorem routeAt?_of_replaces {c : Call} {outer : List Nat} (hc : c.Replaces outer)
    (router : Router) (w : Workshop) (place : Nat) :
    (router.call c w).1.2.routeAt? outer place = none := by
  induction c generalizing outer router w with
  | delegate changed =>
    cases outer with
    | nil => exact hc.elim
    | cons first rest =>
      obtain rfl : changed = first := hc
      rw [routeAt?, call, getElem?_update, if_pos rfl]
      cases router.routes[changed]? with
      | none => rfl
      | some route => exact routeAt?_of_empty rfl rest place
  | inside changed c ih =>
    cases outer with
    | nil => exact hc.elim
    | cons first rest =>
      obtain ⟨rfl, hr⟩ : changed = first ∧ c.Replaces rest := hc
      rw [routeAt?, call, getElem?_update, if_pos rfl]
      cases router.routes[changed]? with
      | none => rfl
      | some route =>
        rw [Option.map_some, Option.bind_some]
        cases hs : route.subrouter? with
        | none =>
          rw [Route.callBelow_of_none hs, hs]
          rfl
        | some child =>
          rw [Route.callBelow_of_some hs]
          exact ih hr child w
  | configure | register | route => exact hc.elim

theorem routeAt?_after_replaces {c : Call} {outer : List Nat} (hc : c.Replaces outer)
    (earlier : List Call) (router : Router) (w : Workshop) (place : Nat) :
    (after (earlier ++ [c]) router w).routeAt? outer place = none := by
  induction earlier generalizing router w with
  | nil => exact routeAt?_of_replaces hc router w place
  | cons other rest ih =>
    rw [List.cons_append, after_cons]
    exact ih _ _

/-- Failed registrations change nothing.  A route on which a call failed stays inert as long as it
is in the tree.  Inert routes, and in dispatch those which only serve to build addresses, can be
pruned without a difference to what is seen of the tree. -/
theorem failed_configuration_invisible (router : Router) :
    (∀ (c : Call) w e, c.Registers → (router.call c w).1.1 = .error e →
      (router.call c w).1.2 = router) ∧
    (∀ outer place step w e, (router.call (.on outer place step) w).1.1 = .error e →
      ∀ calls,
        let failed := router.call (.on outer place step) w
        (∃ earlier c later, calls = earlier ++ c :: later ∧ c.Replaces outer ∧
          (after (earlier ++ [c]) failed.1.2 failed.2).routeAt? outer place = none) ∨
        ∃ route, (after calls failed.1.2 failed.2).routeAt? outer place = some route ∧
          route.info.inert = true) ∧
    (∀ request,
      (router.prune (·.inert)).resolve request = (router.resolve request).prune (·.inert) ∧
      (router.prune (·.inert)).allowedMethods request = router.allowedMethods request) ∧
    (router.prune (·.inert)).liveRoutes = router.liveRoutes.map (Route.prune (·.inert)) ∧
    (∀ name,
      (router.prune (·.inert)).get? name = (router.get? name).map (Route.prune (·.inert))) ∧
    ∀ request,
      (router.prune (·.buildOnly)).resolve request
        = (router.resolve request).prune (·.buildOnly) ∧
      (router.prune (·.buildOnly)).allowedMethods request = router.allowedMethods request := by
  refine ⟨fun c w e hc he => call_of_registers hc he, fun outer place step w e he calls => ?_,
    fun request => ⟨resolve_prune dead_inert router request,
      allowedMethods_prune dead_inert router request⟩,
    liveRoutes_prune router, fun name => get?_prune name router,
    fun request => ⟨resolve_prune dead_buildOnly router request,
      allowedMethods_prune dead_buildOnly router request⟩⟩
  intro failed
  by_cases hk : ∃ c ∈ calls, c.Replaces outer
  · obtain ⟨c, hm, hc⟩ := hk
    obtain ⟨earlier, later, hl⟩ := List.append_of_mem hm
    exact .inl ⟨earlier, c, later, hl, hc, routeAt?_after_replaces hc earlier _ _ place⟩
  · exact .inr (inertAt_after (inertAt_of_error he) (fun c hm hc => hk ⟨c, hm, hc⟩) _)

def singleRoute : Router :=
  after [.register [.path "/a".toList, .handler .notFound]] (.ofSettings .initial 0) .initial

def halfQueries : RouteStep := .queries ["k".toList, "v".toList, "q".toList, "\x7b".toList]

theorem halfQueries_invisible :
    (singleRoute.call (.register [halfQueries]) .initial).1.1.isOk = false ∧
    (singleRoute.call (.register [halfQueries]) .initial).1.2 = singleRoute ∧
    (singleRoute.call (.on [] 0 halfQueries) .initial).1.1.isOk = false ∧
    ∀ calls, ∃ route, (after calls (singleRoute.call (.on [] 0 halfQueries) .initial).1.2
        (singleRoute.call (.on [] 0 halfQueries) .initial).2).routeAt? [] 0 = some route ∧
      route.info.inert = true := by
  have hr : (singleRoute.call (.register [halfQueries]) .initial).1.1.isOk = false := by
    decide +kernel
  have ho : (singleRoute.call (.on [] 0 halfQueries) .initial).1.1.isOk = false := by
    decide +kernel
  obtain ⟨first, hfirst⟩ := exists_error hr
  obtain ⟨second, hsecond⟩ := exists_error ho
  obtain ⟨hregister, hroute, -⟩ := failed_configuration_invisible singleRoute
  refine ⟨hr, hregister _ _ first trivial hfirst, ho, fun calls => ?_⟩
  -- A route of the router itself has no router on the way to it.
  rcases hroute [] 0 halfQueries .initial second hsecond calls with ⟨-, c, -, -, hc, -⟩ | hi
  · cases c <;> exact hc.elim
  · exact hi

end Router
end HttpRouter
