import HttpRouter.Router.Build
import HttpRouter.Proofs.Route.Growth
import HttpRouter.Proofs.Router.Tree

set_option autoImplicit false

/-!
# Histories of router trees

A router tree is made by calls: on the router itself, on one of its routes, or on the router below
one of its routes.  Calls that fail leave their mark and the history goes on.  What holds of new
routes and is kept by every step of their configuration holds throughout every tree that calls can
make.  A tree is settled if no route got a matcher after it began to delegate.
-/
namespace HttpRouter

/-- One call on a router tree.  A route is named by its place among the routes of its router, and a
call on a route that is not there does nothing. -/
inductive Call where
  | configure (step : RouterStep)
  | register (steps : List RouteStep)
  | route (place : Nat) (step : RouteStep)
  /-- Lets the route delegate to a new router. -/
  | delegate (place : Nat)
  /-- A call on the router to which the route delegates. -/
  | inside (place : Nat) (call : Call)

namespace Route

def openBelow (route : Route) : Build (Except Error Unit × Route) := fun w =>
  match route.openSubrouter w with
  | (child, w) => ((.ok (), route.setSubrouter (some child)), w)

def callBelow (call : Router → Build (Except Error Unit × Router)) (route : Route) :
    Build (Except Error Unit × Route) := fun w =>
  match route.subrouter? with
  | none => ((.ok (), route), w)
  | some child =>
    match call child w with
    | ((answer, child), w) => ((answer, route.setSubrouter (some child)), w)

theorem callBelow_of_none {route : Route} (h : route.subrouter? = none)
    (call : Router → Build (Except Error Unit × Router)) (w : Workshop) :
    route.callBelow call w = ((.ok (), route), w) := by
  rw [callBelow, h]

theorem callBelow_of_some {route : Route} {child : Router} (h : route.subrouter? = some child)
    (call : Router → Build (Except Error Unit × Router)) (w : Workshop) :
    route.callBelow call w = (((call child w).1.1,
      route.setSubrouter (some (call child w).1.2)), (call child w).2) := by
  rw [callBelow, h]
  rfl

theorem setSubrouter_self {route : Route} {child : Router} (h : route.subrouter? = some child) :
    route.setSubrouter (some child) = route := by
  obtain ⟨info, handler, middleware, subrouter⟩ := route
  exact congrArg (mk info handler middleware) h.symm

end Route

structure Paired {α : Type} (P : α → Route → Prop) (entries : List α) (routes : List Route) :
    Prop where
  length : entries.length = routes.length
  related : ∀ (place : Nat) (entry : α) (route : Route), entries[place]? = some entry →
    routes[place]? = some route → P entry route

namespace Paired

variable {α : Type} {P : α → Route → Prop} {entries : List α} {routes : List Route}

theorem exists_entry (h : Paired P entries routes) {place : Nat} {route : Route}
    (hr : routes[place]? = some route) : ∃ entry, entries[place]? = some entry ∧ P entry route := by
  have hplace := h.length.symm ▸ (List.getElem?_eq_some_iff.1 hr).1
  have he := List.getElem?_eq_getElem hplace
  exact ⟨_, he, h.related place _ route he hr⟩

/-- A route is replaced, and its entry with it. -/
theorem modify (h : Paired P entries routes) {place : Nat} {route next : Route}
    (hr : routes[place]? = some route) {change : α → α}
    (hc : ∀ entry, P entry route → P (change entry) next) :
    Paired P (entries.modify place change) (routes.set place next) := by
  refine ⟨by rw [List.length_modify, List.length_set, h.length], fun i other later ho hl => ?_⟩
  by_cases hi : place = i
  · subst hi
    rw [List.getElem?_set_self (List.getElem?_eq_some_iff.1 hr).1] at hl
    rw [List.getElem?_modify_eq] at ho
    obtain ⟨entry, he, rfl⟩ := Option.map_eq_some_iff.1 ho
    cases hl
    exact hc entry (h.related place entry route he hr)
  · rw [List.getElem?_set_ne hi] at hl
    rw [List.getElem?_modify_ne _ _ hi] at ho
    exact h.related i other later ho hl

theorem concat (h : Paired P entries routes) {entry : α} {route : Route} (he : P entry route) :
    Paired P (entries ++ [entry]) (routes ++ [route]) := by
  refine ⟨?_, fun i other later ho hl => ?_⟩
  · rw [List.length_append, List.length_append, h.length, List.length_singleton,
      List.length_singleton]
  by_cases hi : i < routes.length
  · rw [List.getElem?_append_left hi] at hl
    rw [List.getElem?_append_left (h.length ▸ hi)] at ho
    exact h.related i other later ho hl
  · have hi := Nat.le_of_not_lt hi
    rw [List.getElem?_append_right hi] at hl
    rw [List.getElem?_append_right (h.length ▸ hi)] at ho
    obtain rfl := List.mem_singleton.1 (List.mem_of_getElem? hl)
    obtain rfl := List.mem_singleton.1 (List.mem_of_getElem? ho)
    exact he

end Paired

namespace Router

def update (place : Nat) (change : Route → Build (Except Error Unit × Route)) (router : Router) :
    Build (Except Error Unit × Router) := fun w =>
  match router.routes[place]? with
  | none => ((.ok (), router), w)
  | some route =>
    match change route w with
    | ((answer, route), w) => ((answer, { router with routes := router.routes.set place route }), w)

def call : Call → Router → Build (Except Error Unit × Router)
  | .configure step, router => pure (.ok (), router.apply step)
  | .register steps, router => router.register steps
  | .route place step, router => router.update place (Route.apply step)
  | .delegate place, router => router.update place Route.openBelow
  | .inside place c, router => router.update place (Route.callBelow (call c))

def callAll : List Call → Router → Build (List (Except Error Unit) × Router)
  | [], router, w => (([], router), w)
  | c :: rest, router, w =>
    match router.call c w with
    | ((answer, router), w) =>
      match callAll rest router w with
      | ((answers, router), w) => ((answer :: answers, router), w)

def after (calls : List Call) (router : Router) (w : Workshop) : Router :=
  (callAll calls router w).1.2

def succeeds (calls : List Call) (router : Router) (w : Workshop) : Bool :=
  (callAll calls router w).1.1.all (·.isOk)

theorem succeeds_cons (c : Call) (rest : List Call) (router : Router) (w : Workshop) :
    succeeds (c :: rest) router w = ((router.call c w).1.1.isOk
      && succeeds rest (router.call c w).1.2 (router.call c w).2) := rfl

theorem after_cons (c : Call) (rest : List Call) (router : Router) (w : Workshop) :
    after (c :: rest) router w = after rest (router.call c w).1.2 (router.call c w).2 := rfl

theorem after_append (calls more : List Call) (router : Router) (w : Workshop) :
    after (calls ++ more) router w
      = after more (callAll calls router w).1.2 (callAll calls router w).2 := by
  induction calls generalizing router w with
  | nil => rfl
  | cons c rest ih =>
    rw [List.cons_append, after_cons, ih]
    rfl

theorem update_of_none {place : Nat} {router : Router} (h : router.routes[place]? = none)
    (change : Route → Build (Except Error Unit × Route)) (w : Workshop) :
    router.update place change w = ((.ok (), router), w) := by
  rw [update, h]

theorem update_of_some {place : Nat} {router : Router} {route : Route}
    (h : router.routes[place]? = some route)
    (change : Route → Build (Except Error Unit × Route)) (w : Workshop) :
    router.update place change w = (((change route w).1.1,
      { router with routes := router.routes.set place (change route w).1.2 }),
      (change route w).2) := by
  rw [update, h]
  rfl

theorem update_single {router : Router} {route : Route} (h : router.routes = [route])
    (change : Route → Build (Except Error Unit × Route)) (w : Workshop) :
    router.update 0 change w = (((change route w).1.1,
      { router with routes := [(change route w).1.2] }), (change route w).2) := by
  have h0 : router.routes[0]? = some route := by rw [h, List.getElem?_cons_zero]
  rw [update_of_some h0, h, List.set_cons_zero]

def setRoute (router : Router) (place : Nat) (route : Route) : Router :=
  { router with routes := router.routes.set place route }

section
variable {router : Router} {place : Nat} {before : Route}
  (h : router.routes[place]? = some before)
include h

theorem getElem?_setRoute (route : Route) :
    (router.setRoute place route).routes[place]? = some route :=
  List.getElem?_set_self (List.getElem?_eq_some_iff.1 h).1

theorem setRoute_self : router.setRoute place before = router := by
  obtain ⟨hl, he⟩ := List.getElem?_eq_some_iff.1 h
  rw [setRoute, ← he, List.set_getElem_self]

end

theorem setRoute_setRoute (router : Router) (place : Nat) (route other : Route) :
    (router.setRoute place route).setRoute place other = router.setRoute place other := by
  rw [setRoute, setRoute, List.set_set]
  rfl

/-- Calls below a route are calls on the router there. -/
theorem callAll_below (calls : List Call) {router child : Router} {place : Nat} {route : Route}
    (hr : router.routes[place]? = some route) (hs : route.subrouter? = some child) (w : Workshop) :
    callAll (calls.map (.inside place)) router w = (((callAll calls child w).1.1,
      router.setRoute place (route.setSubrouter (some (after calls child w)))),
      (callAll calls child w).2) := by
  induction calls generalizing router route child w with
  | nil =>
    change _ = (([], router.setRoute place (route.setSubrouter (some child))), w)
    rw [Route.setSubrouter_self hs, setRoute_self hr]
    rfl
  | cons c rest ih =>
    have hc : router.call (.inside place c) w = (((child.call c w).1.1,
        router.setRoute place (route.setSubrouter (some (child.call c w).1.2))),
        (child.call c w).2) := by
      rw [call, update_of_some hr, Route.callBelow_of_some hs]
      rfl
    have hbelow : (route.setSubrouter (some (child.call c w).1.2)).subrouter?
        = some (child.call c w).1.2 := rfl
    simp only [List.map_cons, callAll, hc]
    rw [ih (getElem?_setRoute hr _) hbelow, setRoute_setRoute]
    rfl

theorem settings_update (place : Nat) (change : Route → Build (Except Error Unit × Route))
    (router : Router) (w : Workshop) :
    (router.update place change w).1.2.settings = router.settings := by
  unfold update
  cases router.routes[place]? <;> rfl

theorem settings_call {c : Call} (h : ∀ step, c ≠ .configure step) (router : Router)
    (w : Workshop) : (router.call c w).1.2.settings = router.settings := by
  cases c with
  | configure step => exact absurd rfl (h step)
  | register steps =>
    simp only [call, register]
    split <;> rfl
  | route place step => exact settings_update place _ router w
  | delegate place => exact settings_update place _ router w
  | inside place c => exact settings_update place _ router w

theorem settings_after {calls : List Call} (h : ∀ c ∈ calls, ∀ step, c ≠ .configure step)
    (router : Router) (w : Workshop) : (after calls router w).settings = router.settings := by
  induction calls generalizing router w with
  | nil => rfl
  | cons c rest ih =>
    rw [after_cons, ih fun other ho => h other (List.mem_cons_of_mem c ho)]
    exact settings_call (h c List.mem_cons_self) router w

def Reachable (router : Router) : Prop :=
  ∃ scope calls w, (callAll calls (.ofSettings .initial scope) w).1.2 = router

end Router

/-- A condition on the settings of routers and one that relates these to their routes, such that new
routers and routes meet them and no step breaks them. -/
structure Invariant (Q : Settings → Prop) (R : Settings → Route → Prop) : Prop where
  initial : Q .initial
  configured : ∀ (router : Router) step, Q router.settings → Q (router.apply step).settings
  draft : ∀ s, Q s → R s (.ofSettings s)
  kept : ∀ (router : Router) step route, Q router.settings → R router.settings route →
    R (router.apply step).settings route
  applied : ∀ s route step w, Q s → R s route → R s (Route.apply step route w).1.2
  delegating : ∀ s route child, Q s → R s route → R s (route.setSubrouter child)
  opened : ∀ s route, Q s → R s route → Q route.settings

namespace Invariant

variable {Q : Settings → Prop} {R : Settings → Route → Prop}

def Holds (Q : Settings → Prop) (R : Settings → Route → Prop) (router : Router) : Prop :=
  Q router.settings ∧ ∀ route ∈ router.routes, R router.settings route

theorem applyAll (inv : Invariant Q R) {s : Settings} (hs : Q s) (steps : List RouteStep)
    (route : Route) (w : Workshop) (h : R s route) : R s (Route.applyAll steps route w).1.2 := by
  induction steps generalizing route w with
  | nil => exact h
  | cons step rest ih =>
    have ha := inv.applied s route step w hs h
    rw [Route.applyAll]
    generalize Route.apply step route w = result at ha
    obtain ⟨⟨answer, next⟩, w'⟩ := result
    cases answer with
    | error e => exact ha
    | ok _ => exact ih next w' ha

theorem update {router : Router} (h : Router.Throughout (Holds Q R) router) (place : Nat)
    {change : Route → Build (Except Error Unit × Route)}
    (hc : ∀ route ∈ router.routes, ∀ w, R router.settings (change route w).1.2 ∧
      ∀ child, (change route w).1.2.subrouter? = some child →
        Router.Throughout (Holds Q R) child)
    (w : Workshop) : Router.Throughout (Holds Q R) (router.update place change w).1.2 := by
  unfold Router.update
  cases hp : router.routes[place]? with
  | none => exact h
  | some route =>
    obtain ⟨hr, hb⟩ := hc route (List.mem_of_getElem? hp) w
    refine ⟨⟨h.here.1, ?_⟩, ?_⟩
    · intro other ho
      rcases List.mem_or_eq_of_mem_set ho with ho | rfl
      · exact h.here.2 other ho
      · exact hr
    · intro other ho child hchild
      rcases List.mem_or_eq_of_mem_set ho with ho | rfl
      · exact h.deeper other ho child hchild
      · exact hb child hchild

theorem ofSettings {s : Settings} (hs : Q s) (scope : ScopeId) :
    Router.Throughout (Holds Q R) (.ofSettings s scope) :=
  ⟨⟨hs, nofun⟩, nofun⟩

theorem configure (inv : Invariant Q R) {router : Router}
    (h : Router.Throughout (Holds Q R) router) (step : RouterStep) :
    Router.Throughout (Holds Q R) (router.apply step) := by
  have hr : (router.apply step).routes = router.routes := by cases step <;> rfl
  refine ⟨⟨inv.configured router step h.here.1, ?_⟩, ?_⟩
  · intro route hm
    exact inv.kept router step route h.here.1 (h.here.2 route (hr ▸ hm))
  · rw [hr]
    exact h.deeper

theorem register (inv : Invariant Q R) {router : Router}
    (h : Router.Throughout (Holds Q R) router) (steps : List RouteStep) (w : Workshop) :
    Router.Throughout (Holds Q R) (router.register steps w).1.2 := by
  have ha := inv.applyAll h.here.1 steps router.draft w (inv.draft _ h.here.1)
  have hg := Route.applyAll_grows steps router.draft w
  unfold Router.register
  generalize Route.applyAll steps router.draft w = result at ha hg
  obtain ⟨⟨answer, route⟩, w'⟩ := result
  cases answer with
  | error e => exact h
  | ok _ =>
    refine ⟨⟨h.here.1, ?_⟩, ?_⟩
    · intro other ho
      rcases List.mem_append.1 ho with ho | ho
      · exact h.here.2 other ho
      · rw [List.mem_singleton.1 ho]
        exact ha
    · intro other ho child hchild
      rcases List.mem_append.1 ho with ho | ho
      · exact h.deeper other ho child hchild
      · rw [List.mem_singleton.1 ho, hg.subrouter] at hchild
        cases hchild

/-- Every call keeps an invariant throughout the tree. -/
theorem call (inv : Invariant Q R) (c : Call) {router : Router}
    (h : Router.Throughout (Holds Q R) router) (w : Workshop) :
    Router.Throughout (Holds Q R) (router.call c w).1.2 := by
  induction c generalizing router w with
  | configure step => exact inv.configure h step
  | register steps => exact inv.register h steps w
  | route place step =>
    refine update h place ?_ w
    intro route hm w
    refine ⟨inv.applied _ route step w h.here.1 (h.here.2 route hm), ?_⟩
    rw [(Route.apply_grows step route w).subrouter]
    exact h.deeper route hm
  | delegate place =>
    refine update h place ?_ w
    intro route hm w
    have hr := h.here.2 route hm
    refine ⟨inv.delegating _ route _ h.here.1 hr, ?_⟩
    rintro child ⟨⟩
    exact ofSettings (inv.opened _ route h.here.1 hr) _
  | inside place c ih =>
    refine update h place ?_ w
    intro route hm w
    have hr := h.here.2 route hm
    cases hs : route.subrouter? with
    | none =>
      rw [Route.callBelow_of_none hs]
      exact ⟨hr, fun child hchild => absurd (hs.symm.trans hchild) nofun⟩
    | some child =>
      rw [Route.callBelow_of_some hs]
      refine ⟨inv.delegating _ route _ h.here.1 hr, ?_⟩
      rintro after ⟨⟩
      exact ih (h.deeper route hm child hs) w

theorem callAll (inv : Invariant Q R) (calls : List Call) {router : Router}
    (h : Router.Throughout (Holds Q R) router) (w : Workshop) :
    Router.Throughout (Holds Q R) (router.callAll calls w).1.2 := by
  induction calls generalizing router w with
  | nil => exact h
  | cons c rest ih => exact ih (inv.call c h w) _

theorem reachable (inv : Invariant Q R) {router : Router} (h : router.Reachable) :
    Router.Throughout (Holds Q R) router := by
  obtain ⟨scope, calls, w, rfl⟩ := h
  exact inv.callAll calls (ofSettings inv.initial scope) w

end Invariant

def RouteStep.narrows : RouteStep → Bool
  | handler _ | name _ | buildOnly | metadata _ _ | use _ => false
  | _ => true

def Call.Spares : Call → Router → Prop
  | .route place step, router => ∀ route, router.routes[place]? = some route →
      route.subrouter? ≠ none → step.narrows = false
  | .inside place c, router => ∀ route child, router.routes[place]? = some route →
      route.subrouter? = some child → c.Spares child
  | .configure _, _ | .register _, _ | .delegate _, _ => True

namespace Router

def Spared : List Call → Router → Workshop → Prop
  | [], _, _ => True
  | c :: rest, router, w =>
    c.Spares router ∧ Spared rest (router.call c w).1.2 (router.call c w).2

/-- Every delegating route has the matchers with which the router below it began, as none was added
since then. -/
def Settled (router : Router) : Prop :=
  ∀ route ∈ router.routes, ∀ child, route.subrouter? = some child →
    child.settings.matchers = route.settings.matchers

theorem matchers_of_not_narrows {step : RouteStep} (h : step.narrows = false) (route : Route)
    (w : Workshop) :
    (Route.apply step route w).1.2.settings.matchers = route.settings.matchers := by
  cases step <;> first | rfl | cases h

theorem matchers_call (c : Call) (router : Router) (w : Workshop) :
    (router.call c w).1.2.settings.matchers = router.settings.matchers := by
  cases c with
  | configure step => cases step <;> rfl
  | _ => rw [settings_call (by intro step h; cases h)]

theorem matchers_after (calls : List Call) (router : Router) (w : Workshop) :
    (after calls router w).settings.matchers = router.settings.matchers := by
  induction calls generalizing router w with
  | nil => rfl
  | cons c rest ih => rw [after_cons, ih, matchers_call]

theorem settled_ofSettings (s : Settings) (scope : ScopeId) :
    Throughout Settled (.ofSettings s scope) := ⟨nofun, nofun⟩

/-- A route may change if its matchers stay those with which the router below it begins. -/
theorem settled_update {router : Router} (h : Throughout Settled router) (place : Nat)
    {change : Route → Build (Except Error Unit × Route)} {w : Workshop}
    (hc : ∀ route, router.routes[place]? = some route → ∀ child,
      (change route w).1.2.subrouter? = some child →
        child.settings.matchers = (change route w).1.2.settings.matchers ∧
          Throughout Settled child) :
    Throughout Settled (router.update place change w).1.2 := by
  unfold update
  cases hp : router.routes[place]? with
  | none => exact h
  | some route =>
    have hr := hc route hp
    refine ⟨fun other ho child hchild => ?_, fun other ho child hchild => ?_⟩
    · rcases List.mem_or_eq_of_mem_set ho with ho | rfl
      · exact h.here other ho child hchild
      · exact (hr child hchild).1
    · rcases List.mem_or_eq_of_mem_set ho with ho | rfl
      · exact h.deeper other ho child hchild
      · exact (hr child hchild).2

theorem settled_call (c : Call) {router : Router} (h : Throughout Settled router)
    (hs : c.Spares router) (w : Workshop) : Throughout Settled (router.call c w).1.2 := by
  induction c generalizing router w with
  | configure step =>
    have hr : (router.apply step).routes = router.routes := by cases step <;> rfl
    exact ⟨fun route hm => h.here route (hr ▸ hm), fun route hm => h.deeper route (hr ▸ hm)⟩
  | register steps =>
    have hg := Route.applyAll_grows steps router.draft w
    simp only [call, Router.register]
    generalize Route.applyAll steps router.draft w = result at hg
    obtain ⟨⟨answer, route⟩, w'⟩ := result
    cases answer with
    | error e => exact h
    | ok _ =>
      have hn : route.subrouter? = none := hg.subrouter
      refine ⟨fun other ho child hchild => ?_, fun other ho child hchild => ?_⟩
      · rcases List.mem_append.1 ho with ho | ho
        · exact h.here other ho child hchild
        · rw [List.mem_singleton.1 ho, hn] at hchild
          cases hchild
      · rcases List.mem_append.1 ho with ho | ho
        · exact h.deeper other ho child hchild
        · rw [List.mem_singleton.1 ho, hn] at hchild
          cases hchild
  | route place step =>
    refine settled_update h place fun route hp child hchild => ?_
    rw [(Route.apply_grows step route w).subrouter] at hchild
    have hn : step.narrows = false := hs route hp (by rw [hchild]; exact nofun)
    have hm := List.mem_of_getElem? hp
    rw [matchers_of_not_narrows hn]
    exact ⟨h.here route hm child hchild, h.deeper route hm child hchild⟩
  | delegate place =>
    refine settled_update h place fun route hp child hchild => ?_
    cases hchild
    exact ⟨rfl, settled_ofSettings _ _⟩
  | inside place c ih =>
    refine settled_update h place fun route hp child hchild => ?_
    have hm := List.mem_of_getElem? hp
    cases hr : route.subrouter? with
    | none =>
      rw [Route.callBelow_of_none hr] at hchild
      exact absurd (hr.symm.trans hchild) nofun
    | some before =>
      rw [Route.callBelow_of_some hr] at hchild ⊢
      cases hchild
      exact ⟨(matchers_call c before w).trans (h.here route hm before hr),
        ih (h.deeper route hm before hr) (hs route before hp hr) w⟩

/-- A tree is settled if its routes got their matchers before they began to delegate. -/
theorem settled_after {calls : List Call} {router : Router} (h : Throughout Settled router)
    {w : Workshop} (hs : Spared calls router w) : Throughout Settled (after calls router w) := by
  induction calls generalizing router w with
  | nil => exact h
  | cons c rest ih => exact ih (settled_call c h hs.1 w) hs.2

end Router
end HttpRouter
