import HttpRouter.Proofs.Router.Failure

set_option autoImplicit false

namespace HttpRouter

/-- The steps with which routes of a router begin, and for each route those that made it with the
chronicle of the router below it. -/
inductive Chronicle where
  | mk (inherited : List RouteStep) (entries : List (List RouteStep × Chronicle))

namespace Chronicle

def inherited : Chronicle → List RouteStep
  | mk inherited _ => inherited

def entries : Chronicle → List (List RouteStep × Chronicle)
  | mk _ entries => entries

def opened (inherited : List RouteStep) : Chronicle := mk inherited []

end Chronicle

namespace Route

def done (step : RouteStep) (route : Route) (w : Workshop) : List RouteStep :=
  match (route.apply step w).1.1 with
  | .ok () => [step]
  | .error _ => []

end Route

namespace Chronicle

def update (place : Nat) (router : Router)
    (change : List RouteStep × Chronicle → Route → List RouteStep × Chronicle)
    (chronicle : Chronicle) : Chronicle :=
  match router.routes[place]? with
  | none => chronicle
  | some route => mk chronicle.inherited (chronicle.entries.modify place (change · route))

/-- The chronicle after a call on the router.  A registration that succeeds does so with all its
steps. -/
def record : Chronicle → Call → Router → Workshop → Chronicle
  | chronicle, .configure _, _, _ => chronicle
  | chronicle, .register steps, router, w =>
    match (router.register steps w).1.1 with
    | .error _ => chronicle
    | .ok () => mk chronicle.inherited
        (chronicle.entries ++ [(chronicle.inherited ++ steps, opened [])])
  | chronicle, .route place step, router, w =>
    chronicle.update place router fun (past, below) route => (past ++ route.done step w, below)
  | chronicle, .delegate place, router, _ =>
    chronicle.update place router fun (past, _) _ => (past, opened past)
  | chronicle, .inside place c, router, w =>
    chronicle.update place router fun (past, below) route =>
      match route.subrouter? with
      | none => (past, below)
      | some child => (past, record below c child w)

def recordAll : Chronicle → List Call → Router → Workshop → Chronicle
  | chronicle, [], _, _ => chronicle
  | chronicle, c :: rest, router, w =>
    recordAll (chronicle.record c router w) rest (router.call c w).1.2 (router.call c w).2

def stepsAt? : List Nat → Nat → Chronicle → Option (List RouteStep)
  | [], place, chronicle => (chronicle.entries[place]?).map Prod.fst
  | first :: rest, place, chronicle =>
    (chronicle.entries[first]?).bind fun entry => stepsAt? rest place entry.2

/-- A relation between steps and the settings that they lead to, in which new routers are and which
every step keeps. -/
structure Kept (R : List RouteStep → Settings → Prop) : Prop where
  initial : R [] .initial
  configured : ∀ past step (router : Router), R past router.settings →
    R past (router.apply step).settings
  applied : ∀ past step (route : Route) w, R past route.settings →
    R (past ++ route.done step w) (Route.apply step route w).1.2.settings

inductive Describes (R : List RouteStep → Settings → Prop) : Chronicle → Router → Prop
  | intro {chronicle : Chronicle} {router : Router}
    (inherited : R chronicle.inherited router.settings)
    (length : chronicle.entries.length = router.routes.length)
    (routes : ∀ (place : Nat) past below (route : Route),
      chronicle.entries[place]? = some (past, below) → router.routes[place]? = some route →
      R past route.settings)
    (deeper : ∀ (place : Nat) past below (route : Route) child,
      chronicle.entries[place]? = some (past, below) → router.routes[place]? = some route →
      route.subrouter? = some child → Describes R below child) :
    Describes R chronicle router

variable {R : List RouteStep → Settings → Prop}

theorem Kept.applyAll (kept : Kept R) {steps past : List RouteStep} {route after : Route}
    {w w' : Workshop} (h : R past route.settings)
    (ha : Route.applyAll steps route w = ((.ok (), after), w')) :
    R (past ++ steps) after.settings := by
  induction steps generalizing past route w with
  | nil =>
    cases ha
    rwa [List.append_nil]
  | cons step rest ih =>
    have hstep := kept.applied past step route w h
    rw [Route.applyAll] at ha
    rw [Route.done] at hstep
    generalize route.apply step w = result at ha hstep
    obtain ⟨⟨answer, next⟩, w''⟩ := result
    cases answer with
    | error e => cases ha
    | ok _ =>
      rw [← List.singleton_append, ← List.append_assoc]
      exact ih hstep ha

namespace Describes

variable {chronicle : Chronicle} {router : Router}

def Entry (R : List RouteStep → Settings → Prop) (entry : List RouteStep × Chronicle)
    (route : Route) : Prop :=
  R entry.1 route.settings ∧ ∀ child, route.subrouter? = some child → Describes R entry.2 child

theorem of_paired (inherited : R chronicle.inherited router.settings)
    (paired : Paired (Entry R) chronicle.entries router.routes) : Describes R chronicle router :=
  .intro inherited paired.length
    (fun place _ _ route he hr => (paired.related place _ route he hr).1)
    (fun place _ _ route child he hr => (paired.related place _ route he hr).2 child)

theorem inherited (h : Describes R chronicle router) : R chronicle.inherited router.settings := by
  cases h
  assumption

theorem paired (h : Describes R chronicle router) :
    Paired (Entry R) chronicle.entries router.routes := by
  cases h with
  | intro _ length routes deeper =>
    exact ⟨length, fun place _ route he hr =>
      ⟨routes place _ _ route he hr, fun child => deeper place _ _ route child he hr⟩⟩

theorem opened {past : List RouteStep} {s : Settings} (h : R past s) (scope : ScopeId) :
    Describes R (Chronicle.opened past) (.ofSettings s scope) := of_paired h ⟨rfl, nofun⟩

/-- A change of one route and its entry. -/
theorem update (h : Describes R chronicle router) (place : Nat)
    {change : Route → Build (Except Error Unit × Route)}
    {note : List RouteStep × Chronicle → Route → List RouteStep × Chronicle} {w : Workshop}
    (hc : ∀ entry route, Entry R entry route → Entry R (note entry route) (change route w).1.2) :
    Describes R (chronicle.update place router note) (router.update place change w).1.2 := by
  cases hr : router.routes[place]? with
  | none =>
    rw [Router.update_of_none hr, Chronicle.update, hr]
    exact h
  | some route =>
    rw [Router.update_of_some hr, Chronicle.update, hr]
    exact of_paired h.inherited (h.paired.modify hr fun entry he => hc entry route he)

theorem configure (kept : Kept R) (h : Describes R chronicle router) (step : RouterStep) :
    Describes R chronicle (router.apply step) := by
  have hr : (router.apply step).routes = router.routes := by cases step <;> rfl
  exact of_paired (kept.configured _ step router h.inherited) (hr ▸ h.paired)

theorem register (kept : Kept R) (h : Describes R chronicle router) (steps : List RouteStep)
    (w : Workshop) : Describes R (chronicle.record (.register steps) router w)
      (router.register steps w).1.2 := by
  have hg := Route.applyAll_grows steps router.draft w
  have hi : R chronicle.inherited router.draft.settings := h.inherited
  have ha : ∀ after w', Route.applyAll steps router.draft w = ((.ok (), after), w') →
      R (chronicle.inherited ++ steps) after.settings := fun _ _ => kept.applyAll hi
  simp only [record, Router.register]
  generalize Route.applyAll steps router.draft w = result at ha hg
  obtain ⟨⟨answer, route⟩, after⟩ := result
  cases answer with
  | error e => exact h
  | ok _ =>
    refine of_paired h.inherited (h.paired.concat ⟨ha route after rfl, fun child hs => ?_⟩)
    rw [hg.subrouter] at hs
    cases hs

/-- The chronicle after a call describes the tree after it, whether the call fails or not. -/
theorem call (kept : Kept R) (c : Call) (h : Describes R chronicle router) (w : Workshop) :
    Describes R (chronicle.record c router w) (router.call c w).1.2 := by
  induction c generalizing chronicle router w with
  | configure step => exact h.configure kept step
  | register steps => exact h.register kept steps w
  | route place step =>
    refine h.update place fun entry route he => ⟨kept.applied _ step route w he.1, ?_⟩
    rw [(Route.apply_grows step route w).subrouter]
    exact he.2
  | delegate place =>
    -- The new router begins with the settings of the route, and so with its steps until now.
    refine h.update place fun entry route he => ⟨he.1, ?_⟩
    rintro child ⟨⟩
    exact opened he.1 _
  | inside place c ih =>
    refine h.update place fun entry route he => ?_
    cases hs : route.subrouter? with
    | none =>
      rw [Route.callBelow_of_none hs]
      exact he
    | some child =>
      rw [Route.callBelow_of_some hs]
      refine ⟨he.1, ?_⟩
      rintro after ⟨⟩
      exact ih (he.2 child hs) w

theorem callAll (kept : Kept R) (calls : List Call) (h : Describes R chronicle router)
    (w : Workshop) :
    Describes R (chronicle.recordAll calls router w) (Router.after calls router w) := by
  induction calls generalizing chronicle router w with
  | nil => exact h
  | cons c rest ih => exact ih (h.call kept c w) _

theorem stepsAt? (h : Describes R chronicle router) {outer : List Nat} {place : Nat}
    {route : Route} (hr : router.routeAt? outer place = some route) :
    ∃ past, chronicle.stepsAt? outer place = some past ∧ R past route.settings := by
  induction outer generalizing chronicle router with
  | nil =>
    obtain ⟨entry, he, hentry⟩ := h.paired.exists_entry hr
    exact ⟨entry.1, congrArg (Option.map Prod.fst) he, hentry.1⟩
  | cons first rest ih =>
    obtain ⟨parent, hparent, hr⟩ := Option.bind_eq_some_iff.1 hr
    obtain ⟨child, hchild, hr⟩ := Option.bind_eq_some_iff.1 hr
    obtain ⟨entry, he, hentry⟩ := h.paired.exists_entry hparent
    obtain ⟨past, hpast, hkept⟩ := ih (hentry.2 child hchild) hr
    exact ⟨past, Option.bind_eq_some_iff.2 ⟨entry, he, hpast⟩, hkept⟩

end Describes

/-- Whatever calls are made on a new router, what is kept along steps holds of every route that is in
the tree then, and of the steps that made it. -/
theorem Kept.routeAt? (kept : Kept R) (calls : List Call) (scope : ScopeId) (w : Workshop)
    {outer : List Nat} {place : Nat} {route : Route}
    (hr : (Router.after calls (.ofSettings .initial scope) w).routeAt? outer place = some route) :
    ∃ past, ((opened []).recordAll calls (.ofSettings .initial scope) w).stepsAt? outer place
      = some past ∧ R past route.settings :=
  ((Describes.opened kept.initial scope).callAll kept calls w).stepsAt? hr

end Chronicle
end HttpRouter
