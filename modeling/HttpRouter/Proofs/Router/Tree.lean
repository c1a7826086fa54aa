import HttpRouter.Router.Dispatch

set_option autoImplicit false

namespace HttpRouter

def Route.Below (motive : Router → Prop) (routes : List Route) : Prop :=
  ∀ route ∈ routes, ∀ child, route.subrouter? = some child → motive child

mutual

theorem Route.below_induction {motive : Router → Prop}
    (step : ∀ router : Router, Route.Below motive router.routes → motive router) :
    ∀ (route : Route) (child : Router), route.subrouter? = some child → motive child
  | .mk _ _ _ none, _, h => nomatch h
  | .mk _ _ _ (some router), child, h => by
    cases h
    exact Router.tree_induction step router

theorem Router.tree_induction {motive : Router → Prop}
    (step : ∀ router : Router, Route.Below motive router.routes → motive router) :
    ∀ router, motive router
  | ⟨routes, _, _, _, _, _⟩ => step _ (Router.routes_induction step routes)

theorem Router.routes_induction {motive : Router → Prop}
    (step : ∀ router : Router, Route.Below motive router.routes → motive router) :
    ∀ routes : List Route, Route.Below motive routes
  | [] => nofun
  | first :: rest => by
    intro route h child hc
    rcases List.mem_cons.1 h with h | h
    · exact Route.below_induction step first child (h ▸ hc)
    · exact Router.routes_induction step rest route h child hc

end

mutual

def Route.routers : Route → List Router
  | .mk _ _ _ none => []
  | .mk _ _ _ (some router) => Router.routers router

def Router.routers : Router → List Router
  | ⟨routes, middleware, notFound, methodNotAllowed, settings, scope⟩ =>
    ⟨routes, middleware, notFound, methodNotAllowed, settings, scope⟩ :: Router.routersOf routes

def Router.routersOf : List Route → List Router
  | [] => []
  | route :: rest => Route.routers route ++ Router.routersOf rest

end

theorem Router.routers_eq (router : Router) :
    router.routers = router :: Router.routersOf router.routes := by
  obtain ⟨routes, middleware, notFound, methodNotAllowed, settings, scope⟩ := router
  rw [routers]

namespace Router

inductive Throughout (P : Router → Prop) : Router → Prop
  | intro {router : Router} (here : P router)
      (deeper : ∀ route ∈ router.routes, ∀ child, route.subrouter? = some child →
        Throughout P child) : Throughout P router

namespace Throughout

variable {P : Router → Prop} {router : Router}

theorem here (h : Throughout P router) : P router := by
  cases h with
  | intro here _ => exact here

theorem deeper (h : Throughout P router) : Route.Below (Throughout P) router.routes := by
  cases h with
  | intro _ deeper => exact deeper

end Throughout

end Router
end HttpRouter
