import HttpRouter.Handler.Basic

set_option autoImplicit false

namespace HttpRouter

/-- A router over routes of some kind.  The settings are those that new routes begin with, and the
scope identifies the router. -/
structure RouterOf (α : Type) where
  routes : List α
  middleware : List Middleware
  notFound : Option Handler
  methodNotAllowed : Option Handler
  settings : Settings
  scope : ScopeId

inductive Route where
  | mk (info : RouteInfo) (handler : Option Handler) (middleware : List Middleware)
      (subrouter : Option (RouterOf Route))

abbrev Router := RouterOf Route

namespace Route

def ofSettings (settings : Settings) : Route := mk (.ofSettings settings) none [] none

def info : Route → RouteInfo
  | mk info _ _ _ => info

def handler? : Route → Option Handler
  | mk _ handler _ _ => handler

def middleware : Route → List Middleware
  | mk _ _ middleware _ => middleware

def subrouter? : Route → Option Router
  | mk _ _ _ subrouter => subrouter

def settings (r : Route) : Settings := r.info.settings

def methods (r : Route) : Except Error (List Method) := r.settings.methods

end Route

namespace RouterOf

variable {α : Type}

def ofSettings (settings : Settings) (scope : ScopeId) : RouterOf α :=
  ⟨[], [], none, none, settings, scope⟩

end RouterOf

namespace Router

def new : Build Router := do
  pure (RouterOf.ofSettings .initial (← Workshop.fresh))

/-- The routes in their order, without those whose configuration failed. -/
def liveRoutes (r : Router) : List Route := r.routes.filter (·.info.live)

end Router
end HttpRouter
