import HttpRouter.Route.Build

set_option autoImplicit false

namespace HttpRouter

/-- One step in the configuration of a router.  Settings hold for routes registered later. -/
inductive RouterStep where
  | strictSlash (value : Bool)
  | skipClean (value : Bool)
  | compiler (c : Compiler)
  | notFound (h : Handler)
  | methodNotAllowed (h : Handler)
  | use (m : Middleware)

namespace Router

def apply (step : RouterStep) (router : Router) : Router :=
  match step with
  | .strictSlash value => { router with settings := { router.settings with strictSlash := value } }
  | .skipClean value => { router with settings := { router.settings with skipClean := value } }
  | .compiler c => { router with settings := { router.settings with compiler := c } }
  | .notFound h => { router with notFound := some h }
  | .methodNotAllowed h => { router with methodNotAllowed := some h }
  | .use m => { router with middleware := router.middleware ++ [m] }

def draft (router : Router) : Route := .ofSettings router.settings

def add (router : Router) (route : Route) : Router :=
  { router with routes := router.routes ++ [route] }

/-- Configures a new route and registers it if every step succeeds. -/
def register (steps : List RouteStep) (router : Router) :
    Build (Except Error Unit × Router) := fun w =>
  match Route.applyAll steps router.draft w with
  | ((.error e, _), w) => ((.error e, router), w)
  | ((.ok (), route), w) => ((.ok (), router.add route), w)

def handle (template : Text) (handler : Handler) (router : Router) :
    Build (Except Error Unit × Router) :=
  router.register [.path template, .handler handler]

def last? (router : Router) : Option Route := router.routes.getLast?

def replaceLast (router : Router) (route : Route) : Router :=
  { router with routes := router.routes.dropLast ++ [route] }

end Router
end HttpRouter
