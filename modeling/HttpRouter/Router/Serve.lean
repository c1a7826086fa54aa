import HttpRouter.Router.Dispatch

set_option autoImplicit false

/-!
# Serving requests

A route that was found answers inside its own middleware and that of every router on the way to it.
Misses, wrong methods and paths that are not clean are answered by the router itself, without any
middleware.
-/
namespace HttpRouter

namespace Found

/-- The middleware of the route around the handler, and around that the middleware of the routers,
the innermost first. -/
def chain (found : Found) (handler : Handler) : Handler :=
  found.scopes.foldl (fun handler router => Middleware.chain router.middleware handler)
    (Middleware.chain found.route.middleware handler)

def context (found : Found) : Context :=
  ⟨some found.route.info, found.vars,
    found.scopes.map fun router => ⟨router.scope, router.allowedMethods⟩, []⟩

end Found

namespace Router

def fallbackContext (allowed : List Method) : Context := ⟨none, .empty, [], allowed⟩

def serve (router : Router) (ctx : Context) (request : Request) (binder : Binder) (x : Exchange) :
    Result :=
  match router.resolve request with
  | .matched found => found.chain found.handler found.context request binder x
  | .methodMismatch allowed =>
    (router.methodNotAllowed.getD Handler.methodNotAllowed) (fallbackContext allowed) request binder x
  | .redirect location (some found) =>
    found.chain (Handler.redirect location) found.context request binder x
  | .redirect location none => Handler.redirect location ctx request binder x
  | .notFound => (router.notFound.getD Handler.notFound) (fallbackContext []) request binder x

end Router
end HttpRouter
