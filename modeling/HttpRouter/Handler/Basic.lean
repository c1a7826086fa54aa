import HttpRouter.Http.Response
import HttpRouter.Route.Settings

set_option autoImplicit false

/-!
# Handlers and middleware

A handler answers a request by what it does to an exchange: the response, and the flag by which the
caller may cancel the request.  It sees the context in which it was chosen.  Middleware turns one
handler into another.
-/
namespace HttpRouter

abbrev ScopeId := Nat

structure Scope where
  id : ScopeId
  allowedMethods : Request → Except Error (List Method)

/-- The route that was chosen, the variables it captured, the routers on the way to it, innermost
first, and the methods that would have been accepted if only the method was wrong. -/
structure Context where
  route : Option RouteInfo
  vars : Vars
  scopes : List Scope
  allowed : List Method

namespace Context

def background : Context := ⟨none, .empty, [], []⟩

def scope? (ctx : Context) (id : ScopeId) : Option Scope := ctx.scopes.find? fun scope => scope.id == id

end Context

/-- A value that the caller passes on to all handlers.  The router does not look inside. -/
inductive Binder where
  | nothing
  | text (t : Text)
  | integer (n : Int)
  | other
deriving DecidableEq, Repr

inductive Failure where
  | routing (e : Error)
  | other (message : Text)
deriving DecidableEq, Repr

def Failure.message : Failure → Text
  | routing e => e.message
  | other message => message

/-- What handlers change.  `cancelled` is there if the caller attached a flag. -/
structure Exchange where
  response : Response
  cancelled : Option Bool
deriving DecidableEq, Repr

abbrev Result := Except Failure Unit × Exchange

abbrev Handler := Context → Request → Binder → Exchange → Result

abbrev Middleware := Handler → Handler

namespace Exchange

def update (x : Exchange) (f : Response → Response) : Exchange :=
  { x with response := f x.response }

def cancel (x : Exchange) : Exchange := { x with cancelled := x.cancelled.map fun _ => true }

end Exchange

namespace Handler

def respond (f : Response → Response) : Handler := fun _ _ _ x => (.ok (), x.update f)

def notFound : Handler := respond (·.error "404 page not found".toList 404)

def methodNotAllowed : Handler := respond (·.setStatus 405)

def redirect (location : Text) : Handler := respond (·.redirectPermanent location)

end Handler

namespace Middleware

/-- The first of the list is the outermost. -/
def chain (list : List Middleware) (handler : Handler) : Handler :=
  list.foldr (fun wrap next => wrap next) handler

theorem chain_append (outer inner : List Middleware) (handler : Handler) :
    chain (outer ++ inner) handler = chain outer (chain inner handler) := by
  simp [chain]

def transparent : Middleware := id

end Middleware
end HttpRouter
