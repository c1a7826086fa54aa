import HttpRouter.Route.Basic
import HttpRouter.Http.Path

set_option autoImplicit false

/-!
# Dispatch

What becomes of a request: the first route that accepts it, in the order of registration and before
the routes below a later one, a redirect to another path, or the methods with which some route would
have accepted it.
-/
namespace HttpRouter

/-- The route that accepted a request, with the routers on the way to it, innermost first. -/
structure Found where
  route : Route
  vars : Vars
  handler : Handler
  scopes : List Router

inductive Outcome where
  | matched (found : Found)
  | methodMismatch (allowed : List Method)
  /-- Without a route if the path of the request was not clean. -/
  | redirect (location : Text) (found : Option Found)
  | notFound

namespace Outcome

def mapFound (f : Found → Found) : Outcome → Outcome
  | matched found => matched (f found)
  | redirect location found => redirect location (found.map f)
  | other => other

def isFound : Outcome → Bool
  | matched _ | redirect _ _ => true
  | methodMismatch _ | notFound => false

def isNotFound : Outcome → Bool
  | notFound => true
  | _ => false

/-- Methods make a mismatch only if there are any. -/
def ofAllowed : List Method → Outcome
  | [] => notFound
  | allowed => methodMismatch allowed

end Outcome

def unite (known more : List Method) : List Method :=
  more.foldl (fun known m => if known.contains m then known else known ++ [m]) known

namespace Route

/-- The mismatch that a route reports once all its other matchers have accepted the request. -/
def mismatch (info : RouteInfo) : Outcome := .methodMismatch (info.settings.methods?.getD [])

/-- What a route without a subrouter makes of a request that its matchers accepted. -/
def answer (route : Route) (request : Request) (vars : Vars) : Outcome :=
  match route.handler? with
  | none => .notFound
  | some handler =>
    let found : Found := ⟨route, vars, handler, []⟩
    match route.settings.slashRedirect? request with
    | some location => .redirect location (some found)
    | none => .matched found

/-- What a route makes of the outcome of its subrouter.  A wrong method turns a match below into a
mismatch; otherwise the variables of the route are added to those of the match. -/
def delegate (info : RouteInfo) (vars : Vars) (wrongMethod : Bool) (below : Outcome) : Outcome :=
  if wrongMethod && below.isFound then mismatch info
  else below.mapFound fun found => { found with vars := found.vars.fillFrom vars }

end Route

mutual

/-- The outcome of a request at one route. -/
def Route.evaluate (request : Request) : Route → Outcome
  | .mk info handler middleware subrouter =>
    if info.buildOnly || info.inert then .notFound
    else
      match Settings.judge request info.settings.matchers .empty false with
      | none => .notFound
      | some (vars, wrongMethod) =>
        match subrouter with
        | some router => Route.delegate info vars wrongMethod (Router.scan request router)
        | none =>
          if wrongMethod then Route.mismatch info
          else Route.answer (.mk info handler middleware none) request vars

/-- The outcome of a request at the routes of a router. -/
def Router.scan (request : Request) : Router → Outcome
  | ⟨routes, middleware, notFound, methodNotAllowed, settings, scope⟩ =>
    (Router.scanRoutes request [] routes).mapFound fun found =>
      { found with
        scopes := found.scopes ++
          [⟨routes, middleware, notFound, methodNotAllowed, settings, scope⟩] }

/-- The first match or redirect, or else the methods that the routes allow, after those `allowed`
by earlier ones. -/
def Router.scanRoutes (request : Request) (allowed : List Method) : List Route → Outcome
  | [] => .ofAllowed allowed
  | route :: rest =>
    match Route.evaluate request route with
    | .notFound => Router.scanRoutes request allowed rest
    | .methodMismatch methods => Router.scanRoutes request (unite allowed methods) rest
    | found => found

end

mutual

/-- The route itself, or else the first one below it that has the name. -/
def Route.find? (name : Text) : Route → Option Route
  | .mk info handler middleware subrouter =>
    if info.name = some name then some (.mk info handler middleware subrouter)
    else match subrouter with
      | some router => Router.get? name router
      | none => none

/-- The first live route with a name, every route before those below it. -/
def Router.get? (name : Text) : Router → Option Route
  | ⟨routes, _, _, _, _, _⟩ => Router.getFrom? name routes

def Router.getFrom? (name : Text) : List Route → Option Route
  | [] => none
  | route :: rest =>
    if route.info.inert then Router.getFrom? name rest
    else match Route.find? name route with
      | some found => some found
      | none => Router.getFrom? name rest

end

namespace Router

/-- What dispatch decides, before any handler runs.  A path that is not clean is redirected, unless
the router leaves paths as they are. -/
def resolve (router : Router) (request : Request) : Outcome :=
  let clean := Path.clean request.path
  if !router.settings.skipClean && clean != request.path then
    .redirect (Settings.withQuery clean request.query) none
  else router.scan request

/-- The methods of the routes that accept a request but for its method, in their order.  One of
them that accepts every method leaves the question open. -/
def allowedFrom (request : Request) : List Method → List Route → Except Error (List Method)
  | [], [] => .error .noMatchingRoute
  | allowed, [] => .ok allowed
  | allowed, route :: rest =>
    if route.subrouter?.isSome || (route.evaluate request).isNotFound then
      allowedFrom request allowed rest
    else
      match route.methods with
      | .error e => .error e
      | .ok methods => allowedFrom request (unite allowed methods) rest

/-- The methods with which the routes of this router itself accept a request. -/
def allowedMethods (router : Router) (request : Request) : Except Error (List Method) :=
  allowedFrom request [] router.routes

end Router
end HttpRouter
