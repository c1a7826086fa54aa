import HttpRouter.Handler.Basic

set_option autoImplicit false

namespace HttpRouter

inductive Predicate where
  | const (value : Bool)
  | pathHas (part : Text)
  | bodyBegins (start : Text)
  | queryIs (key : Text) (value : Option Text)
  | methodIs (name : Text)
deriving DecidableEq, Repr

def Predicate.holds : Predicate → Request → Bool
  | const value, _ => value
  | pathHas part, request => Text.hasPart part request.path
  | bodyBegins start, request => request.text?.any (Text.startsWith · start)
  | queryIs key value, request => request.query? key == value
  | methodIs name, request => request.method.name == name

inductive Action where
  | write (bytes : Bytes)
  | status (code : Nat)
  | header (name value : Text)
  | json (value : Json)
  | error (message : Text) (status : Nat)
  | redirect (location : Text)
  | fail (message : Text)
  /-- Writes the values of variables with commas between them and a hyphen for each that is absent. -/
  | showVars (names : List Text)
  | showAllVars
  /-- Writes the name of the current route and its templates of path and host. -/
  | showRoute
  | showAllowed
  | showMetadata (key : Text)
  | showMetadataOr (key : Text) (fallback : Json)
  | showBinder
  | showCancelled
  | cancel
  | showRequest

namespace Action

def orNull (text : Option Text) : Json := Json.orNull (text.map .string)

def ofVars (vars : Vars) : Json :=
  .ofMembers (vars.entries.map fun (name, value) => (name, .string value))

def ofRoute (info : RouteInfo) : Json :=
  .array [orNull info.name, orNull info.pathTemplate?, orNull info.hostTemplate?]

def ofMethods (methods : List Method) : Json := .array (methods.map fun m => .string m.name)

def truth (b : Bool) : Text := (if b then "true" else "false").toList

def ofBinder (binder : Binder) : Text :=
  let held := match binder with
    | .text t => "string:".toList ++ t
    | .integer n => "int:".toList ++ (toString n).toList
    | .nothing | .other => "nothing".toList
  let empty := binder = .nothing
  let shown := if empty then "Binder(None)" else "Binder(Some(\"..\"))"
  Text.join ['/'] [held, truth empty, shown.toList]

def noRoute : Failure := .other "no current route".toList

def run (action : Action) : Handler := fun ctx request binder x =>
  let done (f : Response → Response) : Result := (.ok (), x.update f)
  let say (text : Text) : Result := done (·.writeText text)
  let output (value : Json) : Result := say value.render
  match action with
  | write bytes => done (·.write bytes)
  | status code => done (·.setStatus code)
  | header name value => done (·.setHeader name value)
  | json value => done (·.json value)
  | error message code => done (·.error message code)
  | redirect location => done (·.redirectPermanent location)
  | fail message => (.error (.other message), x)
  | showVars names => say (Text.join [','] (names.map fun name => (ctx.vars.get? name).getD ['-']))
  | showAllVars => output (ofVars ctx.vars)
  | showRoute => output (Json.orNull (ctx.route.map ofRoute))
  | showAllowed => output (ofMethods ctx.allowed)
  | showMetadata key =>
    match ctx.route with
    | none => (.error noRoute, x)
    | some info =>
      match info.metadata? key with
      | .ok value => output value
      | .error e => (.error (.routing e), x)
  | showMetadataOr key fallback =>
    match ctx.route with
    | none => (.error noRoute, x)
    | some info => output (info.metadataOr key fallback)
  | showBinder => say (ofBinder binder)
  | showCancelled => say (truth x.cancelled.isSome ++ '/' :: truth (x.cancelled.getD false))
  | cancel => (.ok (), x.cancel)
  | showRequest => say (request.method.name ++ ' ' :: request.path)

end Action

namespace Handler

/-- The actions in order, up to the first that fails. -/
def ofActions : List Action → Handler
  | [], _, _, _, x => (.ok (), x)
  | action :: rest, ctx, request, binder, x =>
    match action.run ctx request binder x with
    | (.error e, x) => (.error e, x)
    | (.ok (), x) => ofActions rest ctx request binder x

end Handler

/-- Middleware that acts before and after the handler it wraps.  It may ask for a header, with
actions to take instead if the header is not as required, and it may stop before the handler. -/
structure MiddlewareScript where
  before : List Action
  required : Option (Text × Text)
  otherwise : List Action
  stop : Bool
  after : List Action

namespace MiddlewareScript

def admits (script : MiddlewareScript) (request : Request) : Bool :=
  script.required.all fun (name, value) => request.header? name == some value

def toMiddleware (script : MiddlewareScript) : Middleware := fun next ctx request binder x =>
  match Handler.ofActions script.before ctx request binder x with
  | (.error e, x) => (.error e, x)
  | (.ok (), x) =>
    if !script.admits request then Handler.ofActions script.otherwise ctx request binder x
    else if script.stop then (.ok (), x)
    else match next ctx request binder x with
      | (.error e, x) => (.error e, x)
      | (.ok (), x) => Handler.ofActions script.after ctx request binder x

end MiddlewareScript
end HttpRouter
