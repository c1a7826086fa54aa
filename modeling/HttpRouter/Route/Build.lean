import HttpRouter.Route.Basic

set_option autoImplicit false

namespace HttpRouter

namespace Settings

/-- A variable of both patterns makes the new one fail. -/
def distinctFrom (pattern other : Pattern) : Except Error Unit :=
  match pattern.names.find? other.names.contains with
  | some name => .error (.duplicateVariable pattern.template name)
  | none => .ok ()

/-- The patterns with which a new one of the kind must not share a variable, in the order in which
they are compared.  A path takes the place of the path before it, and a host that of the host. -/
def rivals (s : Settings) : Pattern.Kind → List Pattern
  | .host => s.queries ++ s.path.toList
  | .query => s.queries ++ s.host.toList ++ s.path.toList
  | .path | .pathStart => s.queries ++ s.host.toList

def checkRivals (pattern : Pattern) : List Pattern → Except Error Unit
  | [] => .ok ()
  | other :: rest =>
    match distinctFrom pattern other with
    | .error e => .error e
    | .ok () => checkRivals pattern rest

/-- Makes a pattern count, as the current one of its kind and as a matcher. -/
def adopt (s : Settings) (pattern : Pattern) : Settings :=
  match pattern.kind with
  | .host => { s with host := some pattern }.addMatcher (.host pattern)
  | .query => { s with queries := s.queries ++ [pattern] }.addMatcher (.query pattern)
  | .path => { s with path := some pattern }.addMatcher (.path pattern)
  | .pathStart => { s with path := some pattern }.addMatcher (.pathStart pattern)

/-- The template of a path goes on where the path before it ends, without the slashes there. -/
def extend (s : Settings) (template : Text) : Text :=
  match s.path with
  | some before => Text.trimEnd '/' before.template ++ template
  | none => template

/-- The whole template of a new pattern.  Templates of paths are empty or begin with a slash. -/
def fullTemplate (s : Settings) (template : Text) : Pattern.Kind → Except Error Text
  | .host | .query => .ok template
  | .path | .pathStart =>
    if template.isEmpty || Text.startsWith template ['/'] then .ok (s.extend template)
    else .error (.pathWithoutSlash template)

def addPattern (s : Settings) (template : Text) (kind : Pattern.Kind) :
    Build (Except Error Settings) := fun w =>
  match s.fullTemplate template kind with
  | .error e => (.error e, w)
  | .ok template =>
    match Pattern.compile template kind s.strictSlash s.compiler w with
    | (.error e, w) => (.error e, w)
    | (.ok pattern, w) => ((checkRivals pattern (s.rivals kind)).map fun () => s.adopt pattern, w)

end Settings

def pairUp : List Text → Except Error (List (Text × Text))
  | texts => if texts.length % 2 = 0 then .ok (pairs texts) else .error (.oddPairs texts.length)
where
  pairs : List Text → List (Text × Text)
    | name :: value :: rest => (name, value) :: pairs rest
    | _ => []

inductive RouteStep where
  | handler (h : Handler)
  | name (n : Text)
  /-- The route serves to build addresses only and never matches. -/
  | buildOnly
  | path (template : Text)
  | pathStart (template : Text)
  | host (template : Text)
  /-- Keys with templates of their values. -/
  | queries (pairs : List Text)
  | headers (pairs : List Text)
  /-- Names of headers with expressions for their values, of which empty ones ask for nothing. -/
  | headerExpressions (pairs : List Text)
  | methods (accepted : List Method)
  | schemes (accepted : List Text)
  | custom (holds : Request → Bool)
  | metadata (key : Text) (value : Json)
  | use (m : Middleware)

namespace Route

def setInfo (route : Route) (info : RouteInfo) : Route :=
  mk info route.handler? route.middleware route.subrouter?

def setSettings (route : Route) (settings : Settings) : Route :=
  route.setInfo { route.info with settings }

def setSubrouter (route : Route) (router : Option Router) : Route :=
  mk route.info route.handler? route.middleware router

def fail (route : Route) : Route := route.setInfo { route.info with inert := true }

def addMatcher (route : Route) (m : Matcher) : Route :=
  route.setSettings (route.settings.addMatcher m)

def addPattern (route : Route) (template : Text) (kind : Pattern.Kind) :
    Build (Except Error Unit × Route) := fun w =>
  match route.settings.addPattern template kind w with
  | (.error e, w) => ((.error e, route.fail), w)
  | (.ok settings, w) => ((.ok (), route.setSettings settings), w)

/-- Adds one pattern for each key, up to the first that fails. -/
def addQueries : List (Text × Text) → Route → Build (Except Error Unit × Route)
  | [], route, w => ((.ok (), route), w)
  | (key, value) :: rest, route, w =>
    match route.addPattern (key ++ '=' :: value) .query w with
    | ((.error e, route), w) => ((.error e, route), w)
    | ((.ok (), route), w) => addQueries rest route w

def compileHeaders (compiler : Compiler) :
    List (Text × Text) → Build (Except Error (List (Text × Option Expression)))
  | [], w => (.ok [], w)
  | (name, source) :: rest, w =>
    if source.isEmpty then
      let (others, w) := compileHeaders compiler rest w
      (others.map ((name, none) :: ·), w)
    else match compiler.compile source w with
      | (none, w) => (.error (.invalidRegex source), w)
      | (some expression, w) =>
        let (others, w) := compileHeaders compiler rest w
        (others.map ((name, some expression) :: ·), w)

def addHeaderExpressions (pairs : List (Text × Text)) (route : Route) :
    Build (Except Error Unit × Route) := fun w =>
  match compileHeaders route.settings.compiler pairs w with
  | (.error e, w) => ((.error e, route.fail), w)
  | (.ok required, w) => ((.ok (), route.addMatcher (.headerExpressions required)), w)

def withPairs (texts : List Text) (route : Route)
    (step : List (Text × Text) → Route → Build (Except Error Unit × Route)) :
    Build (Except Error Unit × Route) :=
  match pairUp texts with
  | .error e => pure (.error e, route.fail)
  | .ok pairs => step pairs route

def apply (step : RouteStep) (route : Route) : Build (Except Error Unit × Route) :=
  let done (route : Route) : Build (Except Error Unit × Route) := pure (.ok (), route)
  match step with
  | .handler h => done (mk route.info (some h) route.middleware route.subrouter?)
  | .name n => done (route.setInfo { route.info with name := some n })
  | .buildOnly => done (route.setInfo { route.info with buildOnly := true })
  | .path template => route.addPattern template .path
  | .pathStart template => route.addPattern template .pathStart
  | .host template => route.addPattern template .host
  | .queries texts => withPairs texts route addQueries
  | .headers texts =>
    withPairs texts route fun pairs route => done (route.addMatcher (.headers pairs))
  | .headerExpressions texts => withPairs texts route addHeaderExpressions
  | .methods accepted => done (route.addMatcher (.methods accepted))
  | .schemes accepted => done (route.addMatcher (.schemes (accepted.map Text.lower)))
  | .custom holds => done (route.addMatcher (.custom holds))
  | .metadata key value =>
    done (route.setInfo { route.info with
      metadata := (key, value) :: route.info.metadata.filter fun entry => entry.1 != key })
  | .use m => done (mk route.info route.handler? (route.middleware ++ [m]) route.subrouter?)

def applyAll : List RouteStep → Route → Build (Except Error Unit × Route)
  | [], route, w => ((.ok (), route), w)
  | step :: rest, route, w =>
    match route.apply step w with
    | ((.error e, route), w) => ((.error e, route), w)
    | ((.ok (), route), w) => applyAll rest route w

/-- A new router that begins with the settings of the route.  It takes the place of the router
below the route, if there was one. -/
def openSubrouter (route : Route) : Build Router := do
  pure (RouterOf.ofSettings route.settings (← Workshop.fresh))

end Route
end HttpRouter
