import HttpRouter.Matcher

set_option autoImplicit false

/-!
# Settings of routes

The settings of a route are the conditions under which it accepts a request and the way in which
further ones are read.  A route takes them over from the router that made it.  `RouteInfo` adds what
else is known of a route apart from how it answers.
-/
namespace HttpRouter

/-- Settings that a route takes over from the router that made it. -/
structure Settings where
  strictSlash : Bool
  skipClean : Bool
  compiler : Compiler
  /-- In the order of their ranks. -/
  matchers : List Matcher
  path : Option Pattern
  host : Option Pattern
  queries : List Pattern

/-- What is known of a route apart from how it answers. -/
structure RouteInfo where
  name : Option Text
  settings : Settings
  metadata : List (Text × Json)
  buildOnly : Bool
  /-- A step of its configuration failed. -/
  inert : Bool

namespace Settings

def initial : Settings := ⟨false, false, .standard, [], none, none, []⟩

def addMatcher (s : Settings) (m : Matcher) : Settings :=
  { s with matchers := m.insertByRank s.matchers }

def methods? (s : Settings) : Option (List Method) :=
  match s.matchers.filterMap Matcher.methods? with
  | [] => none
  | first :: others => some (others.foldl (fun kept accepted => kept.filter accepted.contains) first)

def methods (s : Settings) : Except Error (List Method) :=
  match s.methods? with
  | some methods => .ok methods
  | none => .error .methodsNotDefined

/-- Evaluates matchers in turn: the variables captured, and whether a method was wrong, unless one
of them rejects the request. -/
def judge (request : Request) : List Matcher → Vars → Bool → Option (Vars × Bool)
  | [], vars, mismatch => some (vars, mismatch)
  | m :: rest, vars, mismatch =>
    match m.evaluate request vars with
    | .matched vars => judge request rest vars mismatch
    | .rejected => none
    | .methodMismatch _ => judge request rest vars true

def withQuery (path query : Text) : Text := if query.isEmpty then path else path ++ '?' :: query

/-- Where to send a request that differs from a strict template in the slash at its end only. -/
def slashRedirect? (s : Settings) (request : Request) : Option Text := do
  let pattern ← s.path
  let wanted ← pattern.wantsSlash?
  let has := Text.endsWith request.path '/'
  guard (wanted != has)
  pure (withQuery (if has then request.path.dropLast else request.path ++ ['/']) request.query)

end Settings

namespace RouteInfo

def ofSettings (settings : Settings) : RouteInfo := ⟨none, settings, [], false, false⟩

def live (info : RouteInfo) : Bool := !info.inert

def pathTemplate? (info : RouteInfo) : Option Text := info.settings.path.map (·.template)

def hostTemplate? (info : RouteInfo) : Option Text := info.settings.host.map (·.template)

def queryTemplates (info : RouteInfo) : List Text := info.settings.queries.map (·.template)

def metadata? (info : RouteInfo) (key : Text) : Except Error Json :=
  match info.metadata.lookup key with
  | some value => .ok value
  | none => .error (.metadataKeyNotFound key)

def metadataOr (info : RouteInfo) (key : Text) (fallback : Json) : Json :=
  (info.metadata.lookup key).getD fallback

end RouteInfo

end HttpRouter
