import HttpRouter.Router.Dispatch

set_option autoImplicit false

namespace HttpRouter

namespace Describe

def bool (b : Bool) : Text := (if b then "true" else "false").toList

def option (text : Option Text) : Text :=
  match text with
  | some text => "Some(".toList ++ text ++ [')']
  | none => "None".toList

def list (items : List Text) : Text := '[' :: (Text.join ", ".toList items ++ [']'])

def braces (items : List Text) : Text := '\x7b' :: (Text.join ", ".toList items ++ ['\x7d'])

def call (name : String) (argument : Text) : Text := name.toList ++ '(' :: (argument ++ [')'])

def pair (a b : Text) : Text := '(' :: (a ++ ", ".toList ++ b ++ [')'])

/-- Named fields, of which some may be left out. -/
def fields (name : String) (items : List (String × Text)) (partially : Bool) : Text :=
  let shown := items.map fun (field, value) => field.toList ++ ": ".toList ++ value
  name.toList ++ " \x7b ".toList
    ++ Text.join ", ".toList (if partially then shown ++ ["..".toList] else shown)
    ++ " \x7d".toList

def expression (e : Expression) : Text := call "Regex" (Quoted.render e.source)

def methods (ms : List Method) : Text := list (ms.map Method.describe)

def matcher : Matcher → Text
  | .schemes accepted => call "Schemes" (list (accepted.map Quoted.render))
  | .host p => call "Host" (Quoted.render p.template)
  | .path p => call "Path" (Quoted.render p.template)
  | .pathStart p => call "PathPrefix" (Quoted.render p.template)
  | .headers required =>
    call "Headers" (list (required.map fun (name, value) =>
      pair (Quoted.render name) (Quoted.render value)))
  | .headerExpressions required =>
    call "HeadersRegexp" (list (required.map fun (name, value) =>
      pair (Quoted.render name) (option (value.map expression))))
  | .query p => call "Query" (Quoted.render p.template)
  | .custom _ => "Custom(..)".toList
  | .methods accepted => call "Methods" (methods accepted)

def metadata (entries : List (Text × Json)) : Text :=
  braces ((Json.sorted entries).map fun (key, value) =>
    Quoted.render key ++ ": ".toList ++ value.describe)

def info (i : RouteInfo) (subrouter : Option Text) : Text :=
  fields "Route"
    [("name", option (i.name.map Quoted.render)),
     ("matchers", list (i.settings.matchers.map matcher)),
     ("subrouter", option subrouter),
     ("metadata", metadata i.metadata),
     ("build_only", bool i.buildOnly),
     ("inert", bool i.inert)] true

mutual

def route : Route → Text
  | .mk i _ _ none => info i none
  | .mk i _ _ (some below) => info i (some (router below))

def router : Router → Text
  | ⟨rs, middleware, _, _, settings, _⟩ =>
    fields "Router"
      [("routes", list (routes rs)),
       ("middlewares", (toString middleware.length).toList),
       ("strict_slash", bool settings.strictSlash),
       ("skip_clean", bool settings.skipClean)] true

def routes : List Route → List Text
  | [] => []
  | r :: rest => route r :: routes rest

end

def vars (v : Vars) : Text :=
  fields "Vars"
    [("vars", braces (v.sorted.map fun (name, value) =>
      Quoted.render name ++ ": ".toList ++ Quoted.render value))] false

def found (f : Found) : Text :=
  fields "RouteMatch"
    [("route", option (f.route.info.name.map Quoted.render)),
     ("template", option (f.route.info.pathTemplate?.map Quoted.render)),
     ("vars", vars f.vars)] true

def outcome : Outcome → Text
  | .matched f => call "Matched" (found f)
  | .methodMismatch allowed => call "MethodMismatch" (methods allowed)
  | .redirect location f =>
    fields "Redirect" [("location", Quoted.render location), ("route", option (f.map found))] false
  | .notFound => "NotFound".toList

end Describe
end HttpRouter
