import HttpRouter.Pattern.Compiler
import HttpRouter.Pattern.Template
import HttpRouter.Http.Vars

set_option autoImplicit false

/-!
# Patterns

A pattern is a template compiled to one expression, anchored at its beginning and, unless it is a
path prefix, at its end.  Every placeholder becomes a group; literal text is escaped.  `plan` finds
the expression and the names of the variables, `compile` passes the expression to the compiler, and
`captures?` matches a pattern and records its variables.
-/
namespace HttpRouter

namespace Pattern

/-- What a pattern is matched against: the whole path, the beginning of it, the host, or one pair of
the query. -/
inductive Kind where
  | path
  | pathStart
  | host
  | query
deriving DecidableEq, Repr

/-- What a placeholder without a constraint takes. -/
def Kind.defaultConstraint : Kind → Text
  | path | pathStart => "[^/]+".toList
  | host => "[^.]+".toList
  | query => ".*".toList

def Kind.describe : Kind → Text
  | path => "Path".toList
  | pathStart => "Prefix".toList
  | host => "Host".toList
  | query => "Query".toList

structure Variable where
  name : Text
  constraint : Text
deriving DecidableEq, Repr

/-- The first colon divides the name from the constraint. -/
def Variable.ofPlaceholder (kind : Kind) (inside : Text) : Variable :=
  match Text.cut? ':' inside with
  | some (name, constraint) => ⟨name, constraint⟩
  | none => ⟨inside, kind.defaultConstraint⟩

structure Plan where
  source : Text
  names : List Text
deriving DecidableEq, Repr

/-- The variables of placeholders in their order, after those already `seen`. -/
def readVariables (template : Text) (kind : Kind) :
    List Text → List Text → Except Error (List Variable)
  | _, [] => .ok []
  | seen, inside :: rest =>
    let v := Variable.ofPlaceholder kind inside
    if v.name.isEmpty || v.constraint.isEmpty then
      .error (.missingNameOrPattern template (Template.brace inside))
    else if seen.contains v.name then .error (.duplicateVariable template v.name)
    else (readVariables template kind (v.name :: seen) rest).map (v :: ·)

/-- Literal texts, each with the group that follows it. -/
def groups (literals : List Text) (vs : List Variable) : Text :=
  (literals.zip vs).flatMap fun (literal, v) =>
    Regex.escape literal ++ '(' :: (v.constraint ++ [')'])

/-- A slash at the end of a strict template is optional, and so is any value after an equals sign
at the end of a query template. -/
def ending (template : Text) (kind : Kind) (strict : Bool) : Text :=
  (if strict then "[/]?".toList else [])
    ++ (if kind = .query ∧ Text.endsWith template '=' then kind.defaultConstraint else [])
    ++ (if kind = .pathStart then [] else ['$'])

def source (template : Text) (kind : Kind) (strict : Bool) (t : Template) (vs : List Variable) :
    Text :=
  let tail := if strict then Text.dropLastIf '/' t.tail else t.tail
  '^' :: ((if kind = .host then "(?i)".toList else [])
    ++ groups (t.holes.map (·.1)) vs ++ Regex.escape tail ++ ending template kind strict)

def plan (template : Text) (kind : Kind) (strict : Bool) : Except Error Plan :=
  match Template.read? template with
  | none => .error (.unbalancedBraces template)
  | some t =>
    match readVariables template kind [] (t.holes.map (·.2)) with
    | .error e => .error e
    | .ok vs => .ok ⟨source template kind strict t vs, vs.map (·.name)⟩

end Pattern

structure Pattern where
  template : Text
  kind : Pattern.Kind
  expression : Expression
  names : List Text
  strict : Bool
  /-- Hosts are matched without their port unless the template has a colon. -/
  ignoresPort : Bool
deriving DecidableEq, Repr

namespace Pattern

/-- The pattern of a planned expression, if that compiled to as many groups as it has variables. -/
def ofCompiled (template : Text) (kind : Kind) (strict : Bool) (plan : Plan) :
    Option Expression → Except Error Pattern
  | none => .error (.invalidRegex template)
  | some expression =>
    if expression.groupCount = plan.names.length then
      .ok ⟨template, kind, expression, plan.names, strict,
        kind = .host && !template.contains ':'⟩
    else .error (.captureGroupInConstraint template)

/-- Only patterns for whole paths can be strict about the slash at the end. -/
def compile (template : Text) (kind : Kind) (strictSlash : Bool) (compiler : Compiler) :
    Build (Except Error Pattern) := fun w =>
  let strict := strictSlash && kind = .path
  match plan template kind strict with
  | .error e => (.error e, w)
  | .ok plan =>
    let (expression, w) := compiler.compile plan.source w
    (ofCompiled template kind strict plan expression, w)

def withoutPort (host : Text) : Text :=
  match host with
  | '[' :: rest =>
    match Text.cut? ']' rest with
    | some (inside, _) => '[' :: (inside ++ [']'])
    | none => host
  | _ => (Text.cut ':' host).1

def subject (p : Pattern) (text : Text) : Text := if p.ignoresPort then withoutPort text else text

def isMatch (p : Pattern) (text : Text) : Bool := p.expression.isMatch (p.subject text)

/-- The variables of a match with their values; a variable whose group took no part has none. -/
def bindings? (p : Pattern) (text : Text) : Option (List (Text × Text)) :=
  (p.expression.groups? p.names.length (p.subject text)).map fun values =>
    (p.names.zip values).filterMap fun (name, value) => value.map (name, ·)

def captures? (p : Pattern) (text : Text) (vars : Vars) : Option Vars :=
  (p.bindings? text).map fun bindings =>
    bindings.foldl (fun vars (name, value) => vars.insert name value) vars

/-- Whether a strict template has the slash at its end. -/
def wantsSlash? (p : Pattern) : Option Bool :=
  if p.strict then some (Text.endsWith p.template '/') else none

end Pattern
end HttpRouter
