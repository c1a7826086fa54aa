import HttpRouter.Pattern.Basic
import HttpRouter.Http.Request

set_option autoImplicit false

/-!
# Matchers

A matcher is one condition on a request.  Matchers are evaluated in the order of their ranks, so
that the methods come last and a request which fails on nothing but its method can be told apart.
-/
namespace HttpRouter

inductive Matcher where
  /-- Schemes that are accepted, in lower case. -/
  | schemes (accepted : List Text)
  | host (p : Pattern)
  | path (p : Pattern)
  | pathStart (p : Pattern)
  /-- Headers with their values; an empty value asks for the header only. -/
  | headers (required : List (Text × Text))
  /-- Headers with expressions for their values; none asks for the header only. -/
  | headerExpressions (required : List (Text × Option Expression))
  | query (p : Pattern)
  | custom (holds : Request → Bool)
  | methods (accepted : List Method)

namespace Matcher

inductive Verdict where
  | matched (vars : Vars)
  | rejected
  /-- Only the method is wrong; these would be accepted. -/
  | methodMismatch (accepted : List Method)
deriving DecidableEq, Repr

/-- Matchers of lower rank are evaluated first. -/
def rank : Matcher → Nat
  | schemes _ => 0
  | host _ => 1
  | path _ | pathStart _ => 2
  | headers _ | headerExpressions _ => 3
  | query _ => 4
  | custom _ => 5
  | methods _ => 6

/-- The key of a query template, which ends at its first equals sign. -/
def queryKey (p : Pattern) : Text := (Text.cut '=' p.template).1

def queryText (p : Pattern) (request : Request) : Text :=
  match Query.first? (queryKey p) request.queryPairs with
  | some value => queryKey p ++ '=' :: value
  | none => []

def ofCaptures : Option Vars → Verdict
  | some vars => .matched vars
  | none => .rejected

def ofBool (vars : Vars) (holds : Bool) : Verdict := if holds then .matched vars else .rejected

def hasHeader (request : Request) (required : Text × Text) : Bool :=
  match request.header? required.1 with
  | some value => required.2.isEmpty || value == required.2
  | none => false

def hasHeaderLike (request : Request) (required : Text × Option Expression) : Bool :=
  match request.header? required.1 with
  | some value => required.2.all (·.isMatch value)
  | none => false

def evaluate (m : Matcher) (request : Request) (vars : Vars) : Verdict :=
  match m with
  | schemes accepted => ofBool vars (accepted.contains request.schemeName)
  | host p => ofCaptures (p.captures? request.hostName vars)
  | path p | pathStart p => ofCaptures (p.captures? request.path vars)
  | headers required => ofBool vars (required.all (hasHeader request))
  | headerExpressions required => ofBool vars (required.all (hasHeaderLike request))
  | query p => ofCaptures (p.captures? (queryText p request) vars)
  | custom holds => ofBool vars (holds request)
  | methods accepted =>
    if accepted.contains request.method then .matched vars else .methodMismatch accepted

def methods? : Matcher → Option (List Method)
  | methods accepted => some accepted
  | _ => none

/-- Puts a matcher behind those of its rank and below. -/
def insertByRank (m : Matcher) : List Matcher → List Matcher
  | [] => [m]
  | other :: rest => if other.rank ≤ m.rank then other :: insertByRank m rest else m :: other :: rest

end Matcher
end HttpRouter
