import HttpRouter.Text.Quoted

set_option autoImplicit false

namespace HttpRouter

inductive Error where
  /-- A brace without its counterpart. -/
  | unbalancedBraces (template : Text)
  /-- A placeholder with an empty name or an empty constraint. -/
  | missingNameOrPattern (template placeholder : Text)
  /-- One name for two variables of a route. -/
  | duplicateVariable (template name : Text)
  | pathWithoutSlash (template : Text)
  /-- A constraint with a group of its own, or one that closes the group around it. -/
  | captureGroupInConstraint (template : Text)
  | invalidRegex (template : Text)
  /-- Names and values do not pair up. -/
  | oddPairs (count : Nat)
  | invalidMethod (name : Text)
  | metadataKeyNotFound (key : Text)
  /-- The route accepts every method. -/
  | methodsNotDefined
  | noMatchingRoute
deriving DecidableEq, Repr

namespace Error

def message : Error → Text
  | unbalancedBraces template => "unbalanced braces in ".toList ++ Quoted.render template
  | missingNameOrPattern template placeholder =>
    "missing name or pattern in ".toList ++ Quoted.render placeholder ++ " of ".toList
      ++ Quoted.render template
  | duplicateVariable template name =>
    "duplicated route variable ".toList ++ Quoted.render name ++ " in ".toList
      ++ Quoted.render template
  | pathWithoutSlash template =>
    "path must start with a slash, got ".toList ++ Quoted.render template
  | captureGroupInConstraint template =>
    "route ".toList ++ Quoted.render template
      ++ " contains capture groups in its constraints, use (?:pattern) instead".toList
  | invalidRegex template => "invalid pattern in ".toList ++ Quoted.render template
  | oddPairs count =>
    "number of parameters must be multiple of 2, got ".toList ++ (toString count).toList
  | invalidMethod name => "invalid HTTP method: ".toList ++ name
  | metadataKeyNotFound key => "key not found in metadata: ".toList ++ key
  | methodsNotDefined => "route doesn't have methods".toList
  | noMatchingRoute => "no route matched the request".toList

end Error
end HttpRouter
