import HttpRouter.Regex.Parser
import HttpRouter.Regex.Match

set_option autoImplicit false

namespace HttpRouter

structure Expression where
  source : Text
  regex : Regex
deriving DecidableEq, Repr

namespace Expression

def parse? (source : Text) : Option Expression :=
  (Regex.parse? source).map fun regex => ⟨source, regex⟩

def groupCount (e : Expression) : Nat := e.regex.groupCount

def isMatch (e : Expression) (text : Text) : Bool := e.regex.isMatch text

def groups? (e : Expression) (count : Nat) (text : Text) : Option (List (Option Text)) :=
  (e.regex.captures? text).map fun spans =>
    (List.range count).map fun i => Regex.groupText? text spans (i + 1)

end Expression
end HttpRouter
