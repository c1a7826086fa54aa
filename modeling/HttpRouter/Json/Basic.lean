import HttpRouter.Json.Number

set_option autoImplicit false

namespace HttpRouter

inductive Json where
  | null
  | bool (b : Bool)
  | number (n : Json.Number)
  | string (s : Text)
  | array (items : List Json)
  | object (members : List (Text × Json))

namespace Json

instance : Inhabited Json := ⟨null⟩

/-- Ascending order of texts by the code points of their characters. -/
def precedes : Text → Text → Bool
  | [], [] => false
  | [], _ :: _ => true
  | _ :: _, [] => false
  | a :: as, b :: bs => a < b || (a == b && precedes as bs)

def put {α : Type} (name : Text) (value : α) : List (Text × α) → List (Text × α)
  | [] => [(name, value)]
  | (other, old) :: rest =>
    if name = other then (name, value) :: rest
    else if precedes name other then (name, value) :: (other, old) :: rest
    else (other, old) :: put name value rest

/-- Members in order of their names; of several with one name the last counts. -/
def sorted {α : Type} (members : List (Text × α)) : List (Text × α) :=
  members.foldl (fun sorted (name, value) => put name value sorted) []

def ofMembers (members : List (Text × Json)) : Json := object (sorted members)

def text (s : String) : Json := string s.toList

def ofNat (n : Nat) : Json := number (.int n)

def orNull : Option Json → Json := (·.getD null)

/-- The value of a member that is present and not null. -/
def member? (name : String) : Json → Option Json
  | object members =>
    match members.lookup name.toList with
    | some null => none
    | found => found
  | _ => none

def text? : Json → Option Text
  | string s => some s
  | _ => none

def items? : Json → Option (List Json)
  | array items => some items
  | _ => none

def bool? : Json → Option Bool
  | bool b => some b
  | _ => none

def int? : Json → Option Int
  | number (.int n) => some n
  | _ => none

end Json
end HttpRouter
