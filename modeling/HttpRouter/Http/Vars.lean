import HttpRouter.Http.Method
import HttpRouter.Json.Basic

set_option autoImplicit false

namespace HttpRouter

structure Vars where
  entries : List (Text × Text)
deriving DecidableEq, Repr

namespace Vars

def empty : Vars := ⟨[]⟩

def get? (vars : Vars) (name : Text) : Option Text := vars.entries.lookup name

def insert (vars : Vars) (name value : Text) : Vars :=
  ⟨(name, value) :: vars.entries.filter fun entry => entry.1 != name⟩

theorem lookup_filter_ne (entries : List (Text × Text)) {name other : Text} (h : other ≠ name) :
    (entries.filter fun entry => entry.1 != name).lookup other = entries.lookup other := by
  induction entries with
  | nil => rfl
  | cons entry rest ih =>
    obtain ⟨key, value⟩ := entry
    by_cases hk : key = name
    · have ho : (other == name) = false := beq_eq_false_iff_ne.2 h
      subst hk
      simp [List.lookup_cons, ho, ih]
    · simp [List.lookup_cons, hk, ih]

theorem get?_insert (vars : Vars) (name value other : Text) :
    (vars.insert name value).get? other = if other = name then some value else vars.get? other := by
  by_cases h : other = name
  · simp [get?, insert, h]
  · have ho : (other == name) = false := beq_eq_false_iff_ne.2 h
    simp [get?, insert, List.lookup_cons, ho, h, lookup_filter_ne vars.entries h]

def size (vars : Vars) : Nat := vars.entries.length

def isEmpty (vars : Vars) : Bool := vars.entries.isEmpty

/-- Adds the variables of `outer` whose names have no value yet. -/
def fillFrom (vars outer : Vars) : Vars :=
  ⟨vars.entries ++ outer.entries.filter fun entry => (vars.get? entry.1).isNone⟩

def sorted (vars : Vars) : List (Text × Text) := Json.sorted vars.entries

end Vars
end HttpRouter
