import HttpRouter.Text.Cut

set_option autoImplicit false

/-!
# Headers

A list of names with their values.  Names are looked up without regard to case.  `insert` replaces
the value of exactly the same name, `set` that of every name which is the same up to case.
-/
namespace HttpRouter

abbrev Headers := List (Text × Text)

namespace Headers

def get? (headers : Headers) (name : Text) : Option Text :=
  (headers.find? fun header => Text.sameName header.1 name).map (·.2)

def insert (headers : Headers) (name value : Text) : Headers :=
  headers.filter (fun header => header.1 != name) ++ [(name, value)]

def set (headers : Headers) (name value : Text) : Headers :=
  headers.filter (fun header => !Text.sameName header.1 name) ++ [(name, value)]

end Headers
end HttpRouter
