import HttpRouter.Http.Headers
import HttpRouter.Http.Method
import HttpRouter.Http.Query
import HttpRouter.Json.Parser

set_option autoImplicit false

namespace HttpRouter

structure Request where
  method : Method
  path : Text
  query : Text
  host : Option Text
  scheme : Option Text
  headers : Headers
  body : Bytes
deriving DecidableEq, Repr

namespace Request

/-- The first question mark of the target divides the path from the query. -/
def new (method : Method) (target : Text) : Request :=
  let (path, query) := Text.cut '?' target
  ⟨method, path, query, none, none, [], []⟩

def get (target : Text) : Request := new .get target

def withMethod (r : Request) (method : Method) : Request := { r with method }

def header (r : Request) (name value : Text) : Request :=
  { r with headers := r.headers.insert name value }

def header? (r : Request) (name : Text) : Option Text := r.headers.get? name

def hostName (r : Request) : Text :=
  (r.host <|> r.header? "Host".toList).getD []

/-- The scheme in lower case, `http` where it was left open. -/
def schemeName (r : Request) : Text := Text.lower (r.scheme.getD "http".toList)

def queryPairs (r : Request) : List (Text × Text) := Query.pairs r.query

def query? (r : Request) (key : Text) : Option Text := Query.first? key r.queryPairs

def text? (r : Request) : Option Text := Utf8.decode? r.body

def json? (r : Request) : Option Json := Json.parseBytes? r.body

end Request
end HttpRouter
