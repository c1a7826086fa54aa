import HttpRouter.Http.Headers
import HttpRouter.Json.Printer

set_option autoImplicit false

namespace HttpRouter

structure Response where
  status : Nat
  headers : Headers
  body : Bytes
deriving DecidableEq, Repr

namespace Response

def empty : Response := ⟨200, [], []⟩

def setStatus (r : Response) (status : Nat) : Response := { r with status }

def setHeader (r : Response) (name value : Text) : Response :=
  { r with headers := r.headers.set name value }

def header? (r : Response) (name : Text) : Option Text := r.headers.get? name

def write (r : Response) (bytes : Bytes) : Response := { r with body := r.body ++ bytes }

def writeText (r : Response) (text : Text) : Response := r.write (Utf8.encode text)

/-- Takes over what a value was written as.  A value that cannot be written changes nothing. -/
def putJson (r : Response) : Option Bytes → Response
  | none => r
  | some body => { r with body }.setHeader "Content-Type".toList "application/json".toList

def json (r : Response) (value : Json) : Response := r.putJson (some (Utf8.encode value.render))

/-- A status with a line of plain text. -/
def error (r : Response) (message : Text) (status : Nat) : Response :=
  let r := r.setHeader "Content-Type".toList "text/plain; charset=utf-8".toList
  let r := r.setHeader "X-Content-Type-Options".toList "nosniff".toList
  (r.setStatus status).writeText (message ++ ['\n'])

def redirectPermanent (r : Response) (location : Text) : Response :=
  (r.setHeader "Location".toList location).setStatus 301

def statusText (r : Response) : Text :=
  String.toList <| match r.status with
    | 200 => "OK"
    | 201 => "Created"
    | 204 => "No Content"
    | 301 => "Moved Permanently"
    | 302 => "Found"
    | 304 => "Not Modified"
    | 400 => "Bad Request"
    | 401 => "Unauthorized"
    | 403 => "Forbidden"
    | 404 => "Not Found"
    | 405 => "Method Not Allowed"
    | 409 => "Conflict"
    | 422 => "Unprocessable Entity"
    | 500 => "Internal Server Error"
    | 502 => "Bad Gateway"
    | 503 => "Service Unavailable"
    | _ => "Unknown"

end Response
end HttpRouter
