import HttpRouter.Http.Response
import HttpRouter.Proofs.Http.Headers

set_option autoImplicit false

namespace HttpRouter

namespace Response

/-- A single header has the name, in this spelling, and the value.  The body and the headers of other
names are as they were. -/
structure Puts (name value : Text) (before after : Response) : Prop where
  body : after.body = before.body
  looked : ∀ other, after.header? other
    = if Text.sameName other name then some value else before.header? other
  single : after.headers.under name = [(name, value)]
  others : after.headers.apartFrom name = before.headers.apartFrom name

theorem puts_setHeader (response : Response) (name value : Text) :
    Puts name value response (response.setHeader name value) where
  body := rfl
  looked := response.headers.get?_set name value
  single := response.headers.under_set name value
  others := response.headers.apartFrom_set name value

theorem Puts.setStatus {name value : Text} {before after : Response}
    (h : Puts name value before after) (status : Nat) :
    Puts name value before (after.setStatus status) := ⟨h.body, h.looked, h.single, h.others⟩

structure Redirected (location : Text) (before after : Response) : Prop where
  status : after.status = 301
  puts : Puts "Location".toList location before after

theorem redirected_redirectPermanent (response : Response) (location : Text) :
    Redirected location response (response.redirectPermanent location) :=
  ⟨rfl, (response.puts_setHeader "Location".toList location).setStatus 301⟩

/-- What can be done to a response.  A value is there in the form in which it was written. -/
inductive Operation where
  | setHeader (name value : Text)
  | json (written : Option Bytes)
  | error (message : Text) (status : Nat)
  | redirectPermanent (location : Text)
  | write (bytes : Bytes)
  | setStatus (status : Nat)

namespace Operation

def run : Operation → Response → Response
  | setHeader name value, r => r.setHeader name value
  | json written, r => r.putJson written
  | error message status, r => r.error message status
  | redirectPermanent location, r => r.redirectPermanent location
  | write bytes, r => r.write bytes
  | setStatus status, r => r.setStatus status

def writes : Operation → List (Text × Text)
  | setHeader name value => [(name, value)]
  | json none => []
  | json (some _) => [("Content-Type".toList, "application/json".toList)]
  | error _ _ => [("Content-Type".toList, "text/plain; charset=utf-8".toList),
      ("X-Content-Type-Options".toList, "nosniff".toList)]
  | redirectPermanent location => [("Location".toList, location)]
  | write _ | setStatus _ => []

theorem headers_run (op : Operation) (r : Response) :
    (op.run r).headers = r.headers.setAll op.writes := by
  cases op with
  | json written => cases written <;> rfl
  | setHeader | error | redirectPermanent | write | setStatus => rfl

end Operation

def after (ops : List Operation) : Response := ops.foldl (fun r op => op.run r) .empty

theorem headers_foldl (ops : List Operation) (r : Response) :
    (ops.foldl (fun r op => op.run r) r).headers
      = r.headers.setAll (ops.flatMap Operation.writes) := by
  induction ops generalizing r with
  | nil => rfl
  | cons op rest ih =>
    rw [List.foldl_cons, ih, op.headers_run, List.flatMap_cons, Headers.setAll, Headers.setAll,
      Headers.setAll, List.foldl_append]

/-- Names of headers are distinct after any operations, and a look-up gives what was written last,
in whatever order the headers are kept. -/
theorem last_write_found (ops : List Operation) :
    (after ops).headers.Distinct ∧
    ∀ kept : Response, kept.headers.Perm (after ops).headers →
      ∀ name, kept.header? name = Headers.last? (ops.flatMap Operation.writes) name := by
  have hh : (after ops).headers = _ := headers_foldl ops .empty
  have hd : (after ops).headers.Distinct := by
    rw [hh]
    exact Headers.Distinct.setAll List.Pairwise.nil _
  refine ⟨hd, fun kept hp name => ?_⟩
  rw [header?, hd.get?_perm hp, hh, Headers.get?_setAll]
  exact Option.or_none

def respelled : List Operation :=
  [.setHeader "CONTENT-type".toList "image/png".toList, .error "no".toList 404,
    .setHeader "location".toList "/x".toList, .redirectPermanent "/y".toList,
    .setHeader "x-content-TYPE-options".toList "off".toList, .json (some [0x31]), .json none,
    .write [], .setStatus 200]

theorem respelled_found :
    let kept := { after respelled with headers := (after respelled).headers.reverse }
    kept.headers.Perm (after respelled).headers ∧
      kept.header? "content-type".toList = some "application/json".toList ∧
      kept.header? "Location".toList = some "/y".toList ∧
      kept.header? "X-Content-Type-Options".toList = some "off".toList ∧
      kept.header? "Host".toList = none := by
  intro kept
  have hp : kept.headers.Perm (after respelled).headers := List.reverse_perm _
  obtain ⟨-, h⟩ := last_write_found respelled
  refine ⟨hp, ?_, ?_, ?_, ?_⟩
  all_goals
    rw [h kept hp]
    decide

end Response
end HttpRouter
