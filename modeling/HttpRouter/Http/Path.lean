import HttpRouter.Text.Cut

set_option autoImplicit false

/-!
# Clean paths

A clean path begins with a slash and has neither empty segments nor segments that are dots, apart
from the slash at its end.  `clean` drops empty segments and single dots, and lets two dots take the
segment before them away.
-/
namespace HttpRouter.Path

/-- What a segment does to the segments kept so far, latest first. -/
def keep (kept : List Text) (segment : Text) : List Text :=
  if segment = [] ∨ segment = ['.'] then kept
  else if segment = ['.', '.'] then kept.tail
  else segment :: kept

/-- The segments of a path that remain, latest first. -/
def resolve (path : Text) : List Text := (Text.pieces '/' path).foldl keep []

def ofSegments (segments : List Text) : Text := segments.flatMap ('/' :: ·)

/-- A slash at the end is kept. -/
def clean (path : Text) : Text :=
  match ofSegments (resolve path).reverse with
  | [] => ['/']
  | joined => if Text.endsWith path '/' then joined ++ ['/'] else joined

end HttpRouter.Path
