import HttpRouter.Text.Cut

set_option autoImplicit false

namespace HttpRouter

/-- Every placeholder with the literal text before it, and the literal text after the last one. -/
structure Template where
  holes : List (Text × Text)
  tail : Text
deriving DecidableEq, Repr

namespace Template

def brace (inside : Text) : Text := '\x7b' :: (inside ++ ['\x7d'])

def text (t : Template) : Text :=
  t.holes.flatMap (fun (literal, inside) => literal ++ brace inside) ++ t.tail

/-- Reads on inside `level` open braces; `literal` stands before the outermost one, and `held` is
the text since then, or since the last placeholder if no brace is open, latest first. -/
def readFrom : Nat → Text → Text → Text → Option Template
  | 0, _, held, [] => some ⟨[], held.reverse⟩
  | _ + 1, _, _, [] => none
  | 0, literal, held, c :: rest =>
    if c = '\x7b' then readFrom 1 held.reverse [] rest
    else if c = '\x7d' then none
    else readFrom 0 literal (c :: held) rest
  | level + 1, literal, held, c :: rest =>
    if c = '\x7b' then readFrom (level + 2) literal (c :: held) rest
    else if c = '\x7d' then
      match level with
      | 0 => (readFrom 0 [] [] rest).map fun t => { t with holes := (literal, held.reverse) :: t.holes }
      | outer + 1 => readFrom (outer + 1) literal (c :: held) rest
    else readFrom (level + 1) literal (c :: held) rest

def read? (template : Text) : Option Template := readFrom 0 [] [] template

end Template
end HttpRouter
