import HttpRouter.Error

set_option autoImplicit false

namespace HttpRouter

inductive Method where
  | get
  | head
  | post
  | put
  | patch
  | delete
  | connect
  | options
  | trace
deriving DecidableEq, Repr

namespace Method

def all : List Method := [get, head, post, put, patch, delete, connect, options, trace]

def name : Method → Text
  | get => "GET".toList
  | head => "HEAD".toList
  | post => "POST".toList
  | put => "PUT".toList
  | patch => "PATCH".toList
  | delete => "DELETE".toList
  | connect => "CONNECT".toList
  | options => "OPTIONS".toList
  | trace => "TRACE".toList

/-- The name with a capital first letter only. -/
def describe (m : Method) : Text :=
  match m.name with
  | [] => []
  | c :: rest => c :: Text.lower rest

/-- The upper case of a character if that consists of ASCII letters.  All other characters stay as
they are, since their upper case is in no method's name. -/
def upper (c : Char) : Text :=
  match c with
  | 'ß' => ['S', 'S']
  | 'ı' => ['I']
  | 'ſ' => ['S']
  | '\ufb00' => ['F', 'F']
  | '\ufb01' => ['F', 'I']
  | '\ufb02' => ['F', 'L']
  | '\ufb03' => ['F', 'F', 'I']
  | '\ufb04' => ['F', 'F', 'L']
  | '\ufb05' | '\ufb06' => ['S', 'T']
  | c => [c.toUpper]

def ofName? (text : Text) : Option Method :=
  let capitals := text.flatMap upper
  all.find? fun m => m.name == capitals

theorem ofName?_name (m : Method) : ofName? m.name = some m := by cases m <;> decide

def ofName (text : Text) : Except Error Method :=
  match ofName? text with
  | some m => .ok m
  | none => .error (.invalidMethod text)

def ofNames : List Text → Except Error (List Method)
  | [] => .ok []
  | name :: rest =>
    match ofName name with
    | .error e => .error e
    | .ok m => (ofNames rest).map (m :: ·)

end Method
end HttpRouter
