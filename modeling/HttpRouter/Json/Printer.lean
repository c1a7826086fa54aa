import HttpRouter.Json.Basic
import HttpRouter.Text.Quoted

set_option autoImplicit false

namespace HttpRouter.Json

def escapeChar (c : Char) : Text :=
  match c with
  | '"' => ['\\', '"']
  | '\\' => ['\\', '\\']
  | '\x08' => ['\\', 'b']
  | '\x0c' => ['\\', 'f']
  | '\n' => ['\\', 'n']
  | '\r' => ['\\', 'r']
  | '\t' => ['\\', 't']
  | c =>
    if c.toNat < 0x20 then ['\\', 'u', '0', '0', Hex.digit (c.toNat / 16), Hex.digit c.toNat]
    else [c]

def renderString (s : Text) : Text := '"' :: (s.flatMap escapeChar ++ ['"'])

mutual

def render : Json → Text
  | null => "null".toList
  | bool b => (if b then "true" else "false").toList
  | number n => n.render
  | string s => renderString s
  | array items => '[' :: (Text.join [','] (renderItems items) ++ [']'])
  | object members => '\x7b' :: (Text.join [','] (renderMembers members) ++ ['\x7d'])

def renderItems : List Json → List Text
  | [] => []
  | item :: rest => render item :: renderItems rest

def renderMembers : List (Text × Json) → List Text
  | [] => []
  | (name, value) :: rest => (renderString name ++ ':' :: render value) :: renderMembers rest

end

mutual

def describe : Json → Text
  | null => "Null".toList
  | bool b => (if b then "Bool(true)" else "Bool(false)").toList
  | number n => "Number(".toList ++ n.render ++ [')']
  | string s => "String(".toList ++ Quoted.render s ++ [')']
  | array items => "Array [".toList ++ Text.join ", ".toList (describeItems items) ++ [']']
  | object members =>
    "Object \x7b".toList ++ Text.join ", ".toList (describeMembers members) ++ ['\x7d']

def describeItems : List Json → List Text
  | [] => []
  | item :: rest => describe item :: describeItems rest

def describeMembers : List (Text × Json) → List Text
  | [] => []
  | (name, value) :: rest =>
    (Quoted.render name ++ ':' :: ' ' :: describe value) :: describeMembers rest

end

end HttpRouter.Json
