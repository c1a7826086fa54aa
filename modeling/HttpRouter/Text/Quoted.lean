import HttpRouter.Text.Hex
import HttpRouter.Unicode.Property

set_option autoImplicit false

namespace HttpRouter.Quoted

def char (c : Char) : Text :=
  match c with
  | '\x00' => ['\\', '0']
  | '\t' => ['\\', 't']
  | '\r' => ['\\', 'r']
  | '\n' => ['\\', 'n']
  | '"' => ['\\', '"']
  | '\\' => ['\\', '\\']
  | c =>
    if Unicode.isGraphic c && !Unicode.isGraphemeExtend c then [c]
    else ['\\', 'u', '\x7b'] ++ Hex.ofNat c.toNat ++ ['\x7d']

def render (text : Text) : Text := '"' :: (text.flatMap char ++ ['"'])

end HttpRouter.Quoted
