import SvgJsx.Text.Basic
import SvgJsx.Text.Unprintable

/-! A quoted text shows any text on one line between double quotes. The quote and the backslash get
a backslash, tab, line feed, carriage return and NUL have a letter each, and every other character
without a picture is written by its code point in hexadecimal. -/

namespace SvgJsx.Text

def quotedChar (c : Char) : Text :=
  match c with
  | '"' => ['\\', '"']
  | '\\' => ['\\', '\\']
  | '\t' => ['\\', 't']
  | '\n' => ['\\', 'n']
  | '\r' => ['\\', 'r']
  | '\x00' => ['\\', '0']
  | c => if isUnprintable c then "\\u\x7b".toList ++ Nat.toDigits 16 c.toNat ++ ['}'] else [c]

def quoted (t : Text) : Text := '"' :: t.flatMap quotedChar ++ ['"']

end SvgJsx.Text
