import SvgJsx.Text.Basic

/-! Written JSON has no blanks. In a string only the quote, the backslash and the control characters
below the space are escaped. -/

namespace SvgJsx.Json
open Text

def hexPair (n : Nat) : Text := [Nat.digitChar (n / 16), Nat.digitChar (n % 16)]

def writtenChar (c : Char) : Text :=
  match c with
  | '"' => ['\\', '"']
  | '\\' => ['\\', '\\']
  | '\x08' => ['\\', 'b']
  | '\x0c' => ['\\', 'f']
  | '\n' => ['\\', 'n']
  | '\r' => ['\\', 'r']
  | '\t' => ['\\', 't']
  | c => if c.toNat < 0x20 then "\\u00".toList ++ hexPair c.toNat else [c]

def writtenString (t : Text) : Text := '"' :: t.flatMap writtenChar ++ ['"']

def writtenObject (fields : List (Text × Text)) : Text :=
  '{' :: List.intercalate [','] (fields.map fun f => writtenString f.1 ++ ':' :: writtenString f.2) ++
    ['}']

end SvgJsx.Json
