import SvgJsx.Text.Blank
import SvgJsx.Text.Substitution

/-! A style attribute in double quotes becomes an object literal: each `property: value` of it is
an entry with a camelCase key and a quoted value. The attribute must stand at the start of the text
or behind a blank, so `font-style` is left alone. -/

namespace SvgJsx.Transform
open Text

/-- The name with every hyphen before a lowercase letter dropped and that letter in upper case. A
hyphen before anything else stays. -/
def kebabToCamel : Text → Text
  | [] => []
  | [c] => [c]
  | c :: d :: t =>
    if c = '-' ∧ d.isLower then d.toUpper :: kebabToCamel t else c :: kebabToCamel (d :: t)

structure Declaration where
  property : Text
  value : Text
  deriving DecidableEq, Repr

namespace Declaration

/-- The declaration as an entry of an object literal. The value is not escaped. -/
def entry (d : Declaration) : Text := kebabToCamel d.property ++ ": \"".toList ++ d.value ++ ['"']

/-- The declaration in one segment of a style attribute. The value goes from the first colon to the
second, if there is one; without a colon there is no declaration. -/
def ofSegment? (segment : Text) : Option Declaration :=
  match pieces (· == ':') segment with
  | property :: value :: _ => some ⟨trim property, trim value⟩
  | _ => none

end Declaration

def declarations (raw : Text) : List Declaration :=
  (pieces (· == ';') raw).filterMap Declaration.ofSegment?

def styleLiteral (raw : Text) : Text :=
  "\x7b\x7b".toList ++ List.intercalate ", ".toList ((declarations raw).map Declaration.entry) ++
    "\x7d\x7d".toList

def quotedValue? : Text → Option Text
  | [] => none
  | c :: t => if c = '"' then some [] else (quotedValue? t).map (c :: ·)

def styleValue? (t : Text) : Option Text := (after? "style=\"".toList t).bind quotedValue?

def stylePattern : Pattern := fun before c t =>
  match before, styleValue? (c :: t), isBlank c, styleValue? t with
  | none, some raw, _, _ => some ⟨raw.length + 7, "style=".toList ++ styleLiteral raw⟩
  | _, _, true, some raw => some ⟨raw.length + 8, c :: "style=".toList ++ styleLiteral raw⟩
  | _, _, _, _ => none

def restructureStyles (t : Text) : Text := substitute stylePattern t

end SvgJsx.Transform
