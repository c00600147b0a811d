import SvgJsx.Markup.AttributeName
import SvgJsx.Text.Substitution

/-! Hyphenated names become camelCase in one of two ways: only the attribute names are changed, or
every hyphen between two lowercase letters goes, wherever it stands. -/

namespace SvgJsx.Transform
open Text

inductive RenameMode where
  | attributeNames
  | everywhere
  deriving DecidableEq, Repr

namespace RenameMode

def word : RenameMode → Text
  | attributeNames => "scoped".toList
  | everywhere => "legacy".toList

def ofWord? (w : Text) : Option RenameMode :=
  if w = attributeNames.word then some attributeNames
  else if w = everywhere.word then some everywhere
  else none

end RenameMode

def hyphenPattern : Pattern := fun _ c t =>
  match t with
  | '-' :: d :: _ => if c.isLower && d.isLower then some ⟨2, [c, d.toUpper]⟩ else none
  | _ => none

def joinHyphens (t : Text) : Text := substitute hyphenPattern t

def keptBeginnings : List Text := ["data-".toList, "aria-".toList]

def isKept (name : Text) : Bool := keptBeginnings.any (·.isPrefixOf name)

/-- The name from a character on, behind the character `before`: a hyphen or colon between two
lowercase letters is dropped and the letter behind it is put in upper case. -/
def joinWords : (before : Option Char) → Text → Text
  | _, [] => []
  | _, [c] => [c]
  | before, c :: d :: t =>
    if (c == '-' || c == ':') && before.any Char.isLower && d.isLower then
      d.toUpper :: joinWords (some d) t
    else c :: joinWords (some c) (d :: t)

def camelCaseName (name : Text) : Text := if isKept name then name else joinWords none name

def camelCase : RenameMode → Text → Text
  | .attributeNames => Markup.renameAttributes camelCaseName
  | .everywhere => joinHyphens

end SvgJsx.Transform
