import SvgJsx.Text.Substitution
import SvgJsx.Text.WordChar

/-! An attribute `class` with a quoted value is called `className` in a component. -/

namespace SvgJsx.Transform
open Text

def classPattern : Pattern := fun before c t =>
  if before.any isWordChar then none
  else
    match after? "class=".toList (c :: t) with
    | some (q :: _) =>
      if q = '"' ∨ q = '\'' then some ⟨6, "className=".toList ++ [q]⟩ else none
    | _ => none

def renameClass (t : Text) : Text := substitute classPattern t

end SvgJsx.Transform
