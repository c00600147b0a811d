import SvgJsx.Text.Substitution

/-! A fixed table of attribute names and what they are called in a component. Each entry in turn
replaces its name before an equals sign, in the whole text. -/

namespace SvgJsx.Transform
open Text

structure Renaming where
  source : Text
  target : Text
  deriving DecidableEq, Repr

def renameTable : List Renaming :=
  [⟨"xlink:href".toList, "xlinkHref".toList⟩,
   ⟨"clip-path".toList, "clipPath".toList⟩,
   ⟨"fill-rule".toList, "fillRule".toList⟩,
   ⟨"stroke-width".toList, "strokeWidth".toList⟩,
   ⟨"stroke-linecap".toList, "strokeLinecap".toList⟩,
   ⟨"stroke-linejoin".toList, "strokeLinejoin".toList⟩,
   ⟨"fill-opacity".toList, "fillOpacity".toList⟩,
   ⟨"font-family".toList, "fontFamily".toList⟩,
   ⟨"font-size".toList, "fontSize".toList⟩,
   ⟨"text-anchor".toList, "textAnchor".toList⟩]

def Renaming.apply (r : Renaming) (t : Text) : Text :=
  replaceAll (r.source ++ ['=']) (r.target ++ ['=']) t

def applyRenamings (rs : List Renaming) (t : Text) : Text := rs.foldl (fun t r => r.apply t) t

end SvgJsx.Transform
