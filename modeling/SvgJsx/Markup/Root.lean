import SvgJsx.Text.Basic

/-! Markup is taken for a drawing when both tokens of its root element stand in it. Their order and
their nesting are not looked at. -/

namespace SvgJsx.Markup
open Text

def rootOpening : Text := "<svg".toList

def rootClosing : Text := "</svg>".toList

def hasRoot (t : Text) : Bool := hasInfix rootOpening t && hasInfix rootClosing t

end SvgJsx.Markup
