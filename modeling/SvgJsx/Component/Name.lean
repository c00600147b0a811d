import SvgJsx.Text.Quoted

/-! Component names: which texts can be one, and the name that a file's stem gives. -/

namespace SvgJsx.Component
open Text

def defaultName : Text := "SvgIcon".toList

def startsIdentifier (c : Char) : Bool := c.isAlpha || c == '_' || c == '$'

def continuesIdentifier (c : Char) : Bool := c.isAlphanum || c == '_' || c == '$'

def isIdentifier : Text → Bool
  | [] => false
  | c :: t => startsIdentifier c && t.all continuesIdentifier

def capitalize : Text → Text
  | [] => []
  | c :: t => c.toUpper :: t

/-- The name of the component of a file with this stem. The runs of ASCII letters and digits are
capitalised and joined; a name that begins with a digit gets `Svg` in front, and a stem without
letters and digits has the default name. -/
def nameOfStem (stem : Text) : Text :=
  match ((pieces (fun c => !c.isAlphanum) stem).map capitalize).flatten with
  | [] => defaultName
  | c :: t => if c.isDigit then "Svg".toList ++ c :: t else c :: t

def invalidNameMessage (name : Text) : Text :=
  "Invalid component name ".toList ++ quoted name ++ ": must be a JavaScript identifier".toList

end SvgJsx.Component
