import SvgJsx.Component.Name

/-! A component is an arrow function without parameters around the markup, and its default export.
The markup is put in as it is. -/

namespace SvgJsx.Component

def declaration (name : Text) : Text := "const ".toList ++ name ++ " = () => (\n  ".toList

def exportLine (name : Text) : Text := "export default ".toList ++ name ++ [';']

def render (name body : Text) : Text :=
  declaration name ++ body ++ "\n);\n\n".toList ++ exportLine name

end SvgJsx.Component
