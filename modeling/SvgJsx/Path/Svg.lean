import SvgJsx.Path.Basic

/-! Two ways to tell a drawing by its path: a file name that ends in `.svg`, and the extension
`svg`. They differ on the bare name `.svg`, which has no extension. -/

namespace SvgJsx.Path
open Text

def svgSuffix : Text := ".svg".toList

def hasSvgSuffix (p : Path) : Bool := p.fileName?.any (svgSuffix.isSuffixOf ·)

def isSvg (p : Path) : Bool := p.extension? = some "svg".toList

end SvgJsx.Path
