import SvgJsx.FileTree.Basic
import SvgJsx.Path.Order
import SvgJsx.Path.Relative
import SvgJsx.Path.Svg

/-! The files below a directory, with the paths that lead to them from the directory's path. -/

namespace SvgJsx.FileTree
open Text

def namesBelow? : (above l : Location) → Option (List Text)
  | [], l => some l
  | _ :: _, [] => none
  | a :: above, b :: l => if a = b then namesBelow? above l else none

def descend (p : Path) (names : List Text) : Path := names.foldl (fun p n => p.join ⟨n⟩) p

def filesBelow (fs : FileTree) (p : Path) : List Path :=
  match fs.locate p, fs.find p with
  | .ok _, .ok (.file _) => [p]
  | .ok l, .ok .directory =>
    fs.nodes.filterMap fun
      | (at_, .file _) => (namesBelow? l at_).map (descend p)
      | (_, .directory) => none
  | _, _ => []

def svgsBelow (fs : FileTree) (p : Path) : List Path :=
  Path.sort ((fs.filesBelow p).filter Path.isSvg)

end SvgJsx.FileTree
