import SvgJsx.Path.Basic

/-! Paths are ordered component by component: the root before the dot, the dot before a step upward,
that before every name, and names by their characters. A path stands before the paths below it. -/

namespace SvgJsx.Path
open Text

def textLe : Text → Text → Bool
  | [], _ => true
  | _ :: _, [] => false
  | a :: s, b :: t => decide (a.toNat < b.toNat) || (a == b && textLe s t)

def Component.rank : Component → Nat
  | root => 0
  | current => 1
  | parent => 2
  | normal _ => 3

def Component.name : Component → Text
  | normal n => n
  | _ => []

def Component.le (a b : Component) : Bool :=
  decide (a.rank < b.rank) || (a.rank == b.rank && textLe a.name b.name)

def componentsLe : List Component → List Component → Bool
  | [], _ => true
  | _ :: _, [] => false
  | a :: s, b :: t => if a = b then componentsLe s t else a.le b

def le (p q : Path) : Bool := componentsLe p.components q.components

def sort (ps : List Path) : List Path := ps.mergeSort le

end SvgJsx.Path
