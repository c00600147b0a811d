import SvgJsx.Text.Basic

/-! The stages of a conversion run in the order of their numbers. The four in the middle change
the markup. -/

namespace SvgJsx.Transform
open Text

inductive Stage where
  | validate
  | style
  | className
  | camelCase
  | renameTable
  | format
  deriving DecidableEq, Repr

namespace Stage

def all : List Stage := [validate, style, className, camelCase, renameTable, format]

def number : Stage → Nat
  | validate => 1
  | style => 2
  | className => 3
  | camelCase => 4
  | renameTable => 5
  | format => 6

def label (s : Stage) : Text := "stage ".toList ++ decimal s.number

end Stage
end SvgJsx.Transform
