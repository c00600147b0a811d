import SvgJsx.Transform.CamelCase
import SvgJsx.Transform.ClassName
import SvgJsx.Transform.RenameTable
import SvgJsx.Transform.Stage
import SvgJsx.Transform.Style

/-! A rule is one step of a conversion. It is total, whatever the text. -/

namespace SvgJsx.Transform

inductive Rule where
  | style
  | className
  | camelCase (mode : RenameMode)
  | renameTable
  deriving DecidableEq, Repr

namespace Rule

def stage : Rule → Stage
  | style => .style
  | className => .className
  | camelCase _ => .camelCase
  | renameTable => .renameTable

def name : Rule → Text
  | style => "style".toList
  | className => "class-name".toList
  | camelCase _ => "camel-case".toList
  | renameTable => "rename-table".toList

def apply : Rule → Text → Text
  | style => restructureStyles
  | className => renameClass
  | camelCase mode => Transform.camelCase mode
  | renameTable => applyRenamings Transform.renameTable

def sequence (mode : RenameMode) : List Rule := [style, className, camelCase mode, renameTable]

end Rule

structure Step where
  rule : Rule
  before : Text
  deriving DecidableEq, Repr

def Step.after (s : Step) : Text := s.rule.apply s.before

def steps : List Rule → Text → List Step
  | [], _ => []
  | r :: rs, t => ⟨r, t⟩ :: steps rs (r.apply t)

def applyRules (rs : List Rule) (t : Text) : Text := rs.foldl (fun t r => r.apply t) t

end SvgJsx.Transform
