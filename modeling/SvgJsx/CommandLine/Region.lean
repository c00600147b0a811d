import SvgJsx.Command.Convert
import SvgJsx.Command.Init
import SvgJsx.CommandLine.Basic

/-! The part of the file system that a command can look at or change. A picture of this part is
enough to carry the command out. -/

namespace SvgJsx.CommandLine
open Text

structure Region where
  path : Path
  deep : Bool := false
  deriving DecidableEq, Repr

def Action.regions (c : Config) : Action → List Region
  | .convert input? output? _ _ => (input?.toList ++ output?.toList).map fun p => { path := p }
  | .batch dir output? _ => [⟨dir, true⟩, ⟨output?.getD c.batch.output, true⟩]
  | .watch dir output? _ => [⟨dir, true⟩, ⟨output?.getD c.batch.output, true⟩]
  | .serve _ _ watched? => watched?.toList.map fun p => { path := p }
  | .init _ =>
    [{ path := ⟨Command.configName⟩ }, { path := ⟨"icons/check-circle.svg".toList⟩ }]

def Action.readsStandardInput : Action → Bool
  | .convert input? _ _ _ => Command.Input.ofOperand input? = .standard
  | _ => false

end SvgJsx.CommandLine
