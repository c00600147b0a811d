import SvgJsx.Batch.Run
import SvgJsx.WatchEvent

/-! Keeping components up to date: a change of a drawing converts it anew, and its removal removes
the component. -/

namespace SvgJsx.Batch
open Text

structure Aftermath where
  tree : FileTree
  log : List LogEntry := []
  deriving DecidableEq, Repr

def handleEvent (s : Settings) (fs : FileTree) : WatchEvent → Aftermath
  | .changed p =>
    let run := convertFile s fs p
    let entry : LogEntry := match run.result with
      | .ok (.written target) => ⟨.info, p.text ++ " -> ".toList ++ target.text⟩
      | .ok .empty => ⟨.debug, p.text ++ " is empty, skipping".toList⟩
      | .error (.conversion e) => ⟨.warn, p.text ++ ": ".toList ++ (Notice.ofError e).message⟩
      | .error f => ⟨.error, f.message⟩
    ⟨run.tree, run.log ++ [entry]⟩
  | .removed p =>
    let target := s.outputPath p
    if fs.has target then
      match fs.remove target with
      | .ok tree => ⟨tree, [⟨.info, "Removed ".toList ++ target.text⟩]⟩
      | .error e =>
        ⟨fs, [⟨.warn, "Failed to remove ".toList ++ target.text ++ ": ".toList ++ e.message⟩]⟩
    else ⟨fs, []⟩

def startWatching (s : Settings) (fs : FileTree) : Command.Result :=
  match convertAll s fs with
  | .error f => { tree := fs, failure? := some f }
  | .ok r =>
    { tree := r.tree
      log := r.log ++
        [⟨.info, "Converted ".toList ++ decimal r.report.converted ++ " files (".toList ++
          decimal r.report.failed.length ++ " failed)".toList⟩] }

def eventsBetween (dir : Path) (before after : FileTree) : List WatchEvent :=
  let sources := after.svgsBelow dir
  let isNew (p : Path) : Bool := (before.find p).toOption != (after.find p).toOption
  (sources.filter isNew).map .changed ++
    ((before.svgsBelow dir).filter (· ∉ sources)).map .removed

def handleEvents (s : Settings) : FileTree → List WatchEvent → Aftermath
  | fs, [] => ⟨fs, []⟩
  | fs, e :: es =>
    let first := handleEvent s fs e
    let rest := handleEvents s first.tree es
    ⟨rest.tree, first.log ++ rest.log⟩

def watchingEntry (s : Settings) : LogEntry :=
  ⟨.info, "Watching ".toList ++ s.inputDir.text ++ " (press Ctrl+C to stop)".toList⟩

end SvgJsx.Batch
