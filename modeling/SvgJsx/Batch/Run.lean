import SvgJsx.Batch.Claim
import SvgJsx.Batch.Convert
import SvgJsx.Command.Result
import SvgJsx.FileTree.Walk

/-! Converting every drawing below a directory. The drawings are taken in the order of their paths;
the report counts each of them once. -/

namespace SvgJsx.Batch
open Text

structure Report where
  converted : Nat := 0
  skipped : Nat := 0
  failed : List (Path × Text) := []
  deriving DecidableEq, Repr

def convertEach (s : Settings) : FileTree → List Path → FileTree × List (Path × FileRun)
  | fs, [] => (fs, [])
  | fs, p :: ps =>
    let run := convertFile s fs p
    let (fs, runs) := convertEach s run.tree ps
    (fs, (p, run) :: runs)

def Report.add (r : Report) (source : Path) (result : Except FileFailure FileOutcome) : Report :=
  match result with
  | .ok (.written _) => { r with converted := r.converted + 1 }
  | .ok .empty => { r with skipped := r.skipped + 1 }
  | .error f => { r with failed := r.failed ++ [(source, f.reason)] }

def outcomeEntry (source : Path) (result : Except FileFailure FileOutcome) : LogEntry :=
  match result with
  | .ok (.written target) => ⟨.debug, source.text ++ " -> ".toList ++ target.text⟩
  | .ok .empty => ⟨.debug, "Skipping empty file ".toList ++ source.text⟩
  | .error f => ⟨.warn, source.text ++ ": ".toList ++ f.reason⟩

structure DirectoryRun where
  tree : FileTree
  report : Report
  conversionLog : List LogEntry := []
  openingLog : List LogEntry := []
  outcomeLog : List LogEntry := []

def DirectoryRun.log (r : DirectoryRun) : List LogEntry :=
  r.openingLog ++ r.conversionLog ++ r.outcomeLog

def convertAll (s : Settings) (fs : FileTree) : Except Command.Failure DirectoryRun :=
  if fs.isDirectory s.inputDir then
    let sources := fs.svgsBelow s.inputDir
    let claims := claimOutputs s sources
    let (tree, runs) := convertEach s fs claims.claimed
    let collided : Report :=
      { failed := claims.collisions.map fun c => (c.source, c.reason) }
    .ok
      { tree
        report := runs.foldl (fun r (p, run) => r.add p run.result) collided
        openingLog :=
          ⟨.debug, "Found ".toList ++ decimal sources.length ++ " SVG files".toList⟩ ::
            claims.collisions.map fun c =>
              ⟨.warn, c.source.text ++ ": ".toList ++ c.reason⟩
        conversionLog := runs.flatMap fun (_, run) => run.log
        outcomeLog := runs.map fun (p, run) => outcomeEntry p run.result }
  else .error ⟨"Directory not found: ".toList ++ s.inputDir.text, []⟩

/-- The batch command. The time taken is logged in milliseconds, in the words of `duration`. -/
def run (s : Settings) (duration : Text) (fs : FileTree) : Command.Result :=
  let opening : LogEntry :=
    ⟨.info, "Converting SVG files in ".toList ++ s.inputDir.text ++ "...".toList⟩
  match convertAll s fs with
  | .error f => { tree := fs, log := [opening], failure? := some f }
  | .ok r =>
    let failures := decimal r.report.failed.length
    { tree := r.tree
      log := opening :: r.log ++
        [⟨.info, "Converted ".toList ++ decimal r.report.converted ++ " files (".toList ++
          decimal r.report.skipped ++ " empty, ".toList ++ failures ++ " failed) in ".toList ++
          duration ++ "ms".toList⟩,
         ⟨.info, "Output: ".toList ++ s.outputDir.text⟩]
      failure? :=
        if r.report.failed = [] then none
        else some ⟨failures ++ " files failed to convert".toList, []⟩ }

end SvgJsx.Batch
