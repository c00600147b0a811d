import SvgJsx.CommandLine.Region
import SvgJsx.CommandLine.Run

/-! The program. It takes a picture of the part of the file system that a command line speaks of,
has the command carried out on the picture, and then makes the files what they have become there.
The playground is answered by its own modules; this program has no network to serve it on. -/

namespace SvgJsx.Program
open Text CommandLine

def pathOf (l : Location) : String := String.ofList ('/' :: List.intercalate ['/'] l)

def look (l : Location) : IO (Option (Node × List Text)) := do
  let place := (← IO.currentDir) / pathOf l
  try
    match (← place.metadata).type with
    | .dir => return some (.directory, (← place.readDir).toList.map (·.fileName.toList))
    | _ => return some (.file (.ofOctets (← IO.FS.readBinFile (pathOf l)).data.toList), [])
  catch _ => return none

partial def survey (deep : Bool) (fs : FileTree) (l : Location) : IO FileTree := do
  match ← look l with
  | none => return fs
  | some (n, names) =>
    let fs := if l = [] then fs else fs.put l n
    if deep then names.foldlM (fun fs name => survey deep fs (l ++ [name])) fs else return fs

def surveyRegion (fs : FileTree) (r : Region) : IO FileTree := do
  match fs.route r.path with
  | .error _ => return fs
  | .ok (start, steps) =>
    let places := (List.range (steps.length + 1)).map fun n =>
      (steps.take n).foldl FileTree.stepTo start
    let fs ← places.foldlM (survey false) fs
    if r.deep then survey true fs (steps.foldl FileTree.stepTo start) else return fs

def surveyWorkingDirectory : IO FileTree := do
  let here : Path := ⟨(← IO.currentDir).toString.toList⟩
  let current := (pieces (· == '/') here.text).foldl FileTree.stepTo []
  let above := (List.range (current.length + 1)).map current.take
  above.foldlM (survey false) { current }

def realize (before after : FileTree) : IO Unit := do
  for (l, n) in after.nodes do
    if before.node? l ≠ some n then
      match n with
      | .directory => IO.FS.createDirAll (pathOf l)
      | .file (.text t) => IO.FS.writeFile (pathOf l) (String.ofList t)
      | .file (.binary octets) => IO.FS.writeBinFile (pathOf l) ⟨octets.toArray⟩
  for (l, _) in before.nodes do
    if (after.node? l).isNone then IO.FS.removeFile (pathOf l)

partial def readAll (input : IO.FS.Stream) (read : ByteArray) : IO ByteArray := do
  let more ← input.read 65536
  if more.isEmpty then return read else readAll input (read ++ more)

def readInput (i : Invocation) : IO Content := do
  if i.action.readsStandardInput then
    return .ofOctets (← readAll (← IO.getStdin) .empty).data.toList
  else return .text []

def logShown (i : Invocation) (log : List LogEntry) : IO Unit := do
  for e in log do
    if i.shows e then IO.eprintln (String.ofList e.line)

partial def watch (i : Invocation) (s : Batch.Settings) (before : FileTree) : IO UInt32 := do
  IO.sleep 200
  let here : Path := ⟨pathOf before.current |>.toList⟩
  let regions : List Region := [⟨s.inputDir, true⟩, ⟨s.outputDir, true⟩]
  let now ← regions.foldlM surveyRegion (← surveyWorkingDirectory)
  let after := Batch.handleEvents s now (Batch.eventsBetween (here.join s.inputDir) before now)
  realize now after.tree
  logShown i after.log
  watch i s after.tree

def execute (i : Invocation) : IO UInt32 := do
  let start ← IO.monoMsNow
  let fs ← surveyRegion (← surveyWorkingDirectory) { path := i.config }
  let settings := (Config.load fs i.config).value.toOption.getD {}
  let fs ← (i.action.regions settings).foldlM surveyRegion fs
  let input ← readInput i
  realize fs (i.run input [] fs).tree
  let result := i.run input (decimal ((← IO.monoMsNow) - start)) fs
  logShown i result.log
  IO.print (String.ofList result.printed)
  match result.failure?, i.action, i.watchSettings? fs with
  | some f, _, _ => IO.eprintln (String.ofList (failureReport f))
  | none, .serve _ _ _, _ => IO.eprintln "Error: There is no network to serve the playground on"
  | none, _, some s =>
    logShown i [Batch.watchingEntry s]
    return ← watch i s result.tree
  | none, _, none => return exitCode result |>.toUInt32
  return 1

def usage : String := "Usage: jsxify [-c FILE] [-v] COMMAND

Commands:
  convert [FILE] [-o FILE] [-n NAME] [--legacy]
  batch DIR [-o DIR] [--legacy]
  watch DIR [-o DIR] [--legacy]
  serve [-p PORT] [--no-open] [-w DIR]
  init [-y]
"

end SvgJsx.Program

def main (arguments : List String) : IO UInt32 := do
  match SvgJsx.CommandLine.parse (arguments.map String.toList) with
  | .invoke i => SvgJsx.Program.execute i
  | .version =>
    IO.print (String.ofList SvgJsx.CommandLine.versionLine)
    return 0
  | .help =>
    IO.print SvgJsx.Program.usage
    return 0
  | .misuse =>
    IO.eprint SvgJsx.Program.usage
    return SvgJsx.CommandLine.misuseCode.toUInt32
