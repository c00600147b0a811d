import SvgJsx.Batch.Watch
import SvgJsx.Command.Convert
import SvgJsx.Command.Init
import SvgJsx.CommandLine.Basic
import SvgJsx.Network.Address

/-! Carrying out what a command line asks for. The configuration is loaded first. Flags win over the
configuration, and a component name is checked before anything is read or written. -/

namespace SvgJsx.CommandLine
open Text

def commandOptions (base : Options) (name? : Option Text) (everywhere : Bool) :
    Except ConfigError Options :=
  let mode : Transform.RenameMode := if everywhere then .everywhere else base.mode
  match name? with
  | none => .ok { base with mode }
  | some name => (Config.checkName name).map fun () => { base with componentName := name, mode }

def batchSettings (c : Config) (dir : Path) (output? : Option Path) (options : Options) :
    Batch.Settings :=
  ⟨dir, output?.getD c.batch.output, c.batch.extension, options⟩

def configFailure : ConfigError → Command.Failure
  | .unreadable path cause => .during (ConfigError.unreadable path cause).message cause
  | e => ⟨e.message, []⟩

def startServing (c : Config) (port? : Option Nat) (watched? : Option Path) (fs : FileTree) :
    Command.Result :=
  let port := port?.getD c.serve.port
  let place := c.serve.host ++ ':' :: decimal port
  match watched?.filter (!fs.isDirectory ·) with
  | some dir =>
    { tree := fs, failure? := some ⟨"Directory not found: ".toList ++ dir.text, []⟩ }
  | none =>
    let opening : LogEntry := ⟨.info, "Starting playground on port ".toList ++ decimal port⟩
    match Network.SocketAddress.parse? place with
    | none =>
      { tree := fs, log := [opening], failure? := some ⟨"Invalid address ".toList ++ place, []⟩ }
    | some address =>
      let watching : List LogEntry := watched?.toList.map fun dir =>
        ⟨.info, "Watching ".toList ++ dir.text ++ " for SVG changes".toList⟩
      { tree := fs
        log := opening :: watching ++
          [⟨.info, "Starting playground at http://".toList ++ address.text⟩]
        failure? :=
          if address.isLocal then none
          else some ⟨"Failed to bind to ".toList ++ address.text ++ ": ".toList ++
            SystemError.addressNotAvailable.message, []⟩ }

/-- Does what a command asks for. `duration` is the time that a batch takes, in words. -/
def perform (c : Config) (standardInput : Content) (duration : Text) (fs : FileTree) :
    Action → Command.Result
  | .convert input? output? name? everywhere =>
    match commandOptions c.convert name? everywhere with
    | .error e => { tree := fs, failure? := some (configFailure e) }
    | .ok o => Command.convert o standardInput (.ofOperand input?) output? fs
  | .batch dir output? everywhere =>
    match commandOptions c.convert none everywhere with
    | .error e => { tree := fs, failure? := some (configFailure e) }
    | .ok o => Batch.run (batchSettings c dir output? o) duration fs
  | .watch dir output? everywhere =>
    match commandOptions c.convert none everywhere with
    | .error e => { tree := fs, failure? := some (configFailure e) }
    | .ok o => Batch.startWatching (batchSettings c dir output? o) fs
  | .serve port? _ watched? => startServing c port? watched? fs
  | .init overwrite => Command.init ⟨[]⟩ overwrite fs

namespace Invocation

def run (i : Invocation) (standardInput : Content) (duration : Text) (fs : FileTree) :
    Command.Result :=
  let loaded := Config.load fs i.config
  match loaded.value with
  | .error e => { tree := fs, log := loaded.log, failure? := some (configFailure e) }
  | .ok c => (perform c standardInput duration fs i.action).behind loaded.log

def watchSettings? (i : Invocation) (fs : FileTree) : Option Batch.Settings :=
  match i.action, (Config.load fs i.config).value with
  | .watch dir output? everywhere, .ok c =>
    match commandOptions c.convert none everywhere with
    | .ok o => some (batchSettings c dir output? o)
    | .error _ => none
  | _, _ => none

def servedOptions? (i : Invocation) (fs : FileTree) : Option Options :=
  match i.action, (Config.load fs i.config).value with
  | .serve .., .ok c => some c.convert
  | _, _ => none

def shows (i : Invocation) (e : LogEntry) : Bool :=
  let least : LogLevel := if i.verbose then .debug else .info
  decide (least.severity ≤ e.level.severity)

end Invocation

def versionLine : Text := "jsxify 0.1.0\n".toList

def exitCode (r : Command.Result) : Nat := if r.failure?.isSome then 1 else 0

def misuseCode : Nat := 2

def failureLine (f : Command.Failure) : Text := firstLine f.message

def causeLines : List Text → List Text
  | [] => []
  | [cause] => ["Caused by:".toList, "    ".toList ++ cause]
  | causes =>
    "Caused by:".toList :: causes.zipIdx.map fun (cause, n) =>
      "    ".toList ++ decimal n ++ ": ".toList ++ cause

def failureReport (f : Command.Failure) : Text :=
  let causes := (causeLines f.causes).flatMap fun line => '\n' :: line
  "Error: ".toList ++ f.message ++ (if causes = [] then [] else '\n' :: causes)

end SvgJsx.CommandLine
