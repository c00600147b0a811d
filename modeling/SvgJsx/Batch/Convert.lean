import SvgJsx.Batch.Settings
import SvgJsx.FileTree.Write

/-! Converting one drawing of a directory. Nothing is written for an empty file or where the
conversion fails. -/

namespace SvgJsx.Batch
open Text FileTree

inductive FileFailure where
  | conversion (e : ConversionError)
  | unwritable (path : Path) (cause : SystemError)
  deriving DecidableEq, Repr

namespace FileFailure

def message : FileFailure → Text
  | conversion e => e.message
  | unwritable path cause =>
    "Failed to write ".toList ++ path.text ++ ": ".toList ++ cause.message

def reason : FileFailure → Text
  | conversion e => (Notice.ofError e).message
  | f => f.message

end FileFailure

inductive FileOutcome where
  | written (target : Path)
  | empty
  deriving DecidableEq, Repr

structure FileRun where
  tree : FileTree
  result : Except FileFailure FileOutcome
  log : List LogEntry := []

def store (fs : FileTree) (target : Path) (component : Text) (short? : Option Shortage := none) :
    FileTree × Option FileFailure :=
  match target.parent? with
  | none => place fs
  | some dir =>
    match fs.createDirectories dir with
    | ⟨tree, some cause⟩ => (tree, some (.unwritable dir cause))
    | ⟨tree, none⟩ => place tree
where
  place (fs : FileTree) : FileTree × Option FileFailure :=
    let attempt := fs.write target component short?
    (attempt.tree, attempt.failure?.map (.unwritable target))

def convertFile (s : Settings) (fs : FileTree) (source : Path) (short? : Option Shortage := none) :
    FileRun :=
  match readSource fs source with
  | .error e => ⟨fs, .error (.conversion e), []⟩
  | .ok markup =>
    let o := s.options.forStem source.stem
    let log := o.conversionLog markup
    match o.convert markup with
    | .error e => ⟨fs, .error (.conversion e), log⟩
    | .ok .empty => ⟨fs, .ok .empty, log⟩
    | .ok (.component text) =>
      let target := s.outputPath source
      match store fs target text short? with
      | (tree, some failure) => ⟨tree, .error failure, log⟩
      | (tree, none) => ⟨tree, .ok (.written target), log⟩

end SvgJsx.Batch
