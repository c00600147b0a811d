import SvgJsx.FileTree.Basic
import SvgJsx.Log

/-! What a command leaves: the files, what it logs and prints, and the error it ends with. -/

namespace SvgJsx.Command
open Text

structure Failure where
  message : Text
  causes : List Text := []
  deriving DecidableEq, Repr

def Failure.chain (f : Failure) : List Text := f.message :: f.causes

def Failure.during (step : Text) (cause : SystemError) : Failure := ⟨step, [cause.message]⟩

structure Result where
  tree : FileTree
  log : List LogEntry := []
  printed : Text := []
  failure? : Option Failure := none
  deriving DecidableEq, Repr

def Result.behind (entries : List LogEntry) (r : Result) : Result :=
  { r with log := entries ++ r.log }

end SvgJsx.Command
