import SvgJsx.FileTree.Basic

/-! Why a conversion fails, and the notices that a user is shown. -/

namespace SvgJsx
open Text

inductive ConversionError where
  | noRoot
  | unreadable (path : Path) (cause : SystemError)
  deriving DecidableEq, Repr

def ConversionError.message : ConversionError → Text
  | noRoot => "Invalid SVG format: expected both <svg and </svg>".toList
  | unreadable path cause => "Failed to read ".toList ++ path.text ++ ": ".toList ++ cause.message

inductive Notice where
  | invalidFormat
  | wrongFileType
  | nothingToCopy
  | readFailed (reason : Text)
  deriving DecidableEq, Repr

namespace Notice

def message : Notice → Text
  | invalidFormat => "Invalid SVG format".toList
  | wrongFileType => "Please upload an SVG file".toList
  | nothingToCopy => "No JSX to copy".toList
  | readFailed reason => "Failed to read file: ".toList ++ reason

def ofError : ConversionError → Notice
  | .noRoot => invalidFormat
  | .unreadable _ cause => readFailed cause.message

end Notice

def readSource (fs : FileTree) (p : Path) : Except ConversionError Text :=
  match fs.read p with
  | .ok t => .ok t
  | .error cause => .error (.unreadable p cause)

end SvgJsx
