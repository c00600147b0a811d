import SvgJsx.Text.Basic

/-! The reasons for which the system refuses an operation, with the system's words for them. -/

namespace SvgJsx
open Text

inductive SystemError where
  | notFound
  | alreadyExists
  | notADirectory
  | isADirectory
  | noSpace
  | addressNotAvailable
  | notUtf8
  | nulInPath
  deriving DecidableEq, Repr

namespace SystemError

def message : SystemError → Text
  | notFound => "No such file or directory (os error 2)".toList
  | alreadyExists => "File exists (os error 17)".toList
  | notADirectory => "Not a directory (os error 20)".toList
  | isADirectory => "Is a directory (os error 21)".toList
  | noSpace => "No space left on device (os error 28)".toList
  | addressNotAvailable => "Cannot assign requested address (os error 99)".toList
  | notUtf8 => "stream did not contain valid UTF-8".toList
  | nulInPath => "file name contained an unexpected NUL byte".toList

end SystemError
end SvgJsx
