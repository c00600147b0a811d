import SvgJsx.Path.Svg

/-! What a watcher of files reports. Only drawings count, by their extension. -/

namespace SvgJsx

inductive WatchEvent where
  | changed (path : Path)
  | removed (path : Path)
  deriving DecidableEq, Repr

namespace WatchEvent

def path : WatchEvent → Path
  | changed p => p
  | removed p => p

def isReported (e : WatchEvent) : Bool := e.path.isSvg

end WatchEvent
end SvgJsx
