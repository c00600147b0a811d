import SvgJsx.Playground.Hub
import SvgJsx.Session

/-! A live connection has a session of its own. Every text frame is a whole source and is answered
at once; what the hub delivers is passed on as it comes. -/

namespace SvgJsx.Playground
open Text

inductive Frame where
  | text (t : Text)
  | binary (octets : List UInt8)
  | ping
  | close
  deriving DecidableEq, Repr

def answerInput (s : Session) (source : Text) : Logged (Session × LiveMessage) := do
  match ← s.setInput source with
  | (s, none) => return (s, .output s.output)
  | (s, some n) => return (s, .notice n.message)

inductive Arrival where
  | frame (f : Frame)
  | delivery (d : Delivery)
  deriving DecidableEq, Repr

inductive Connection where
  | live (session : Session)
  | closed
  deriving DecidableEq, Repr

namespace Connection

def opened (o : Options) : Connection := live (Session.new o)

def greeting : LiveMessage := .connected

def react (c : Connection) (a : Arrival) : Logged (Connection × Option LiveMessage) :=
  match c, a with
  | live s, .frame (.text t) => do
    let (s, m) ← answerInput s t
    return (live s, some m)
  | live _, .frame .close => return (closed, none)
  | live s, .delivery (.message m) => return (live s, some m)
  | live s, .delivery (.lagged n) => do
    Logged.say .debug ("Live client lagged by ".toList ++ decimal n ++ " messages".toList)
    return (live s, none)
  | c, _ => return (c, none)

def reactAll : Connection → List Arrival → List (Option LiveMessage)
  | _, [] => []
  | c, a :: rest =>
    let (c, m) := (c.react a).value
    m :: c.reactAll rest

def transcript (o : Options) (arrivals : List Arrival) : List LiveMessage :=
  greeting :: ((opened o).reactAll arrivals).filterMap id

end Connection
end SvgJsx.Playground
