import SvgJsx.Playground.Channel

/-! The hub is a channel that knows the place of each receiver among the messages sent. -/

namespace SvgJsx.Playground

structure Hub where
  sent : Nat := 0
  held : List LiveMessage := []
  /-- For each receiver, the number of messages that are behind it. -/
  positions : List Nat := []
  deriving DecidableEq, Repr

namespace Hub

def dropped (h : Hub) : Nat := h.sent - h.held.length

def subscribe (h : Hub) : Hub := { h with positions := h.positions ++ [h.sent] }

/-- The hub with a message sent. The oldest message goes where there is no room. -/
def send (h : Hub) (m : LiveMessage) : Hub :=
  { h with
    sent := h.sent + 1
    held := (h.held ++ [m]).drop (h.held.length + 1 - hubCapacity) }

def deliver (h : Hub) (position : Nat) : Delivery × Nat :=
  if position < h.dropped then (.lagged (h.dropped - position), h.dropped)
  else
    match h.held[position - h.dropped]? with
    | some m => (.message m, position + 1)
    | none => (.empty, position)

def receive (h : Hub) (receiver : Nat) : Delivery × Hub :=
  match h.positions[receiver]? with
  | none => (.empty, h)
  | some position =>
    let (d, next) := h.deliver position
    (d, { h with positions := h.positions.set receiver next })

def behind (h : Hub) (receiver : Nat) : Nat := h.sent - h.positions[receiver]?.getD h.sent

instance : Channel Hub where
  new := {}
  receivers h := h.positions.length
  subscribe := subscribe
  send := send
  receive := receive
  behind := behind

end Hub
end SvgJsx.Playground
