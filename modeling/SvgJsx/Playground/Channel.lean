import SvgJsx.Playground.Message

/-! A channel passes every message to all of its receivers. It holds the last messages only, up to its
capacity. A receiver that has fallen behind them is told how many it has missed and goes on with the
oldest message held. -/

namespace SvgJsx.Playground

def hubCapacity : Nat := 128

inductive Delivery where
  | message (m : LiveMessage)
  | empty
  | lagged (missed : Nat)
  deriving DecidableEq, Repr

/-- What can be done with a channel. Receivers are counted in the order in which they join, and none of
them goes away. -/
class Channel (σ : Type) where
  new : σ
  receivers : σ → Nat
  subscribe : σ → σ
  send : σ → LiveMessage → σ
  receive : σ → Nat → Delivery × σ
  /-- How many of the messages sent are still to come for a receiver. -/
  behind : σ → Nat → Nat

end SvgJsx.Playground
