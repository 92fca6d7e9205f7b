import Courier.Head.Progress
import Courier.Message.Basic

/-!
# Senders

The writing end of a connection: messages go out through a buffer, each before a deadline.
-/

namespace Courier

/-- The writing end of a connection. -/
structure Sender where
  outlet : Outlet
  deadline : Deadline := none
deriving Repr, DecidableEq

namespace Sender

/-- A sender that starts now. -/
def start (sink : Sink) (limits : Limits) (now : Time) : Sender :=
  { outlet := .buffered sink, deadline := limits.timeout.map (now + ·) }

/-- Writes a message whose body comes from `inlet`, and gives the number of bytes. -/
def send (s : Sender) (m : Message) (clock : Clock) (inlet : Inlet) :
    Outcome SendError Nat × Message × Clock × Inlet × Sender :=
  match m.write s.deadline { clock := clock.begin, inlet, outlet := s.outlet } with
  | (outcome, m, c) =>
    (outcome.within .timeout, m, c.clock, c.inlet, { s with outlet := c.outlet })

/-- Writes out what is kept, and closes the sink. -/
def close (s : Sender) (clock : Clock) : Outcome SendError Unit × Clock × Sender :=
  match Outlet.settle clock.begin s.deadline s.outlet.close with
  | (outcome, clock, outlet) =>
    ((outcome.mapError SendError.io).within .timeout, clock, { s with outlet })

end Sender

end Courier
