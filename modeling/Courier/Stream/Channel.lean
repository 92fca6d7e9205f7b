import Courier.Stream.Inlet.Basic
import Courier.Stream.Outlet

/-!
# Channels

A channel is a way in, a way out, and the clock that both go by.
-/

namespace Courier

/-- Two ends of a stream and their clock. -/
structure Channel where
  clock : Clock
  inlet : Inlet
  outlet : Outlet
deriving Repr, DecidableEq

namespace Channel

/-- Waits until `wake`; what was waited for is then there to be read. -/
def wait (c : Channel) (wake : Option Time) (deadline : Deadline) : Wait × Channel :=
  match c.clock.wait wake deadline with
  | (.ready, clock) => (.ready, { c with clock, inlet := c.inlet.skip clock.now })
  | (end_, clock) => (end_, { c with clock })

/-- Counts looks of the channel's clock. -/
def withClock (c : Channel) (f : Clock → Clock) : Channel :=
  { c with clock := f c.clock }

/-- Writes bytes. -/
def push (c : Channel) (deadline : Deadline) (bytes : Bytes) : Outcome String Unit × Channel :=
  match Outlet.settle c.clock deadline (c.outlet.push bytes) with
  | (outcome, clock, outlet) => (outcome, { c with clock, outlet })

/-- Writes out what the outlet keeps. -/
def flush (c : Channel) (deadline : Deadline) : Outcome String Unit × Channel :=
  match Outlet.settle c.clock deadline c.outlet.flush with
  | (outcome, clock, outlet) => (outcome, { c with clock, outlet })

end Channel

end Courier
