import Courier.Receiver
import Courier.Sender

/-!
# Connections

The two ends of a connection, under one deadline.
-/

namespace Courier

/-- The two ends of a connection. -/
structure Connection where
  receiver : Receiver
  sender : Sender
deriving Repr, DecidableEq

namespace Connection

/-- A connection that starts now. -/
def start (source : Source) (sink : Sink) (limits : Limits) (now : Time) : Connection :=
  { receiver := .start source limits now, sender := .start sink limits now }

/-- The deadline of the reading end. -/
def deadline (c : Connection) : Deadline :=
  c.receiver.deadline

/-- The connection with another deadline for both ends. -/
def setDeadline (c : Connection) (deadline : Deadline) : Connection :=
  { receiver := { c.receiver with deadline }, sender := { c.sender with deadline } }

/-- Writes a message that was received, its body straight from the reading end. -/
def relay (c : Connection) (m : Message) (clock : Clock) :
    Outcome SendError Nat × Message × Clock × Connection :=
  match c.sender.send m clock c.receiver.inlet with
  | (outcome, m, clock, inlet, sender) =>
    (outcome, m, clock, { receiver := { c.receiver with inlet }, sender })

end Connection

end Courier
