import Courier.Failure
import Courier.Stream.Inlet.Waiting
import Courier.Transfer

/-!
# Bodies

A body is the next bytes of an inlet: so many, until a deadline, and once. Reading it and copying it
both use it up, whether they succeed or not, and neither takes a byte beyond it.
-/

namespace Courier

/-- The next bytes of an inlet. -/
structure Body where
  /-- The number of bytes. -/
  length : Nat
  deadline : Deadline := none
  /-- Whether the body is used up. -/
  consumed : Bool := false
deriving Repr, DecidableEq

namespace Body

/-- Whether there are no bytes. -/
def isEmpty (body : Body) : Bool :=
  body.length == 0

/-- The body used up. -/
def consume (body : Body) : Body :=
  { body with consumed := true }

/-- The bytes or their number, unless there are fewer than there should be. -/
def checkComplete {α : Type} (body : Body) (size : α → Nat) :
    Outcome BodyError α → Outcome BodyError α
  | .ok value =>
    if size value < body.length then .error (.incomplete body.length (size value)) else .ok value
  | outcome => outcome

/-- Reads the bytes. -/
def read (body : Body) (clock : Clock) (inlet : Inlet) :
    Outcome BodyError Bytes × Body × Clock × Inlet :=
  if body.consumed then (.error .alreadyConsumed, body, clock, inlet)
  else
    match inlet.readUpTo clock.begin body.deadline body.length with
    | (outcome, clock, inlet) =>
      (body.checkComplete List.length ((outcome.mapError .io).within .timeout), body.consume, clock,
        inlet)

/-- Copies the bytes to the way out and gives their number. The body's own deadline is looked
at before the one around it. -/
def copy (body : Body) (outer : Deadline) (c : Channel) :
    Outcome BodyError Nat × Body × Channel :=
  if body.consumed then (.error .alreadyConsumed, body, c)
  else if body.length = 0 then (.ok 0, body.consume, c)
  else
    match Transfer.run c (body.deadline.earliest outer) body.length with
    | (outcome, c) =>
      let outcome := outcome.mapError BodyError.io
      let outcome :=
        if Deadline.passed body.deadline c.clock.now then outcome.within .timeout else outcome
      (body.checkComplete id outcome, body.consume, c)

end Body

end Courier
