import Courier.Body
import Courier.Head.Basic

/-!
# Messages

A message is a head and a body. The two need not agree; a message in which they do not is refused
when it is to be written, and so is one whose body is used up, before a byte is written in either
case.
-/

namespace Courier

/-- A head with a body. -/
structure Message where
  head : Head
  body : Body
deriving Repr, DecidableEq

namespace Message

/-- Writes the body behind the head, and has the way out let go of both. -/
def writeBody (m : Message) (outer : Deadline) (headSize : Nat) (c : Channel) :
    Outcome SendError Nat × Message × Channel :=
  match m.body.copy outer c with
  | (.ok count, body, c) =>
    match c.flush outer with
    | (outcome, c) =>
      ((outcome.mapError SendError.io).map fun _ => headSize + count, { m with body }, c)
  | (.error error, body, c) => (.error (.body error), { m with body }, c)
  | (.expired, body, c) => (.expired, { m with body }, c)
  | (.stalled, body, c) => (.stalled, { m with body }, c)

/-- Writes the head and as many bytes of the way in as it declares, and gives their number. -/
def write (m : Message) (outer : Deadline) (c : Channel) :
    Outcome SendError Nat × Message × Channel :=
  if m.body.consumed then (.error (.body .alreadyConsumed), m, c)
  else if m.head.bodySize ≠ m.body.length then
    (.error (.lengthMismatch m.head.contentLength m.body.length), m, c)
  else
    match c.push outer m.head.encode with
    | (.ok _, c) => m.writeBody outer m.head.encode.length c
    | (.error reason, c) => (.error (.io reason), m, c)
    | (.expired, c) => (.expired, m, c)
    | (.stalled, c) => (.stalled, m, c)

end Message

end Courier
