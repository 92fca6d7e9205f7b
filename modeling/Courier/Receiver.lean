import Courier.Head.Progress
import Courier.Message.Basic

/-!
# Receivers

The reading end of a connection. A head is read line by line, so that the inlet stands at the first
byte of the body afterwards, and a line is never read further than one byte beyond what the head may
have. An error gives up the head that was being read.

The body of a message that was received is the next bytes of the receiver's inlet.
-/

namespace Courier

/-- The reading end of a connection. -/
structure Receiver where
  inlet : Inlet
  progress : Head.Progress
  /-- The bytes of the head that no line has taken yet. -/
  held : Bytes := []
  deadline : Deadline := none
deriving Repr, DecidableEq

namespace Receiver

/-- A receiver that starts now. -/
def start (source : Source) (limits : Limits) (now : Time) : Receiver :=
  { inlet := .buffered source
    progress := .start limits
    deadline := limits.timeout.map (now + ·) }

/-- The head that was being read given up. -/
def reset (r : Receiver) : Receiver :=
  { r with progress := r.progress.reset, held := [] }

/-- The most bytes that the next line is read: one more than still fit, so that a line that is too
long shows. -/
def lineLimit (r : Receiver) : UInt64 :=
  r.progress.remaining + 1

/-- Reads lines until the head is complete, is in error, or the stream has ended. -/
def readLines (r : Receiver) (clock : Clock) :
    Outcome ReceiveError (Option Head) × Clock × Receiver :=
  match _hl : r.inlet.readLine clock r.deadline r.lineLimit.toNat with
  | (.error reason, clock, inlet) => (.error (.io reason), clock, { r with inlet })
  | (.expired, clock, inlet) => (.expired, clock, { r with inlet })
  | (.stalled, clock, inlet) => (.stalled, clock, { r with inlet })
  | (.ok line, clock, inlet) =>
    if line.isEmpty then
      match r.progress.decodeLast r.held with
      | (answer, progress, held) => (.ofExcept answer, clock, { r with inlet, progress, held })
    else
      match r.progress.decode (r.held ++ line) with
      | (.ok none, progress, held) => readLines { r with inlet, progress, held } clock
      | (answer, progress, held) => (.ofExcept answer, clock, { r with inlet, progress, held })
termination_by r.inlet.weight
decreasing_by
  have := Inlet.length_add_weight_gather_le _hl
  have := List.length_pos_iff.2 fun h => ‹¬List.isEmpty _ = true› (List.isEmpty_iff.2 h)
  show inlet.weight < _
  omega

/-- Reads the next head; none if the stream ends before its first byte. -/
def readHead (r : Receiver) (clock : Clock) :
    Outcome ReceiveError (Option Head) × Clock × Receiver :=
  match r.readLines clock.begin with
  | (outcome, clock, r) =>
    match outcome.within .timeout with
    | .error error => (.error error, clock, r.reset)
    | outcome => (outcome, clock, r)

/-- Reads the next head, and gives it with the body behind it. -/
def readMessage (r : Receiver) (clock : Clock) :
    Outcome ReceiveError (Option Message) × Clock × Receiver :=
  match r.readHead clock with
  | (outcome, clock, r) =>
    let withBody (head : Head) : Message :=
      { head, body := { length := head.bodySize, deadline := r.deadline } }
    (outcome.map (·.map withBody), clock, r)

end Receiver

end Courier
