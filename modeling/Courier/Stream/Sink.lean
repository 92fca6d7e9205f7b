import Courier.Text.Utf8.Basic

/-!
# Sinks

Where bytes go. A sink takes all of them, or a number of them and then none: from then on every
write waits forever or fails. A write that crosses the limit is taken in part, and what does not fit
is given back (`received_push`).
-/

namespace Courier

/-- What a full sink does with a write. -/
inductive Refusal where
  /-- Lets it wait forever. -/
  | silence
  /-- Fails it. -/
  | failure (reason : String)
deriving Repr, DecidableEq

/-- The bytes taken so far and the room for more. -/
structure Sink where
  received : Bytes := []
  /-- The number of bytes that still fit; all of them if absent. -/
  room : Option Nat := none
  refusal : Refusal := .silence
  closed : Bool := false
deriving Repr, DecidableEq

namespace Sink

/-- Writes as much as fits, and gives what does not. -/
def push (s : Sink) (bytes : Bytes) : Bytes × Sink :=
  match s.room with
  | none => ([], { s with received := s.received ++ bytes })
  | some room =>
    (bytes.drop room,
      { s with received := s.received ++ bytes.take room, room := some (room - bytes.length) })

theorem received_push (s : Sink) (bytes : Bytes) :
    (s.push bytes).2.received ++ (s.push bytes).1 = s.received ++ bytes := by
  unfold push
  split
  · exact List.append_nil _
  · rw [List.append_assoc, List.take_append_drop]

/-- Tells the sink that nothing more will come. -/
def close (s : Sink) : Sink :=
  { s with closed := true }

end Sink

end Courier
