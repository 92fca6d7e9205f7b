import Courier.Clock
import Courier.Text.Utf8.Basic

/-!
# Sources

Where bytes come from: pieces, each of which arrives at once, pauses between them, and an end. A
read never waits and gives at most one piece; where it would have to wait it says until when. A
pause begins when somebody first reads there, and passing over one that has ended takes a look at
the clock; without one the read has to wait as well, for a moment that has come.

`Source.bytes` is what a source still holds, whatever its pieces and pauses: what a read gives is
the beginning of it, and the rest stays (`append_bytes_read`). `Source.weight` counts bytes and
parts, and bounds every loop over a source: a read lowers it by what it gives
(`length_add_weight_read_le`), and passing over a pause that was waited for lowers it as well
(`weight_skip_lt`).
-/

namespace Courier

/-- One part of a source. -/
inductive Piece where
  | chunk (bytes : Bytes)
  /-- Nothing for that long from the first read on. -/
  | pause (length : Nat)
  /-- Nothing before that moment. -/
  | notBefore (moment : Time)
deriving Repr, DecidableEq

/-- What follows the last part. -/
inductive Ending where
  | finish
  /-- Nothing, ever. -/
  | silence
  /-- An error of the stream. -/
  | failure (reason : String)
deriving Repr, DecidableEq

/-- What a read gave. -/
inductive ReadResult where
  /-- Bytes; none at the end of the stream. -/
  | data (bytes : Bytes)
  | failed (reason : String)
  /-- Nothing yet; there may be something at the moment, if there is one. -/
  | pending (wake : Option Time)
deriving Repr, DecidableEq

namespace ReadResult

/-- The bytes that a read gave. -/
def bytes : ReadResult → Bytes
  | data bytes => bytes
  | failed _ | pending _ => []

/-- What is left of a read if only some of its bytes count. -/
def map (f : Bytes → Bytes) : ReadResult → ReadResult
  | data bytes => data (f bytes)
  | failed reason => failed reason
  | pending wake => pending wake

end ReadResult

namespace Piece

/-- The bytes of a part. -/
def content : Piece → Bytes
  | chunk bytes => bytes
  | pause _ | notBefore _ => []

/-- One for the part and one for each byte. -/
def weight (piece : Piece) : Nat :=
  piece.content.length + 1

/-- Reads up to `max` bytes from parts, passing over pauses that have ended. -/
def read (max : Nat) (ending : Ending) (clock : Clock) :
    List Piece → ReadResult × Clock × List Piece
  | [] =>
    match ending with
    | .finish => (.data [], clock, [])
    | .silence => (.pending none, clock, [])
    | .failure reason => (.failed reason, clock, [])
  | chunk bytes :: rest =>
    if bytes.isEmpty then read max ending clock rest
    else if bytes.length ≤ max then (.data bytes, clock, rest)
    else (.data (bytes.take max), clock, chunk (bytes.drop max) :: rest)
  | pause length :: rest =>
    if clock.sees (clock.now + length) then read max ending clock.look rest
    else (.pending (some (clock.now + length)), clock, notBefore (clock.now + length) :: rest)
  | notBefore moment :: rest =>
    if clock.sees moment then read max ending clock.look rest
    else (.pending (some moment), clock, notBefore moment :: rest)

/-- The parts without a pause at their head that has ended. -/
def skip (now : Time) : List Piece → List Piece
  | notBefore moment :: rest => if moment ≤ now then rest else notBefore moment :: rest
  | pieces => pieces

/-- The bytes of parts. -/
def contents (pieces : List Piece) : Bytes :=
  pieces.flatMap content

theorem contents_cons (piece : Piece) (rest : List Piece) :
    contents (piece :: rest) = piece.content ++ contents rest :=
  List.flatMap_cons

theorem append_contents_read (max : Nat) (ending : Ending) (clock : Clock) (pieces : List Piece) :
    (read max ending clock pieces).1.bytes ++ contents (read max ending clock pieces).2.2 =
      contents pieces := by
  induction pieces generalizing clock with
  | nil => cases ending <;> rfl
  | cons piece rest ih =>
    rw [contents_cons]
    cases piece with
    | chunk held =>
      unfold read
      split
      · rename_i he
        rw [ih, content, List.isEmpty_iff.1 he, List.nil_append]
      · split
        · rfl
        · simp only [ReadResult.bytes, contents_cons, content]
          rw [← List.append_assoc, List.take_append_drop]
    | pause length =>
      unfold read
      split
      · exact ih _
      · rfl
    | notBefore moment =>
      unfold read
      split
      · exact ih _
      · rfl

theorem length_read_le (max : Nat) (ending : Ending) (clock : Clock) (pieces : List Piece) :
    (read max ending clock pieces).1.bytes.length ≤ max := by
  induction pieces generalizing clock with
  | nil => cases ending <;> exact Nat.zero_le max
  | cons piece rest ih =>
    cases piece with
    | chunk held =>
      unfold read
      split
      · exact ih _
      · split
        · rename_i hm
          exact hm
        · exact List.length_take_le max held
    | pause length =>
      unfold read
      split
      · exact ih _
      · exact Nat.zero_le max
    | notBefore moment =>
      unfold read
      split
      · exact ih _
      · exact Nat.zero_le max

theorem contents_skip (now : Time) (pieces : List Piece) :
    contents (skip now pieces) = contents pieces := by
  unfold skip
  split
  · split <;> rfl
  · rfl

/-- The number of bytes and parts. -/
def total : List Piece → Nat
  | [] => 0
  | piece :: rest => piece.weight + total rest

theorem total_cons (piece : Piece) (rest : List Piece) :
    total (piece :: rest) = piece.content.length + 1 + total rest := by
  rfl

theorem total_read_le (max : Nat) (ending : Ending) (clock : Clock) (pieces : List Piece) :
    total (read max ending clock pieces).2.2 ≤ total pieces := by
  induction pieces generalizing clock with
  | nil => cases ending <;> simp [read]
  | cons piece rest ih =>
    have hn := ih clock
    have hl := ih clock.look
    clear ih
    cases piece <;> unfold read <;> (repeat' split) <;> simp_all [total_cons, content] <;> omega

theorem length_add_total_read_le {max : Nat} {ending : Ending} {clock : Clock} {pieces : List Piece}
    {bytes : Bytes} (h : (read max ending clock pieces).1 = .data bytes) :
    bytes.length + total (read max ending clock pieces).2.2 ≤ total pieces := by
  induction pieces generalizing clock with
  | nil => cases ending <;> simp_all [read]
  | cons piece rest ih =>
    rw [total_cons]
    cases piece with
    | chunk held =>
      unfold read at h ⊢
      split
      · rw [if_pos ‹_›] at h
        have := ih h
        omega
      · rw [if_neg ‹_›] at h
        split
        · rw [if_pos ‹_›] at h
          obtain rfl : held = bytes := by simpa using h
          simp only [content]
          omega
        · rw [if_neg ‹_›] at h
          obtain rfl : held.take max = bytes := by simpa using h
          simp only [total_cons, content, List.length_drop, List.length_take]
          omega
    | pause length =>
      unfold read at h ⊢
      split
      · rw [if_pos ‹_›] at h
        have := ih h
        omega
      · rw [if_neg ‹_›] at h
        cases h
    | notBefore moment =>
      unfold read at h ⊢
      split
      · rw [if_pos ‹_›] at h
        have := ih h
        omega
      · rw [if_neg ‹_›] at h
        cases h

theorem total_skip_lt {later max : Nat} {ending : Ending} {clock : Clock} {pieces : List Piece}
    {wake : Time} (h : (read max ending clock pieces).1 = .pending (some wake))
    (hw : wake ≤ later) :
    total (skip later (read max ending clock pieces).2.2) < total pieces := by
  induction pieces generalizing clock with
  | nil => cases ending <;> simp_all [read]
  | cons piece rest ih =>
    rw [total_cons]
    cases piece with
    | chunk held =>
      unfold read at h ⊢
      split
      · rw [if_pos ‹_›] at h
        have := ih h
        omega
      · rw [if_neg ‹_›] at h
        split at h <;> simp at h
    | pause length =>
      unfold read at h ⊢
      split
      · rw [if_pos ‹_›] at h
        have := ih h
        omega
      · rw [if_neg ‹_›] at h
        obtain rfl : clock.now + length = wake := by simpa using h
        simp only [skip, if_pos hw]
        omega
    | notBefore moment =>
      unfold read at h ⊢
      split
      · rw [if_pos ‹_›] at h
        have := ih h
        omega
      · rw [if_neg ‹_›] at h
        obtain rfl : moment = wake := by simpa using h
        simp only [skip, if_pos hw]
        omega

end Piece

/-- Bytes in the order in which they will arrive. -/
structure Source where
  pieces : List Piece
  ending : Ending := .finish
deriving Repr, DecidableEq

namespace Source

/-- A source that has all its bytes at hand. -/
def ofBytes (bytes : Bytes) : Source :=
  { pieces := [.chunk bytes] }

/-- The bytes that are still to come. -/
def bytes (s : Source) : Bytes :=
  Piece.contents s.pieces

/-- The number of bytes and parts that are still to come. -/
def weight (s : Source) : Nat :=
  Piece.total s.pieces

/-- Reads up to `max` bytes. -/
def read (s : Source) (clock : Clock) (max : Nat) : ReadResult × Clock × Source :=
  let (result, clock, pieces) := Piece.read max s.ending clock s.pieces
  (result, clock, { s with pieces })

/-- The source at a later moment: a pause at its head that has ended is gone. -/
def skip (s : Source) (now : Time) : Source :=
  { s with pieces := Piece.skip now s.pieces }

/-! ## What a read leaves -/

theorem append_bytes_read (s : Source) (clock : Clock) (max : Nat) :
    (s.read clock max).1.bytes ++ (s.read clock max).2.2.bytes = s.bytes :=
  Piece.append_contents_read ..

theorem length_read_le (s : Source) (clock : Clock) (max : Nat) :
    (s.read clock max).1.bytes.length ≤ max :=
  Piece.length_read_le ..

theorem bytes_skip (s : Source) (now : Time) : (s.skip now).bytes = s.bytes :=
  Piece.contents_skip ..

theorem length_add_weight_read_le {s s' : Source} {clock clock' : Clock} {max : Nat}
    {result : ReadResult} (h : s.read clock max = (result, clock', s')) :
    result.bytes.length + s'.weight ≤ s.weight := by
  simp only [read, Prod.mk.injEq] at h
  obtain ⟨hr, -, rfl⟩ := h
  cases result with
  | data bytes => exact Piece.length_add_total_read_le hr
  | failed reason | pending wake =>
    rw [ReadResult.bytes, List.length_nil, Nat.zero_add]
    exact Piece.total_read_le ..

theorem weight_skip_lt {s s' : Source} {clock clock' : Clock} {later max : Nat} {wake : Time}
    (h : s.read clock max = (.pending (some wake), clock', s')) (hw : wake ≤ later) :
    (s'.skip later).weight < s.weight := by
  simp only [read, Prod.mk.injEq] at h
  exact h.2.2 ▸ Piece.total_skip_lt h.1 hw

end Source

end Courier
