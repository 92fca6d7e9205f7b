import Courier.Outcome
import Courier.Stream.Source

/-!
# Inlets

A source with a buffer before it. A read takes from the buffer if it holds anything; otherwise one
read of the source goes into the buffer first, for as much as the buffer could hold or for as much
as is asked for, if that is more. What is not taken stays in the buffer. An inlet of capacity zero
is the bare source.

A read is for bytes or for a line (`Wanted`): one for a line takes nothing behind a line feed.

`Inlet.bytes` is what readers can still get, from the buffer or from behind it: a read takes the
beginning of it (`append_bytes_read`). `Inlet.weight` counts bytes and parts as that of a source
does.
-/

namespace Courier

/-- A source and the bytes read from it in advance. -/
structure Inlet where
  capacity : Nat
  buffer : Bytes := []
  source : Source
deriving Repr, DecidableEq

/-- What is read for. -/
inductive Wanted where
  /-- As many bytes as there may be. -/
  | bytes
  /-- The bytes up to the next line feed. -/
  | line
deriving Repr, DecidableEq

/-! ## What is wanted -/

/-- The bytes up to the first line feed, with it, but no more than `limit`. -/
def Inlet.takeLine : Nat → Bytes → Bytes
  | 0, _ | _, [] => []
  | limit + 1, b :: rest => if b = Bytes.lineFeed then [b] else b :: takeLine limit rest

theorem Inlet.takeLine_isPrefix (limit : Nat) (bytes : Bytes) : takeLine limit bytes <+: bytes := by
  fun_induction takeLine limit bytes <;> simp_all

namespace Wanted

/-- What is wanted of the bytes that are there. -/
def first : Wanted → Nat → Bytes → Bytes
  | bytes, limit, held => held.take limit
  | line, limit, held => Inlet.takeLine limit held

/-- Whether nothing is wanted behind these bytes, even if there may be more. -/
def isWhole : Wanted → Bytes → Bool
  | bytes, _ => false
  | line, seen => seen.getLast? = some Bytes.lineFeed

/-- How much a source is asked for. -/
def room (capacity limit : Nat) : Wanted → Nat
  | bytes => max capacity limit
  | line => max capacity 1

theorem first_isPrefix (wanted : Wanted) (limit : Nat) (held : Bytes) :
    wanted.first limit held <+: held := by
  cases wanted
  · exact List.take_prefix ..
  · exact Inlet.takeLine_isPrefix ..

theorem first_nil (wanted : Wanted) (limit : Nat) : wanted.first limit [] = [] :=
  List.prefix_nil.1 (wanted.first_isPrefix limit [])

/-- Some of what is there is wanted. -/
theorem first_eq_nil_iff {wanted : Wanted} {limit : Nat} {held : Bytes} (hl : limit ≠ 0) :
    wanted.first limit held = [] ↔ held = [] := by
  cases wanted
  · simp [first, List.take_eq_nil_iff, hl]
  · rw [first]
    fun_cases Inlet.takeLine limit held <;> simp_all

end Wanted

namespace Inlet

/-- How much the inlet of a connection reads in advance. -/
def defaultCapacity : Nat := 8192

/-- The bare source. -/
def direct (source : Source) : Inlet :=
  { capacity := 0, source }

/-- The source behind a buffer. -/
def buffered (source : Source) : Inlet :=
  { capacity := defaultCapacity, source }

/-- The bytes that are still to come. -/
def bytes (i : Inlet) : Bytes :=
  i.buffer ++ i.source.bytes

/-- The number of bytes and parts that are still to come. -/
def weight (i : Inlet) : Nat :=
  i.buffer.length + i.source.weight

/-! ## Reads that do not wait -/

/-- Shows what the buffer holds, after filling it if it was empty. -/
def load (i : Inlet) (clock : Clock) (room : Nat) : ReadResult × Clock × Inlet :=
  if i.buffer.isEmpty then
    match i.source.read clock room with
    | (shown, clock, source) => (shown, clock, { i with buffer := shown.bytes, source })
  else (.data i.buffer, clock, i)

/-- Takes bytes out of the buffer. -/
def consume (i : Inlet) (count : Nat) : Inlet :=
  { i with buffer := i.buffer.drop count }

/-- Reads up to `limit` bytes. -/
def read (wanted : Wanted) (i : Inlet) (clock : Clock) (limit : Nat) :
    ReadResult × Clock × Inlet :=
  match i.load clock (wanted.room i.capacity limit) with
  | (shown, clock, i) =>
    let taken := shown.map (wanted.first limit)
    (taken, clock, i.consume taken.bytes.length)

/-- The inlet at a later moment: a pause at its head that has ended is gone. -/
def skip (i : Inlet) (now : Time) : Inlet :=
  { i with source := i.source.skip now }

variable {i i' : Inlet} {clock clock' : Clock} {room limit : Nat} {wanted : Wanted}
  {result : ReadResult}

/-- A read takes some of what loading shows. -/
theorem exists_load_of_read (h : i.read wanted clock limit = (result, clock', i')) :
    ∃ shown loaded, i.load clock (wanted.room i.capacity limit) = (shown, clock', loaded) ∧
      result = shown.map (wanted.first limit) ∧ i' = loaded.consume result.bytes.length := by
  cases h
  exact ⟨_, _, rfl, rfl, rfl⟩

theorem bytes_map_first (shown : ReadResult) :
    (shown.map (wanted.first limit)).bytes = wanted.first limit shown.bytes := by
  cases shown
  · rfl
  · exact (wanted.first_nil limit).symm
  · exact (wanted.first_nil limit).symm

theorem buffer_load (h : i.load clock room = (result, clock', i')) : i'.buffer = result.bytes := by
  unfold load at h
  split at h <;> cases h <;> rfl

/-- What is taken is the beginning of what the buffer holds. -/
theorem isPrefix_of_load (h : i.load clock room = (result, clock', i')) :
    (result.map (wanted.first limit)).bytes <+: i'.buffer := by
  rw [bytes_map_first, buffer_load h]
  exact wanted.first_isPrefix ..

theorem take_append_bytes_consume (i : Inlet) {taken : Bytes} (h : taken <+: i.buffer) :
    taken ++ (i.consume taken.length).bytes = i.bytes := by
  obtain ⟨left, hl⟩ := h
  simp only [bytes, consume, ← hl, List.drop_left, List.append_assoc]

/-! ## What weighs less -/

theorem weight_load_le (h : i.load clock room = (result, clock', i')) : i'.weight ≤ i.weight := by
  unfold load at h
  split at h
  · have := Source.length_add_weight_read_le (rfl : i.source.read clock room = _)
    cases h
    exact Nat.le_trans this (Nat.le_add_left ..)
  · cases h
    exact Nat.le_refl _

theorem weight_consume (i : Inlet) {count : Nat} (h : count ≤ i.buffer.length) :
    count + (i.consume count).weight = i.weight := by
  simp only [weight, consume, List.length_drop]
  omega

/-- A read takes off the weight what it gives. -/
theorem length_add_weight_read_le (h : i.read wanted clock limit = (result, clock', i')) :
    result.bytes.length + i'.weight ≤ i.weight := by
  obtain ⟨shown, loaded, hl, rfl, rfl⟩ := exists_load_of_read h
  rw [loaded.weight_consume (isPrefix_of_load hl).length_le]
  exact weight_load_le hl

/-- A read that gives no byte has found the buffer empty and none in the source either. -/
theorem source_of_read (hl : limit ≠ 0) (h : i.read wanted clock limit = (result, clock', i'))
    (hb : result.bytes = []) :
    i.buffer = [] ∧ ∃ source, i' = { i with source } ∧
      i.source.read clock (wanted.room i.capacity limit) = (result, clock', source) := by
  obtain ⟨shown, loaded, hload, rfl, rfl⟩ := exists_load_of_read h
  rw [bytes_map_first] at hb
  have hs : shown.bytes = [] := (Wanted.first_eq_nil_iff hl).1 hb
  have hmap : shown.map (wanted.first limit) = shown := by
    cases shown with
    | data bytes =>
      obtain rfl : bytes = [] := hs
      exact congrArg ReadResult.data (wanted.first_nil limit)
    | failed reason => rfl
    | pending wake => rfl
  unfold load at hload
  split at hload
  · rename_i he
    have hbuffer := List.isEmpty_iff.1 he
    rcases hr : i.source.read clock (wanted.room i.capacity limit) with ⟨given, clock₁, source⟩
    rw [hr] at hload
    cases hload
    rw [hmap]
    exact ⟨hbuffer, source, by simp [consume, hs, hbuffer], rfl⟩
  · rename_i he
    cases hload
    exact absurd (List.isEmpty_iff.2 hs) he

theorem weight_read_skip_lt {later wake : Time} (hl : limit ≠ 0)
    (h : i.read wanted clock limit = (.pending (some wake), clock', i')) (hw : wake ≤ later) :
    (i'.skip later).weight < i.weight := by
  obtain ⟨-, source, rfl, hr⟩ := source_of_read hl h rfl
  exact Nat.add_lt_add_left (Source.weight_skip_lt hr hw) _

/-! ## What is still to come -/

theorem bytes_load (h : i.load clock room = (result, clock', i')) : i'.bytes = i.bytes := by
  unfold load at h
  split at h
  · rename_i he
    have := i.source.append_bytes_read clock room
    cases h
    rw [bytes, bytes, List.isEmpty_iff.1 he, List.nil_append]
    exact this
  · cases h
    rfl

theorem append_bytes_read (h : i.read wanted clock limit = (result, clock', i')) :
    result.bytes ++ i'.bytes = i.bytes := by
  obtain ⟨shown, loaded, hl, rfl, rfl⟩ := exists_load_of_read h
  rw [← bytes_load hl]
  exact loaded.take_append_bytes_consume (isPrefix_of_load hl)

theorem bytes_skip (i : Inlet) (now : Time) : (i.skip now).bytes = i.bytes := by
  simp only [bytes, skip, Source.bytes_skip]

end Inlet

end Courier
