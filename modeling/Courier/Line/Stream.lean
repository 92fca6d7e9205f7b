import Courier.Failure

/-!
# Lines

A line ends at its first line feed; one carriage return right before the line feed belongs to the
end of the line. What is left has to be UTF-8 without carriage returns. A line that is not is taken
off the bytes all the same, so that the next line starts where it should.

`Line.cut?` takes one line off; `Line.cutAll` takes all of them. `length_lt_of_cut?` says that a cut
makes progress. A line of a stream is asked for as long as one is complete (`Line.next`); when the
stream has ended, bytes without a line feed are an error (`Line.last`).
-/

namespace Courier

/-- A line without its end, and the number of bytes it took with it. -/
structure Line where
  text : String
  size : Nat
deriving Repr, DecidableEq

namespace Line

/-- A blank line is empty: blanks do not make one. -/
def isBlank (line : Line) : Bool :=
  line.text.isEmpty

/-- The bytes before the first line feed and those behind it. -/
def splitFeed? : Bytes → Option (Bytes × Bytes)
  | [] => none
  | b :: rest =>
    if b = Bytes.lineFeed then some ([], rest)
    else (splitFeed? rest).map fun (content, rest) => (b :: content, rest)

/-- The bytes without one carriage return at their end. -/
def dropReturn (content : Bytes) : Bytes :=
  if content.getLast? = some Bytes.carriageReturn then content.dropLast else content

/-- Reads the bytes before a line feed. -/
def ofContent (content : Bytes) : Except Fault Line :=
  let kept := dropReturn content
  if kept.contains Bytes.carriageReturn then .error .strayReturn
  else
    match Utf8.decode kept with
    | .ok text => .ok ⟨text, content.length + 1⟩
    | .error fault => .error (.notText fault)

/-- Takes off the bytes up to the first line feed: a line, or the reason why they are none. -/
def cut? (bytes : Bytes) : Option (Except Fault Line × Bytes) :=
  (splitFeed? bytes).map fun (content, rest) => (ofContent content, rest)

theorem splitFeed?_eq_some {bytes content rest : Bytes}
    (h : splitFeed? bytes = some (content, rest)) : bytes = content ++ Bytes.lineFeed :: rest := by
  induction bytes generalizing content with
  | nil => simp [splitFeed?] at h
  | cons b bs ih =>
    by_cases hb : b = Bytes.lineFeed
    · simp_all [splitFeed?]
    · simp only [splitFeed?, hb, if_false, Option.map_eq_some_iff, Prod.exists, Prod.mk.injEq] at h
      obtain ⟨_, _, h, rfl, rfl⟩ := h
      rw [ih h, List.cons_append]

theorem length_lt_of_cut? {bytes rest : Bytes} {line : Except Fault Line}
    (h : cut? bytes = some (line, rest)) : rest.length < bytes.length := by
  simp only [cut?, Option.map_eq_some_iff, Prod.exists, Prod.mk.injEq] at h
  obtain ⟨content, _, h, -, rfl⟩ := h
  rw [splitFeed?_eq_some h, List.length_append, List.length_cons]
  omega

/-- Takes off all that line feeds end, and gives what is left. -/
def cutAll (bytes : Bytes) : List (Except Fault Line) × Bytes :=
  match _h : cut? bytes with
  | none => ([], bytes)
  | some (line, rest) =>
    let (lines, left) := cutAll rest
    (line :: lines, left)
termination_by bytes.length
decreasing_by exact length_lt_of_cut? ‹_›

/-! ## Lines of a stream -/

/-- The next line, and the bytes behind it. -/
def next (bytes : Bytes) : Except ReceiveError (Option Line) × Bytes :=
  match cut? bytes with
  | none => (.ok none, bytes)
  | some (.ok line, rest) => (.ok (some line), rest)
  | some (.error fault, rest) => (.error (.invalidLine fault), rest)

/-- The next line of a stream that has ended. -/
def last (bytes : Bytes) : Except ReceiveError (Option Line) × Bytes :=
  let (answer, rest) := next bytes
  (atEnd answer rest, rest)

end Line

end Courier
