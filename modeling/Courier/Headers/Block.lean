import Courier.Line.Stream

/-!
# Header blocks

The lines behind the status line: `Name: value`, split at the first colon, up to a blank line. A
block is read line by line (`HeaderBlock.Progress`), and each line is checked when it arrives, first
that it is not one too many and then its form.
-/

namespace Courier

/-- The headers of a block and the bytes it took, its blank line included. -/
structure HeaderBlock where
  headers : Headers
  consumed : Nat
deriving Repr, DecidableEq

namespace HeaderBlock

/-- A block in the making. -/
structure Progress where
  /-- The most lines that the block may have. -/
  maxHeaders : Nat
  headers : Headers := .empty
  lines : Nat := 0
  consumed : Nat := 0
deriving Repr, DecidableEq

namespace Progress

/-- The block given up. -/
def reset (p : Progress) : Progress :=
  { maxHeaders := p.maxHeaders }

/-- The headers with that of one line. -/
def addLine (headers : Headers) (text : String) : Except ReceiveError Headers :=
  match Text.splitOnce ':' text with
  | none => .error (.malformedHeader text)
  | some (name, value) =>
    match headers.add name value with
    | .ok headers => .ok headers
    | .error _ => .error (.malformedHeader text)

/-- Takes one line: a blank one gives the block and starts over. -/
def push (p : Progress) (line : Line) : Except ReceiveError (Option HeaderBlock) × Progress :=
  let p := { p with consumed := p.consumed + line.size }
  if line.isBlank then (.ok (some ⟨p.headers, p.consumed⟩), p.reset)
  else
    let p := { p with lines := p.lines + 1 }
    if p.maxHeaders < p.lines then (.error (.tooManyHeaders p.maxHeaders), p)
    else
      match addLine p.headers line.text with
      | .ok headers => (.ok none, { p with headers })
      | .error error => (.error error, p)

/-- Takes lines off the bytes until one gives the block or an error. -/
def decode (p : Progress) (bytes : Bytes) :
    Except ReceiveError (Option HeaderBlock) × Progress × Bytes :=
  match _h : Line.cut? bytes with
  | none => (.ok none, p, bytes)
  | some (.error fault, rest) => (.error (.invalidLine fault), p, rest)
  | some (.ok line, rest) =>
    match p.push line with
    | (.ok none, p) => decode p rest
    | (answer, p) => (answer, p, rest)
termination_by bytes.length
decreasing_by exact Line.length_lt_of_cut? ‹_›

/-- The answer when no bytes will follow. -/
def decodeLast (p : Progress) (bytes : Bytes) :
    Except ReceiveError (Option HeaderBlock) × Progress × Bytes :=
  let (answer, p, rest) := p.decode bytes
  (atEnd answer rest, p, rest)

end Progress

end HeaderBlock

end Courier
