import Courier.Head.Basic
import Courier.Headers.Block

/-!
# Heads in the making

What one connection may cost is limited (`Limits`): the bytes and the header lines of a head, and
the time that the whole connection may take.

A head is read line by line as its bytes arrive: the first line is its status line, and the lines
behind it are a header block. No byte behind the blank line is touched. The size of the head is
checked after each line and, while a line is incomplete, with the bytes of it that have arrived, so
a head that is too large is refused before it is held as a whole. An error gives the head up.
-/

namespace Courier

/-- The limits of one connection. -/
structure Limits where
  /-- The most bytes that a head may have, its blank line included. -/
  maxHeadBytes : UInt64 := 8192
  /-- The most header lines that a head may have. -/
  maxHeaders : UInt64 := 64
  /-- How long a connection may last, in milliseconds; no limit if absent. -/
  timeout : Option Nat := some 300000
deriving Repr, DecidableEq

namespace Head

/-- A head in the making. -/
structure Progress where
  /-- The most bytes that the head may have. -/
  maxBytes : UInt64
  statusLine : Option String := none
  block : HeaderBlock.Progress
  /-- The bytes of the lines taken so far. -/
  received : Nat := 0
deriving Repr, DecidableEq

namespace Progress

/-- A head of which nothing has arrived. -/
def start (limits : Limits) : Progress :=
  { maxBytes := limits.maxHeadBytes, block := { maxHeaders := limits.maxHeaders.toNat } }

/-- The bytes that still fit. -/
def remaining (p : Progress) : UInt64 :=
  .ofNat (p.maxBytes.toNat - p.received)

/-- The head given up. -/
def reset (p : Progress) : Progress :=
  { maxBytes := p.maxBytes, block := p.block.reset }

/-- The head that a header block completes. -/
def finish (p : Progress) (block : HeaderBlock) : Except ReceiveError Head :=
  Head.make (p.statusLine.getD "") block.headers p.received

/-- Takes lines off the bytes until the head is complete or in error. -/
def decodeLines (p : Progress) (bytes : Bytes) :
    Except ReceiveError (Option Head) × Progress × Bytes :=
  match _h : Line.cut? bytes with
  | none =>
    let pending := p.received + bytes.length
    if p.maxBytes.toNat < pending then
      (.error (.headTooLarge pending p.maxBytes.toNat), p, bytes)
    else (.ok none, p, bytes)
  | some (.error fault, rest) => (.error (.invalidLine fault), p, rest)
  | some (.ok line, rest) =>
    let p := { p with received := p.received + line.size }
    if p.maxBytes.toNat < p.received then
      (.error (.headTooLarge p.received p.maxBytes.toNat), p, rest)
    else
      match p.statusLine with
      | none => decodeLines { p with statusLine := some line.text } rest
      | some _ =>
        match p.block.push line with
        | (.error error, block) => (.error error, { p with block }, rest)
        | (.ok none, block) => decodeLines { p with block } rest
        | (.ok (some done), block) =>
          ((p.finish done).map some, { p with statusLine := none, block, received := 0 }, rest)
termination_by bytes.length
decreasing_by all_goals exact Line.length_lt_of_cut? ‹_›

/-- Takes lines off the bytes until the head is complete; an error gives the head up. -/
def decode (p : Progress) (bytes : Bytes) : Except ReceiveError (Option Head) × Progress × Bytes :=
  match p.decodeLines bytes with
  | (.error error, p, rest) => (.error error, p.reset, rest)
  | answer => answer

/-- The answer when no bytes will follow: a head of which nothing has arrived is no error. -/
def decodeLast (p : Progress) (bytes : Bytes) :
    Except ReceiveError (Option Head) × Progress × Bytes :=
  match p.decode bytes with
  | (.ok none, p, rest) =>
    let received := p.received + rest.length
    (if received = 0 then .ok none else .error (.incompleteHead received), p.reset, [])
  | answer => answer

end Progress

end Head

end Courier
