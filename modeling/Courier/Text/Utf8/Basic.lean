/-!
# Bytes and UTF-8

What crosses a connection is a list of bytes. Two of them have a meaning of their own: a line feed
ends a line, and a carriage return may stand right before it.

`Utf8.encode` writes a text as bytes and `Utf8.decode` reads it back. A refusal says where the valid
part ends and how long the bad part is: the longest run that still began like a character, or the
bytes of a character that the input cuts short.

The decoder looks at one character at a time (`Utf8.lead`) and then passes over the continuation
bytes it has already seen, so that it recurses on the input itself.
-/

namespace Courier

/-- A string of bytes. -/
abbrev Bytes := List UInt8

namespace Bytes

/-- The byte that ends a line. -/
def lineFeed : UInt8 := 10

/-- The byte that may stand between a line and its line feed, and nowhere else in a line. -/
def carriageReturn : UInt8 := 13

/-- The line end that is written. -/
def crlf : Bytes := [carriageReturn, lineFeed]

end Bytes

namespace Utf8

/-! ## Writing -/

/-- One to four bytes: the length in the first byte's high bits, then six bits a byte. -/
def encodeChar (c : Char) : Bytes :=
  let n := c.toNat
  if n < 0x80 then
    [.ofNat n]
  else if n < 0x800 then
    [.ofNat (0xC0 + n / 0x40), .ofNat (0x80 + n % 0x40)]
  else if n < 0x10000 then
    [.ofNat (0xE0 + n / 0x1000), .ofNat (0x80 + n / 0x40 % 0x40), .ofNat (0x80 + n % 0x40)]
  else
    [.ofNat (0xF0 + n / 0x40000), .ofNat (0x80 + n / 0x1000 % 0x40),
      .ofNat (0x80 + n / 0x40 % 0x40), .ofNat (0x80 + n % 0x40)]

/-- The bytes of a list of characters. -/
def encodeChars (cs : List Char) : Bytes :=
  cs.flatMap encodeChar

/-- The bytes of a text. -/
def encode (s : String) : Bytes :=
  encodeChars s.toList

/-- The number of bytes of a text. -/
def size (s : String) : Nat :=
  (encode s).length

/-! ## Reading -/

/-- Why bytes are no text; `offset` counts the bytes of the valid part. -/
inductive Fault where
  /-- The `length` bytes at `offset` can begin or continue no character. -/
  | invalid (length offset : Nat)
  /-- The input ends inside the character that begins at `offset`. -/
  | incomplete (offset : Nat)
deriving Repr, DecidableEq

/-- The sentence that reports a fault. -/
def Fault.message : Fault → String
  | .invalid length offset =>
    "invalid utf-8 sequence of " ++ toString length ++ " bytes from index " ++ toString offset
  | .incomplete offset => "incomplete utf-8 byte sequence from index " ++ toString offset

/-- What a byte and the bytes behind it begin with. -/
inductive Lead where
  /-- A character, with its number of continuation bytes. -/
  | char (c : Char) (extra : Nat)
  /-- That many bytes which are no part of a character. -/
  | bad (length : Nat)
  /-- A character that the input does not complete. -/
  | cut
deriving Repr, DecidableEq

/-- Continuation bytes carry the high bits `10`. -/
def isContinuation (b : UInt8) : Bool :=
  0x80 ≤ b.toNat && b.toNat ≤ 0xBF

/-- The second byte's range is narrower behind four first bytes: there it excludes encodings that
are too long, surrogates, and numbers beyond the last character. -/
def isSecond (first second : UInt8) : Bool :=
  let low := if first = 0xE0 then 0xA0 else if first = 0xF0 then 0x90 else 0x80
  let high := if first = 0xED then 0x9F else if first = 0xF4 then 0x8F else 0xBF
  low ≤ second.toNat && second.toNat ≤ high

/-- The six bits that a continuation byte carries. -/
def payload (b : UInt8) : Nat :=
  b.toNat % 0x40

/-- Reads the character that begins with `b` and continues in `rest`. -/
def lead (b : UInt8) (rest : Bytes) : Lead :=
  let n := b.toNat
  if n < 0x80 then
    .char (Char.ofNat n) 0
  else if n < 0xC2 then
    .bad 1
  else if n < 0xE0 then
    match rest with
    | [] => .cut
    | c :: _ =>
      if !isContinuation c then .bad 1 else .char (Char.ofNat (n % 0x20 * 0x40 + payload c)) 1
  else if n < 0xF0 then
    match rest with
    | [] => .cut
    | [c] => if isSecond b c then .cut else .bad 1
    | c :: d :: _ =>
      if !isSecond b c then .bad 1
      else if !isContinuation d then .bad 2
      else .char (Char.ofNat (n % 0x10 * 0x1000 + payload c * 0x40 + payload d)) 2
  else if n < 0xF5 then
    match rest with
    | [] => .cut
    | [c] => if isSecond b c then .cut else .bad 1
    | [c, d] => if !isSecond b c then .bad 1 else if isContinuation d then .cut else .bad 2
    | c :: d :: e :: _ =>
      if !isSecond b c then .bad 1
      else if !isContinuation d then .bad 2
      else if !isContinuation e then .bad 3
      else .char
        (Char.ofNat (n % 0x08 * 0x40000 + payload c * 0x1000 + payload d * 0x40 + payload e)) 3
  else
    .bad 1

/-- Reads characters from `offset` on, after passing over `skip` bytes already read. -/
def decodeFrom (offset skip : Nat) : Bytes → Except Fault (List Char)
  | [] => .ok []
  | b :: rest =>
    match skip with
    | skip + 1 => decodeFrom (offset + 1) skip rest
    | 0 =>
      match lead b rest with
      | .char c extra => (decodeFrom (offset + 1) extra rest).map (c :: ·)
      | .bad length => .error (.invalid length offset)
      | .cut => .error (.incomplete offset)

/-- The text that the bytes encode. -/
def decode (bs : Bytes) : Except Fault String :=
  (decodeFrom 0 0 bs).map String.ofList

end Utf8

end Courier
