import Courier.Failure
import Courier.MediaType
import Courier.StartLine

/-!
# Heads

The head of a message: its first line as it came, its headers, the length that they declare, and the
number of bytes that the head takes. No declared length is not the same as a declared length of
zero, though both mean that no body follows.

`Head.encode` is the written form: lines that end in a carriage return and a line feed, the headers
in the order of their names, and a blank line.
-/

namespace Courier

/-- The head of a message. -/
structure Head where
  statusLine : String
  headers : Headers
  contentLength : Option Nat
  /-- The bytes of the first line, the headers and the blank line. -/
  size : Nat
deriving Repr, DecidableEq

namespace Head

/-- The head with the length that its headers declare. -/
def make (statusLine : String) (headers : Headers) (size : Nat) : Except ReceiveError Head :=
  match DeclaredLength.ofHeaders headers with
  | .ok contentLength => .ok { statusLine, headers, contentLength, size }
  | .error fault => .error (.invalidLength fault)

/-- The number of bytes that follow the head. -/
def bodySize (head : Head) : Nat :=
  head.contentLength.getD 0

/-- The number of bytes of the whole message, as a 64-bit word. -/
def totalSize (head : Head) : Nat :=
  (head.size + head.bodySize) % (Numeral.maxUnsigned + 1)

/-- The header that names the type of the body. -/
def contentTypeHeader : String := "Content-Type"

/-- What the headers say about the type of the body. -/
def contentType? (head : Head) : Option String :=
  head.headers.get? contentTypeHeader

/-- The declared length, for those who need one. -/
def requireLength (head : Head) : Except ValidationError Nat :=
  match head.contentLength with
  | some n => .ok n
  | none => .error .missingLength

/-- The first value of a header, for those who need one. -/
def requireHeader (head : Head) (name : String) : Except ValidationError String :=
  match head.headers.get? name with
  | some value => .ok value
  | none => .error (.missingHeader name)

/-- The type of the body. -/
def mediaType (head : Head) : Except ValidationError MediaType :=
  match head.contentType? with
  | none => .error .missingContentType
  | some value =>
    match MediaType.parse value with
    | .ok mediaType => .ok mediaType
    | .error fault =>
      .error (.invalidContentType value ("mime parse error: " ++ fault.message))

/-- The first line, read as a request. -/
def requestLine (head : Head) : Except ValidationError RequestLine :=
  RequestLine.parse head.statusLine

/-- The first line, read as an answer. -/
def responseLine (head : Head) : Except ValidationError StatusLine :=
  StatusLine.parse head.statusLine

/-- The written form. -/
def encode (head : Head) : Bytes :=
  Utf8.encode head.statusLine ++ Bytes.crlf ++ head.headers.encode ++ Bytes.crlf

end Head

end Courier
