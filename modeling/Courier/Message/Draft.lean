import Courier.Message.Basic

/-!
# Drafts

A draft collects the head of a message that is to be sent: a first line and headers. It is finished
with a body of known length, which it declares, or without a body, and then it declares no length.
-/

namespace Courier

/-- A message that is to be sent, with the bytes of its body. -/
structure Outgoing where
  message : Message
  inlet : Inlet
deriving Repr, DecidableEq

/-- The beginning of a message. -/
structure Draft where
  statusLine : String
  headers : Headers := .empty
deriving Repr, DecidableEq

namespace Draft

/-- A draft without headers; its first line must be a line. -/
def start (statusLine : String) : Except BuildError Draft :=
  if Text.hasLineBreak statusLine then .error (.invalidStatusLine statusLine)
  else .ok { statusLine }

/-- The draft with one header more. -/
def header (draft : Draft) (name value : String) : Except BuildError Draft :=
  match draft.headers.add name value with
  | .ok headers => .ok { draft with headers }
  | .error error => .error (.header error)

/-- A draft with headers. -/
def ofPairs (statusLine : String) (pairs : List (String × String)) : Except BuildError Draft := do
  let draft ← start statusLine
  pairs.foldlM (fun draft (name, value) => draft.header name value) draft

/-- The head with a given length. -/
def toHead (draft : Draft) (contentLength : Option Nat) : Head :=
  { statusLine := draft.statusLine
    headers := draft.headers
    contentLength
    size := Utf8.size draft.statusLine + 2 + draft.headers.encodedSize + 2 }

/-- The message that declares `length` bytes. -/
def sized (draft : Draft) (length : Nat) : Except BuildError Message :=
  if Numeral.maxSigned < length then .error (.lengthOutOfRange length)
  else
    match draft.headers.set DeclaredLength.header (toString length) with
    | .ok headers =>
      .ok { head := { draft with headers }.toHead (some length), body := { length } }
    | .error error => .error (.header error)

/-- The message whose body is the next `length` bytes of a source. -/
def streaming (draft : Draft) (source : Source) (length : Nat) : Except BuildError Outgoing :=
  (draft.sized length).map fun message => { message, inlet := .direct source }

/-- The message with a body at hand. -/
def body (draft : Draft) (bytes : Bytes) : Except BuildError Outgoing :=
  draft.streaming (.ofBytes bytes) bytes.length

/-- The message without a body. -/
def empty (draft : Draft) : Outgoing :=
  let headers := draft.headers.remove DeclaredLength.header
  { message := { head := { draft with headers }.toHead none, body := { length := 0 } }
    inlet := .direct (.ofBytes []) }

end Draft

end Courier
