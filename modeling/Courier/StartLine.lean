import Courier.Failure
import Courier.Status

/-!
# Start lines

The first line of a message is kept as it came; here are its two readings. A request line has three
parts without spaces, `METHOD PATH PROTOCOL`. A status line is `PROTOCOL CODE PHRASE`, and the
phrase may hold spaces or be empty. Both are written with one space between their parts.
-/

namespace Courier

/-- The protocol of lines that name none. -/
def defaultProtocol : String := "HTTP/1.1"

/-! ## Request lines -/

/-- A method: any token, in its own case. -/
@[ext]
structure Method where
  name : String
  isToken : Text.isToken name = true := by decide
deriving Repr

namespace Method

instance : DecidableEq Method := fun a b => decidable_of_iff (a.name = b.name) Method.ext_iff.symm

def get : Method := { name := "GET" }
def post : Method := { name := "POST" }
def delete : Method := { name := "DELETE" }

instance : Inhabited Method := ⟨get⟩

/-- The method of a name. -/
def ofString? (s : String) : Option Method :=
  if h : Text.isToken s = true then some { name := s, isToken := h } else none

end Method

/-- What is asked for: a method on a path. -/
structure RequestLine where
  method : Method
  path : String
  protocol : String := defaultProtocol
deriving DecidableEq, Repr

namespace RequestLine

/-- The line as text. -/
def render (line : RequestLine) : String :=
  line.method.name ++ " " ++ line.path ++ " " ++ line.protocol

/-- Reads three nonempty parts between single spaces. -/
def parse (s : String) : Except ValidationError RequestLine :=
  match Text.split ' ' s with
  | [method, path, protocol] =>
    if path.isEmpty || protocol.isEmpty then .error (.malformedRequestLine s)
    else
      match Method.ofString? method with
      | some method => .ok { method, path, protocol }
      | none => .error (.malformedRequestLine s)
  | _ => .error (.malformedRequestLine s)

end RequestLine

/-! ## Status lines -/

/-- What is answered: a status with a phrase. -/
structure StatusLine where
  protocol : String
  status : Status
  phrase : String
deriving DecidableEq, Repr

namespace StatusLine

/-- The line of a status with its customary phrase, which is empty where there is none. -/
def ofStatus (status : Status) : StatusLine :=
  { protocol := defaultProtocol, status, phrase := status.phrase?.getD "" }

/-- The line as text. -/
def render (line : StatusLine) : String :=
  line.protocol ++ " " ++ line.status.render ++ " " ++ line.phrase

/-- Reads a nonempty protocol, a space, three digits, a space, and the phrase. -/
def parse (s : String) : Except ValidationError StatusLine :=
  match Text.splitOnce ' ' s with
  | none => .error (.malformedStatusLine s)
  | some (protocol, rest) =>
    match Text.splitOnce ' ' rest with
    | none => .error (.malformedStatusLine s)
    | some (code, phrase) =>
      if protocol.isEmpty then .error (.malformedStatusLine s)
      else
        match Status.ofString? code with
        | some status => .ok { protocol, status, phrase }
        | none => .error (.malformedStatusLine s)

end StatusLine

end Courier
