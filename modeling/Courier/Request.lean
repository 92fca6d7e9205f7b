import Courier.Cookie
import Courier.Head.Basic

/-!
# Requests

A request as a handler sees it: what is asked for, the head it came with, and its body, read to the
end. The ways in which a handler can fail are here as well, with the status that each is answered
with.
-/

namespace Courier

/-- Why a handler has no response. -/
inductive HandlerError where
  | badRequest (reason : String)
  | validation (error : ValidationError)
  | cookie (error : Cookie.Error)
  | body (error : BodyError)
  | internal (reason : String)
deriving Repr, DecidableEq

namespace HandlerError

/-- The sentence that reports the failure. -/
def message : HandlerError → String
  | badRequest reason => "bad request: " ++ reason
  | validation error => "invalid request: " ++ error.message
  | cookie error => "invalid cookie: " ++ error.message
  | body error => "body error: " ++ error.message
  | internal reason => "internal error: " ++ reason

/-- What the request got wrong is its own fault; all else is the server's. -/
def status : HandlerError → Status
  | badRequest _ | validation _ | cookie _ => .badRequest
  | body _ | internal _ => .internalServerError

end HandlerError

/-- A request that was read to the end of its body. -/
structure Request where
  line : RequestLine
  head : Head
  body : Bytes
deriving Repr, DecidableEq

namespace Request

/-- The first value of a header. -/
def header? (r : Request) (name : String) : Option String :=
  r.head.headers.get? name

/-- The body as text. -/
def bodyText (r : Request) : Except HandlerError String :=
  match Utf8.decode r.body with
  | .ok text => .ok text
  | .error fault => .error (.badRequest ("body is not utf-8: " ++ fault.message))

/-- The header that carries cookies. -/
def cookieHeader : String := "Cookie"

/-- The cookies of all headers, in order. -/
def cookies (r : Request) : Except Cookie.Error (List Cookie) :=
  ((r.head.headers.getAll cookieHeader).mapM Cookie.parseHeader).map List.flatten

/-- The first cookie of a name. -/
def cookie? (r : Request) (name : String) : Except Cookie.Error (Option Cookie) :=
  r.cookies.map fun cookies => cookies.find? fun cookie => cookie.name == name

end Request

end Courier
