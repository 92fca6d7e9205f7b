import Courier.Message.Draft
import Courier.SetCookie

/-!
# Responses

What a handler answers: a status, headers and a body. The headers are looked at only when the
response becomes a message; until then they can be put together without a check.
-/

namespace Courier

/-- An answer to a request. -/
structure Response where
  status : Status
  headers : List (String × String) := []
  body : Bytes
deriving Repr, DecidableEq

namespace Response

/-- The response with one header more. -/
def withHeader (r : Response) (name value : String) : Response :=
  { r with headers := r.headers ++ [(name, value)] }

/-- The response that sets one cookie more. -/
def withCookie (r : Response) (cookie : SetCookie) : Response :=
  r.withHeader "Set-Cookie" cookie.render

/-- A plain text. -/
def text (status : Status) (body : Bytes) : Response :=
  { status, headers := [(Head.contentTypeHeader, MediaType.plainText.text)], body }

/-- A plain text with which all is well. -/
def ok (body : Bytes) : Response :=
  text .ok body

/-- The customary phrase of a status as its text. -/
def ofStatus (status : Status) : Response :=
  text status (Utf8.encode (status.phrase?.getD "Unknown" ++ "\n"))

/-- The first value of a header, in any case of its name. -/
def header? (r : Response) (name : String) : Option String :=
  (r.headers.find? fun header => Text.sameFold header.1 name).map (·.2)

/-- The message that carries the response. -/
def toOutgoing (r : Response) : Except BuildError Outgoing := do
  let draft ← Draft.ofPairs (StatusLine.ofStatus r.status).render r.headers
  draft.body r.body

end Response

end Courier
