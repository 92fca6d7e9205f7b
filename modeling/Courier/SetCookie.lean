import Courier.Cookie

/-!
# Set-Cookie

A cookie with what a client is told to do about it, written `name=value; Attribute=value; Flag`. The
attributes are written in one fixed order. They are read in any order and case; of several with one
name the last counts, and those that mean nothing here are passed over.
-/

namespace Courier

/-- To which requests from other sites a cookie is sent along. -/
inductive SameSite where
  | strict
  | lax
  | none
deriving Repr, DecidableEq

namespace SameSite

/-- The value as text. -/
def render : SameSite → String
  | strict => "Strict"
  | lax => "Lax"
  | none => "None"

/-- Reads the value, in any case. -/
def parse (s : String) : Except Cookie.Error SameSite :=
  let folded := Text.lower s
  if folded = "strict" then .ok strict
  else if folded = "lax" then .ok lax
  else if folded = "none" then .ok none
  else .error (.invalidAttribute "SameSite" ("unknown value " ++ Text.quote s))

end SameSite

/-- A cookie with its attributes. -/
structure SetCookie where
  cookie : Cookie
  path : Option String := none
  domain : Option String := none
  /-- Seconds. -/
  maxAge : Option Int64 := none
  /-- A date, as text. -/
  expires : Option String := none
  secure : Bool := false
  httpOnly : Bool := false
  sameSite : Option SameSite := none
deriving Repr, DecidableEq

namespace SetCookie

/-- An attribute with a value, if there is one. -/
def renderValue (name : String) (value : Option String) : String :=
  match value with
  | some value => "; " ++ name ++ "=" ++ value
  | none => ""

/-- An attribute that is there or not. -/
def renderFlag (name : String) (flag : Bool) : String :=
  if flag then "; " ++ name else ""

/-- The cookie and its attributes as text. -/
def render (s : SetCookie) : String :=
  s.cookie.render ++
    renderValue "Path" s.path ++
    renderValue "Domain" s.domain ++
    renderValue "Max-Age" (s.maxAge.map fun seconds => Numeral.ofInt seconds.toInt) ++
    renderValue "Expires" s.expires ++
    renderFlag "Secure" s.secure ++
    renderFlag "HttpOnly" s.httpOnly ++
    renderValue "SameSite" (s.sameSite.map SameSite.render)

/-- Reads a number of seconds. -/
def parseMaxAge (value : String) : Except Cookie.Error Int64 :=
  match Numeral.signed64 value with
  | .ok seconds => .ok seconds
  | .error fault =>
    .error
      (.invalidAttribute "Max-Age" (Text.quote value ++ " is not an integer: " ++ fault.message))

/-- The cookie with one attribute more, given by its name in lower case and its value. -/
def withAttribute (s : SetCookie) (name : String) (value : Option String) :
    Except Cookie.Error SetCookie :=
  if name = "secure" then .ok { s with secure := true }
  else if name = "httponly" then .ok { s with httpOnly := true }
  else
    match value with
    | none => .ok s
    | some value =>
      if name = "path" then .ok { s with path := some value }
      else if name = "domain" then .ok { s with domain := some value }
      else if name = "expires" then .ok { s with expires := some value }
      else if name = "max-age" then
        (parseMaxAge value).map fun seconds => { s with maxAge := some seconds }
      else if name = "samesite" then
        (SameSite.parse value).map fun sameSite => { s with sameSite := some sameSite }
      else .ok s

/-- The cookie with one attribute more, given by its segment of the text. -/
def addSegment (s : SetCookie) (segment : String) : Except Cookie.Error SetCookie :=
  match Text.splitOnce '=' segment with
  | some (name, value) => s.withAttribute (Text.lower (Text.trim name)) (some (Text.trim value))
  | none => s.withAttribute (Text.lower segment) none

/-- Reads a cookie and its attributes. -/
def parse (s : String) : Except Cookie.Error SetCookie :=
  match (Text.split ';' s).map Text.trim with
  | [] => .error (.missingSeparator "")
  | pair :: attributes => do
    let cookie ← Cookie.parse pair
    (attributes.filter fun segment => !segment.isEmpty).foldlM addSegment { cookie }

end SetCookie

end Courier
