import Courier.Failure

/-!
# Cookies

A cookie is a token with a value of cookie octets. A request carries several in one header, as
`name=value` pairs between semicolons; segments of blanks are passed over, and a value may stand
between double quotes, which do not belong to it.
-/

namespace Courier

namespace Cookie

/-- What values are made of: visible ASCII without the quote, comma, semicolon and backslash. -/
def isOctet (c : Char) : Bool :=
  let n := c.toNat
  0x21 ≤ n && n ≤ 0x7E && n != 0x22 && n != 0x2C && n != 0x3B && n != 0x5C

end Cookie

/-- A name with a value. -/
structure Cookie where
  name : String
  value : String
  isToken : Text.isToken name = true := by decide
  isOctets : value.toList.all Cookie.isOctet = true := by decide
deriving Repr, DecidableEq

namespace Cookie

/-- Why a text is no cookie. -/
inductive Error where
  | missingSeparator (pair : String)
  | invalidName (name : String)
  | invalidValue (name : String)
  | invalidAttribute (name reason : String)
deriving Repr, DecidableEq

/-- The sentence that reports the failure. -/
def Error.message : Error → String
  | .missingSeparator pair => "cookie pair " ++ Text.quote pair ++ " has no '='"
  | .invalidName name => "invalid cookie name " ++ Text.quote name
  | .invalidValue name => "invalid value for cookie " ++ name
  | .invalidAttribute name reason => "invalid cookie attribute " ++ name ++ ": " ++ reason

/-- A bad cookie leaves the connection usable. -/
def Error.toClass (_ : Error) : FailureClass := .validation

/-- The cookie of a name and a value. -/
def make (name value : String) : Except Error Cookie :=
  if hn : Text.isToken name = true then
    if hv : value.toList.all isOctet = true then
      .ok { name, value, isToken := hn, isOctets := hv }
    else .error (.invalidValue name)
  else .error (.invalidName name)

/-- The text without one pair of double quotes around it; a lone quote stays. -/
def unquote (s : String) : String :=
  match s.toList with
  | '"' :: inner => if inner.getLast? = some '"' then String.ofList inner.dropLast else s
  | _ => s

/-- Reads a pair: the parts before and behind the first equals sign, without padding. -/
def parse (pair : String) : Except Error Cookie :=
  match Text.splitOnce '=' pair with
  | none => .error (.missingSeparator pair)
  | some (name, value) => make (Text.trim name) (unquote (Text.trim value))

/-- The pair as text. -/
def render (cookie : Cookie) : String :=
  cookie.name ++ "=" ++ cookie.value

/-- The segments of a header between semicolons, without padding; empty ones are left out. -/
def segments (header : String) : List String :=
  ((Text.split ';' header).map Text.trim).filter fun segment => !segment.isEmpty

/-- Reads the cookies of a request header. -/
def parseHeader (header : String) : Except Error (List Cookie) :=
  (segments header).mapM parse

end Cookie

end Courier
