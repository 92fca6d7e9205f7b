import Courier.Text.Basic
import Courier.Text.Utf8.Basic

/-!
# Media types

A media type is `type/subtype`, followed by parameters `;name=value` whose values may stand between
double quotes. Case has no meaning in the type, in the names and in the value of `charset`, and
these are written in lower case; all else is kept as it came, spaces and quotes included.

The reader goes through the text once (`MediaType.scan`). Where it stands tells what it expects next
(`MediaType.Place`), and every refusal names a byte and its position.
-/

namespace Courier

/-- A media type, by its normal text. -/
structure MediaType where
  text : String
deriving Repr, DecidableEq

namespace MediaType

/-- Why a text is no media type. -/
inductive Fault where
  | missingSlash
  | missingEquals
  | missingQuote
  /-- The byte may not stand at its position. -/
  | invalid (byte : UInt8) (position : Nat)
deriving Repr, DecidableEq

/-- The hexadecimal digits of a byte, upper case and without a leading zero. -/
def hexByte (b : UInt8) : String :=
  String.ofList ((Nat.toDigits 16 b.toNat).map Char.toUpper)

/-- The sentence that reports a fault. -/
def Fault.message : Fault → String
  | .missingSlash => "a slash (/) was missing between the type and subtype"
  | .missingEquals => "an equals sign (=) was missing between a parameter and its value"
  | .missingQuote => "a quote (\") was missing from a parameter value"
  | .invalid byte position =>
    "an invalid token was encountered, " ++ hexByte byte ++ " at position " ++ toString position

/-- A part of the text, as far as it has been read. -/
inductive Place where
  /-- In the type; `first` tells whether it is still empty. -/
  | type (first : Bool)
  /-- In the subtype. -/
  | subtype (first : Bool)
  /-- Right behind a semicolon, or behind spaces that follow it. -/
  | gap
  /-- In the name of a parameter, with its characters so far in reverse. -/
  | name (read : List Char)
  /-- In a value; `folded` tells whether its case has no meaning. -/
  | value (folded first : Bool)
  /-- In a value between quotes. -/
  | quoted (folded first : Bool)
  /-- Behind a closing quote. -/
  | behindQuote
deriving Repr, DecidableEq

/-- What may stand between quotes: all but control characters. -/
def isQuotable (c : Char) : Bool :=
  31 < c.toNat && c.toNat != 127

/-- Whether the name, in reverse, is that of the parameter whose value is folded. -/
def isFolded (read : List Char) : Bool :=
  read.reverse.map Char.toLower == "charset".toList

/-- The place behind a character and what is written for it; none if it may not stand there. -/
def step (place : Place) (c : Char) : Option (Place × Char) :=
  match place with
  | .type first =>
    if Text.isTokenChar c then some (.type false, c.toLower)
    else if c = '/' ∧ !first then some (.subtype true, c) else none
  | .subtype first =>
    if Text.isTokenChar c then some (.subtype false, c.toLower)
    else if c = ';' ∧ !first then some (.gap, c) else none
  | .gap =>
    if c = ' ' then some (.gap, c)
    else if Text.isTokenChar c then some (.name [c], c.toLower) else none
  | .name read =>
    if Text.isTokenChar c then some (.name (c :: read), c.toLower)
    else if c = '=' then some (.value (isFolded read) true, c) else none
  | .value folded first =>
    if c = '"' ∧ first then some (.quoted folded true, c)
    else if Text.isTokenChar c then some (.value folded false, if folded then c.toLower else c)
    else if c = ';' ∧ !first then some (.gap, c) else none
  | .quoted folded first =>
    if c = '"' ∧ !first then some (.behindQuote, c)
    else if isQuotable c then some (.quoted folded false, if folded then c.toLower else c) else none
  | .behindQuote =>
    if c = ';' then some (.gap, c)
    else if c = ' ' then some (.behindQuote, c) else none

/-- Whether the text may end at a place, or what it lacks there. -/
def Place.finish : Place → Except Fault Unit
  | .type _ => .error .missingSlash
  | .name _ => .error .missingEquals
  | .quoted .. => .error .missingQuote
  | .subtype _ | .gap | .value .. | .behindQuote => .ok ()

/-- Reads the text from a place on, giving what is written for it. -/
def scan (place : Place) (position : Nat) : List Char → Except Fault (List Char)
  | [] => place.finish.map fun _ => []
  | c :: rest =>
    let bytes := Utf8.encodeChar c
    match step place c with
    | some (place, written) => (scan place (position + bytes.length) rest).map (written :: ·)
    | none => .error (.invalid (bytes.headD 0) position)

/-- A semicolon without a parameter behind it is not kept. -/
def dropLoneSemicolon (written : List Char) : List Char :=
  match Text.splitOnceChars ';' written with
  | some (essence, rest) => if rest.all (· == ' ') then essence else written
  | none => written

/-- Reads a media type. -/
def parse (s : String) : Except Fault MediaType :=
  (scan (.type true) 0 s.toList).map fun written => ⟨String.ofList (dropLoneSemicolon written)⟩

/-- Plain text in UTF-8. -/
def plainText : MediaType := ⟨"text/plain; charset=utf-8"⟩

/-- Bytes of which nothing is known. -/
def octets : MediaType := ⟨"application/octet-stream"⟩

end MediaType

end Courier
