import Courier.Headers.Basic
import Courier.Numeral

/-!
# Declared length

What the headers say about the length of the body. Three answers are possible: the header is not
there, it gives a length, or it gives none that could be trusted. A length is a number in digits
alone that a signed 64-bit word holds, and repeated headers have to agree.
-/

namespace Courier.DeclaredLength

/-- The header that declares the length. -/
def header : String := "Content-Length"

/-- Why the headers give no length. -/
inductive Fault where
  | notDecimal (value : String)
  | outOfRange (value : String)
  | conflict (first second : Nat)
deriving Repr, DecidableEq

/-- The sentence that reports a fault. -/
def Fault.message : Fault → String
  | .notDecimal value => "value " ++ Text.quote value ++ " is not a decimal integer"
  | .outOfRange value => "value " ++ value ++ " is out of range"
  | .conflict first second =>
    "conflicting values " ++ toString first ++ " and " ++ toString second

/-- The length that one value gives. -/
def ofValue (value : String) : Except Fault Nat :=
  match Numeral.ofDigits? value with
  | none => .error (.notDecimal value)
  | some n => if Numeral.maxSigned < n then .error (.outOfRange value) else .ok n

/-- The length that the values give, after one that gave `length`. -/
def ofValues (length : Option Nat) : List String → Except Fault (Option Nat)
  | [] => .ok length
  | value :: rest => do
    let n ← ofValue value
    match length with
    | some first => if first ≠ n then .error (.conflict first n) else ofValues length rest
    | none => ofValues (some n) rest

/-- The length that the headers give. -/
def ofHeaders (headers : Headers) : Except Fault (Option Nat) :=
  ofValues none (headers.getAll header)

end Courier.DeclaredLength
