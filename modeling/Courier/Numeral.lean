/-!
# Numerals

Decimal integers in text, for words of a given range. The digits are read from left to right, so a
numeral that is both too large and badly written fails with what comes first.
-/

namespace Courier.Numeral

/-- Why a text is no integer of the wanted range. -/
inductive Fault where
  | empty
  | invalidDigit
  | tooLarge
  | tooSmall
deriving Repr, DecidableEq

/-- The sentence that reports a fault. -/
def Fault.message : Fault → String
  | .empty => "cannot parse integer from empty string"
  | .invalidDigit => "invalid digit found in string"
  | .tooLarge => "number too large to fit in target type"
  | .tooSmall => "number too small to fit in target type"

/-- The largest unsigned 64-bit word. -/
def maxUnsigned : Nat := 18446744073709551615

/-- The largest signed 64-bit word. -/
def maxSigned : Nat := 9223372036854775807

/-- The value of a decimal digit. -/
def digit? (c : Char) : Option Nat :=
  if c.isDigit then some (c.toNat - '0'.toNat) else none

/-- Reads digits behind a number already read, refusing to pass `limit`. -/
def digits (limit : Nat) (beyond : Fault) (value : Nat) : List Char → Except Fault Nat
  | [] => .ok value
  | c :: rest =>
    match digit? c with
    | none => .error .invalidDigit
    | some d =>
      if limit < value * 10 + d then .error beyond else digits limit beyond (value * 10 + d) rest

/-- Digits, of which there has to be one. -/
def digits1 (limit : Nat) (beyond : Fault) : List Char → Except Fault Nat
  | [] => .error .invalidDigit
  | cs => digits limit beyond 0 cs

/-- An unsigned integer up to `limit`, with an optional plus sign. -/
def unsigned (limit : Nat) (s : String) : Except Fault Nat :=
  match s.toList with
  | [] => .error .empty
  | '+' :: cs => digits1 limit .tooLarge cs
  | cs => digits1 limit .tooLarge cs

/-- An unsigned 64-bit integer. -/
def unsigned64 (s : String) : Except Fault Nat :=
  unsigned maxUnsigned s

/-- A signed 64-bit integer, with an optional sign. -/
def signed64 (s : String) : Except Fault Int64 :=
  match s.toList with
  | [] => .error .empty
  | '+' :: cs => (digits1 maxSigned .tooLarge cs).map Int64.ofNat
  | '-' :: cs => (digits1 (maxSigned + 1) .tooSmall cs).map fun n => Int64.ofInt (-n)
  | cs => (digits1 maxSigned .tooLarge cs).map Int64.ofNat

/-- The value of a text of digits only, however long. -/
def ofDigits? (s : String) : Option Nat :=
  if !s.toList.isEmpty && s.toList.all Char.isDigit then
    some (s.toList.foldl (fun n c => n * 10 + (c.toNat - '0'.toNat)) 0)
  else
    none

/-- An integer as text: a minus sign if it is negative, then its digits. -/
def ofInt (n : Int) : String :=
  match n with
  | .ofNat n => toString n
  | .negSucc n => "-" ++ toString (n + 1)

end Courier.Numeral
