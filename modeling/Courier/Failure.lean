import Courier.DeclaredLength

/-!
# Failures

Everything that can go wrong between two peers, with the sentence that reports it and the class that
tells what to do about it: after a framing, length or time failure the place in the stream is lost
and the connection has to close; a failure of validation leaves it usable.
-/

namespace Courier

/-- What a failure means for the connection. -/
inductive FailureClass where
  /-- The bytes do not make a head. -/
  | framing
  /-- The body is shorter than declared. -/
  | bodyLength
  /-- The message is well framed and of no use. -/
  | validation
  /-- The deadline passed. -/
  | timeout
  /-- A body was asked for twice. -/
  | reuse
  /-- The stream itself failed. -/
  | io
deriving Repr, DecidableEq

/-! ## Bodies -/

/-- Why a body could not be read or copied. -/
inductive BodyError where
  | incomplete (expected actual : Nat)
  | alreadyConsumed
  | timeout
  | io (reason : String)
deriving Repr, DecidableEq

/-- The sentence that reports the failure. -/
def BodyError.message : BodyError → String
  | .incomplete expected actual =>
    "incomplete body, expected " ++ toString expected ++ " bytes but got " ++ toString actual
  | .alreadyConsumed => "body has already been consumed"
  | .timeout => "deadline elapsed while transferring the body"
  | .io reason => "io error: " ++ reason

/-- What the failure means for the connection. -/
def BodyError.toClass : BodyError → FailureClass
  | .incomplete .. => .bodyLength
  | .alreadyConsumed => .reuse
  | .timeout => .timeout
  | .io _ => .io

/-! ## Receiving -/

/-- Why the bytes up to a line feed are no line. -/
inductive Line.Fault where
  /-- A carriage return stands elsewhere than right before the line feed. -/
  | strayReturn
  /-- The bytes are no text. -/
  | notText (fault : Utf8.Fault)
deriving Repr, DecidableEq

/-- The sentence that reports a fault. -/
def Line.Fault.message : Line.Fault → String
  | .strayReturn => "bare carriage return"
  | .notText fault => fault.message

/-- Why no message could be received. -/
inductive ReceiveError where
  /-- The head has `size` bytes or more. -/
  | headTooLarge (size limit : Nat)
  | tooManyHeaders (limit : Nat)
  | invalidLine (fault : Line.Fault)
  | malformedHeader (line : String)
  | invalidLength (fault : DeclaredLength.Fault)
  /-- The stream ended inside a head. -/
  | incompleteHead (received : Nat)
  | body (error : BodyError)
  | timeout
  | io (reason : String)
deriving Repr, DecidableEq

/-- The sentence that reports the failure. -/
def ReceiveError.message : ReceiveError → String
  | .headTooLarge size limit =>
    "head size too large, current: " ++ toString size ++ " exceed the limit " ++ toString limit
  | .tooManyHeaders limit => "header number exceed the limit " ++ toString limit
  | .invalidLine fault => "invalid line: " ++ fault.message
  | .malformedHeader line => "malformed header line: " ++ Text.quote line
  | .invalidLength fault => "invalid content-length header: " ++ fault.message
  | .incompleteHead received =>
    "stream ended after " ++ toString received ++ " bytes before the head was complete"
  | .body error => "body error: " ++ error.message
  | .timeout => "deadline elapsed while reading the head"
  | .io reason => "io error: " ++ reason

/-- What the failure means for the connection. -/
def ReceiveError.toClass : ReceiveError → FailureClass
  | .headTooLarge .. | .tooManyHeaders _ | .invalidLine _ | .malformedHeader _ | .invalidLength _
  | .incompleteHead _ => .framing
  | .body error => error.toClass
  | .timeout => .timeout
  | .io _ => .io

/-- What a decoder's answer means when no bytes will follow: those it leaves belong to nothing. -/
def atEnd {α : Type} (answer : Except ReceiveError (Option α)) (left : Bytes) :
    Except ReceiveError (Option α) :=
  match answer with
  | .ok none => if left.isEmpty then .ok none else .error (.io "bytes remaining on stream")
  | answer => answer

/-! ## Sending -/

/-- Why a message could not be sent. -/
inductive SendError where
  /-- The head declares another length than the body has. -/
  | lengthMismatch (declared : Option Nat) (actual : Nat)
  | body (error : BodyError)
  | timeout
  | io (reason : String)
deriving Repr, DecidableEq

/-- The sentence that reports the failure. -/
def SendError.message : SendError → String
  | .lengthMismatch declared actual =>
    let declared := match declared with
      | some n => "Some(" ++ toString n ++ ")"
      | none => "None"
    "head declares content-length " ++ declared ++ " but the body holds " ++ toString actual ++
      " bytes"
  | .body error => "body error: " ++ error.message
  | .timeout => "deadline elapsed while writing the message"
  | .io reason => "io error: " ++ reason

/-- What the failure means for the connection. -/
def SendError.toClass : SendError → FailureClass
  | .lengthMismatch .. => .validation
  | .body error => error.toClass
  | .timeout => .timeout
  | .io _ => .io

/-! ## Validation and building -/

/-- Why a well framed message is of no use. -/
inductive ValidationError where
  | malformedRequestLine (line : String)
  | malformedStatusLine (line : String)
  | missingHeader (name : String)
  | missingLength
  | missingContentType
  | invalidContentType (value reason : String)
deriving Repr, DecidableEq

/-- The sentence that reports the failure. -/
def ValidationError.message : ValidationError → String
  | .malformedRequestLine line => "malformed request line: " ++ Text.quote line
  | .malformedStatusLine line => "malformed status line: " ++ Text.quote line
  | .missingHeader name => "missing header: " ++ name
  | .missingLength => "missing content-length header"
  | .missingContentType => "missing content-type header"
  | .invalidContentType value reason =>
    "invalid content-type " ++ Text.quote value ++ ": " ++ reason

/-- Why a message cannot be built. -/
inductive BuildError where
  | invalidStatusLine (line : String)
  | lengthOutOfRange (length : Nat)
  | header (error : Headers.Error)
deriving Repr, DecidableEq

/-- The sentence that reports the failure. -/
def BuildError.message : BuildError → String
  | .invalidStatusLine line => "invalid status line: " ++ Text.quote line
  | .lengthOutOfRange length =>
    "body length " ++ toString length ++ " exceeds the signed 64-bit content-length range"
  | .header error => "invalid header: " ++ error.message

end Courier
