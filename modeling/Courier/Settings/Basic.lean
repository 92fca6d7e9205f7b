import Courier.Head.Progress
import Courier.Numeral
import Courier.Text.Basic
import Courier.Text.Quoted

/-!
# Settings

What a server is told before it starts. Every setting has a default; a document sets some of them,
and flags take precedence over the document.
-/

namespace Courier

/-- How much is logged. -/
inductive LogLevel where
  | error
  | warn
  | info
  | debug
  | trace
deriving Repr, DecidableEq

namespace LogLevel

/-- The levels, from the one that logs least. -/
def all : List LogLevel := [error, warn, info, debug, trace]

/-- The name of a level. -/
def render : LogLevel → String
  | error => "ERROR"
  | warn => "WARN"
  | info => "INFO"
  | debug => "DEBUG"
  | trace => "TRACE"

/-- Reads a level by its name, in any case, or by its number, counted from one. -/
def parse? (s : String) : Option LogLevel :=
  match all.find? fun level => Text.sameFold level.render s with
  | some level => some level
  | none =>
    match Numeral.unsigned64 s with
    | .ok (n + 1) => all[n]?
    | _ => none

end LogLevel

/-- The settings of a server. -/
structure Settings where
  address : String := "127.0.0.1:8080"
  /-- The longest body of a request that is read. -/
  maxBodyBytes : UInt64 := 1048576
  maxHeadBytes : UInt64 := ({} : Limits).maxHeadBytes
  maxHeaders : UInt64 := ({} : Limits).maxHeaders
  /-- How long a connection may last, in seconds; as long as it takes if zero. -/
  timeoutSecs : UInt64 := 300
  logLevel : String := "info"
deriving Repr, DecidableEq

namespace Settings

/-- Why there are no settings. -/
inductive Error where
  /-- The document cannot be read as text. -/
  | unreadable
  /-- The document is not in the form of settings. -/
  | malformed
  /-- A setting makes no sense. -/
  | invalid (reason : String)
deriving Repr, DecidableEq

/-- The settings that are given, of all that there are. -/
structure Overrides where
  address : Option String := none
  maxBodyBytes : Option UInt64 := none
  maxHeadBytes : Option UInt64 := none
  maxHeaders : Option UInt64 := none
  timeoutSecs : Option UInt64 := none
  logLevel : Option String := none
deriving Repr, DecidableEq

/-- The settings with those that are given in place of their own. -/
def merge (s : Settings) (o : Overrides) : Settings :=
  { address := o.address.getD s.address
    maxBodyBytes := o.maxBodyBytes.getD s.maxBodyBytes
    maxHeadBytes := o.maxHeadBytes.getD s.maxHeadBytes
    maxHeaders := o.maxHeaders.getD s.maxHeaders
    timeoutSecs := o.timeoutSecs.getD s.timeoutSecs
    logLevel := o.logLevel.getD s.logLevel }

/-- The level that the settings name. -/
def level (s : Settings) : Except Error LogLevel :=
  match LogLevel.parse? s.logLevel with
  | some level => .ok level
  | none =>
    .error (.invalid ("log_level " ++ Text.quote s.logLevel ++
      ": error parsing level: expected one of \"error\", \"warn\", \"info\", \"debug\", " ++
      "\"trace\", or a number 1-5"))

/-- The least head size that may be set: two empty lines, each ended by two bytes. -/
def leastHeadBytes : UInt64 := 4

/-- Checks that the settings make sense, in the order in which they are listed. -/
def validate (s : Settings) : Except Error Unit :=
  if (Text.trim s.address).isEmpty then .error (.invalid "address must not be empty")
  else if s.maxHeadBytes < leastHeadBytes then
    .error (.invalid ("max_head_bytes " ++ toString s.maxHeadBytes ++ " is too small"))
  else if s.maxHeaders = 0 then .error (.invalid "max_headers must be at least 1")
  else s.level.map fun _ => ()

/-- How long a connection may last, in seconds. -/
def timeout (s : Settings) : Option Nat :=
  if s.timeoutSecs = 0 then none else some s.timeoutSecs.toNat

/-- The limits of one connection. -/
def limits (s : Settings) : Limits :=
  { maxHeadBytes := s.maxHeadBytes
    maxHeaders := s.maxHeaders
    timeout := s.timeout.map (· * 1000) }

/-- The sentence that reports a setting that makes no sense. -/
def Error.message? : Error → Option String
  | .invalid reason => some ("invalid config: " ++ reason)
  | .unreadable | .malformed => none

end Settings

end Courier
