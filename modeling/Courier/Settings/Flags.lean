import Courier.Settings.Basic

/-!
# Flags

Settings that are given on the command line: `--name value` or `--name=value`, each once, and
nothing else. A value behind its flag is looked at when the next flag comes or the line ends; a word
that means nothing is reported before that.
-/

namespace Courier.Settings

/-- The flags that set something. -/
inductive Flag where
  | address
  | maxBodyBytes
  | maxHeadBytes
  | maxHeaders
  | timeoutSecs
  | logLevel
deriving Repr, DecidableEq

namespace Flag

/-- Why a command line gives no settings. -/
inductive Fault where
  /-- A word that is no flag and no value of one. -/
  | unknownWord
  /-- A value that is no number of the range. -/
  | badValue
  | missingValue
  /-- A flag that is given twice. -/
  | repeated
  /-- A value for a flag that has none. -/
  | needlessValue
  /-- What is asked for is help. -/
  | help
deriving Repr, DecidableEq

/-- The flag of a name. -/
def ofName? : String → Option Flag
  | "address" => some address
  | "max-body-bytes" => some maxBodyBytes
  | "max-head-bytes" => some maxHeadBytes
  | "max-headers" => some maxHeaders
  | "timeout-secs" => some timeoutSecs
  | "log-level" => some logLevel
  | _ => none

/-- Whether a flag is given already. -/
def isGiven (o : Overrides) : Flag → Bool
  | address => o.address.isSome
  | maxBodyBytes => o.maxBodyBytes.isSome
  | maxHeadBytes => o.maxHeadBytes.isSome
  | maxHeaders => o.maxHeaders.isSome
  | timeoutSecs => o.timeoutSecs.isSome
  | logLevel => o.logLevel.isSome

/-- Reads a value that is a number. -/
def word (value : String) : Except Fault UInt64 :=
  match Numeral.unsigned64 value with
  | .ok n => .ok (.ofNat n)
  | .error _ => .error .badValue

/-- What is given with one flag more. -/
def set (flag : Flag) (o : Overrides) (value : String) : Except Fault Overrides :=
  if flag.isGiven o then .error .repeated
  else
    match flag with
    | address => .ok { o with address := some value }
    | logLevel => .ok { o with logLevel := some value }
    | maxBodyBytes => (word value).map fun n => { o with maxBodyBytes := some n }
    | maxHeadBytes => (word value).map fun n => { o with maxHeadBytes := some n }
    | maxHeaders => (word value).map fun n => { o with maxHeaders := some n }
    | timeoutSecs => (word value).map fun n => { o with timeoutSecs := some n }

/-- A flag that was read, with the value behind it if that was read as well. -/
abbrev Pending := Option (Flag × Option String)

/-- What is given with the flag that was read last. -/
def settle (waiting : Pending) (o : Overrides) : Except Fault Overrides :=
  match waiting with
  | none => .ok o
  | some (_, none) => .error .missingValue
  | some (flag, some value) => flag.set o value

/-- A word of a command line. -/
inductive Word where
  /-- Two hyphens: no flags follow. -/
  | stop
  | help
  /-- Help with a value. -/
  | helpValue
  | setting (flag : Flag) (value : Option String)
  /-- A value, if a flag waits for one. -/
  | plain (text : String)
  | unknown
deriving Repr, DecidableEq

/-- What a word is. -/
def Word.ofString (s : String) : Word :=
  match s.toList with
  | ['-', '-'] => .stop
  | '-' :: '-' :: rest =>
    let (name, value) :=
      match Text.splitOnce '=' (String.ofList rest) with
      | some (name, value) => (name, some value)
      | none => (String.ofList rest, none)
    if name = "help" then if value.isSome then .helpValue else .help
    else
      match ofName? name with
      | some flag => .setting flag value
      | none => .unknown
  | '-' :: c :: _ => if c = 'h' then .help else .unknown
  | _ => .plain s

/-- Reads the words of a command line after what was given so far. -/
def parseWords (o : Overrides) (pending : Pending) : List String → Except Fault Overrides
  | [] => settle pending o
  | s :: rest =>
    match Word.ofString s with
    | .stop => if rest.isEmpty then settle pending o else .error .unknownWord
    | .help => settle pending o >>= fun _ => .error .help
    | .helpValue => .error .needlessValue
    | .setting flag none => settle pending o >>= fun o => parseWords o (some (flag, none)) rest
    | .setting flag (some value) => do
      let o ← settle pending o
      let o ← flag.set o value
      parseWords o none rest
    | .plain text =>
      match pending with
      | some (flag, none) => parseWords o (some (flag, some text)) rest
      | _ => .error .unknownWord
    | .unknown => .error .unknownWord

end Flag

/-- Reads a command line. -/
def Overrides.ofWords (words : List String) : Except Flag.Fault Overrides :=
  Flag.parseWords {} none words

end Courier.Settings
