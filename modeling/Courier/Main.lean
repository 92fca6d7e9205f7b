import Courier.App
import Courier.Service
import Courier.Settings.Document
import Courier.Settings.Flags

/-!
# The program

The application on the standard streams: what comes in is one connection, and what goes out is the
answer to it. Nothing is written for a connection that cannot be served; the reason is reported
apart.

`--config NAME` before all flags names a document of settings.
-/

namespace Courier.Program

/-- What the program can be told. -/
def usage : String :=
  "courier [--config NAME] [--address TEXT] [--max-body-bytes NUMBER] [--max-head-bytes NUMBER] " ++
    "[--max-headers NUMBER] [--timeout-secs NUMBER] [--log-level LEVEL]"

/-- Takes the name of a document off a command line. -/
def splitName : List String → Option String × List String
  | "--config" :: name :: rest => (some name, rest)
  | words => (none, words)

/-- The sentence that tells what is wrong with a command line. -/
def complaint : Settings.Flag.Fault → String
  | .unknownWord => "a word that is no flag"
  | .badValue => "a value that is no number of its range"
  | .missingValue => "a flag without its value"
  | .repeated => "a flag that is given twice"
  | .needlessValue => "a value for a flag that has none"
  | .help => usage

/-- The sentence that tells what is wrong with settings. -/
def objection (error : Settings.Error) : String :=
  error.message?.getD "the settings cannot be read"

/-- The settings of a document, if one is named, with what the flags give, if they make sense. -/
def settings (document : Option (Option Bytes)) (given : Settings.Overrides) :
    Except Settings.Error Settings := do
  let found ← match document with
    | none => .ok {}
    | some document => Settings.load document
  let settings := found.merge given
  settings.validate
  return settings

/-- The answer to the bytes of one connection, from an application whose store is empty. -/
def exchange (settings : Settings) (bytes : Bytes) : Except String Bytes :=
  let session : Service.Session Store :=
    { clock := {}
      connection := .start (.ofBytes bytes) {} settings.limits 0
      state := .empty }
  match Service.serve App.router settings.maxBodyBytes.toNat session with
  | (.ok _, session) => .ok session.connection.sender.outlet.sink.received
  | (.error error, _) => .error error.message
  | (.expired, _) | (.stalled, _) => .error "the connection does not come to an end"

/-- Reads a document, if it can be read. -/
def readDocument (name : String) : IO (Option Bytes) :=
  try
    let bytes ← IO.FS.readBinFile name
    return some bytes.toList
  catch _ =>
    return none

/-- Serves the connection on the standard streams. -/
def serve (settings : Settings) : IO UInt32 := do
  let request ← (← IO.getStdin).readBinToEnd
  match exchange settings request.toList with
  | .ok answer =>
    let out ← IO.getStdout
    out.write answer.toByteArray
    out.flush
    return 0
  | .error reason =>
    IO.eprintln reason
    return 1

end Courier.Program

open Courier in
/-- Serves one connection under the settings of the command line. -/
def main (words : List String) : IO UInt32 := do
  let (name, words) := Program.splitName words
  match Settings.Overrides.ofWords words with
  | .error .help =>
    IO.println Program.usage
    return 0
  | .error fault =>
    IO.eprintln (Program.complaint fault)
    return 2
  | .ok given =>
    match Program.settings (← name.mapM Program.readDocument) given with
    | .error error =>
      IO.eprintln (Program.objection error)
      return 1
    | .ok settings => Program.serve settings
