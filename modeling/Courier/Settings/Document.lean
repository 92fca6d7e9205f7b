import Courier.Settings.Basic
import Courier.Text.Utf8.Basic

/-!
# Documents of settings

Settings are written in TOML, as lines `name = value`, in the part of that language that they need:
six names, texts and integers. A text stands between single quotes, as it is, or between double
quotes, with escapes; three quotes in place of one let it go over several lines. Whatever else a
line may be, it sets nothing that there is, so it is refused like a line that is no line at all.

The readers here take what they read off a list of characters and give the rest; none of them looks
behind the end of what it reads.
-/

namespace Courier.Settings.Document

/-- What can be set to a name. -/
inductive Value where
  | text (text : String)
  | number (number : Int)
deriving Repr, DecidableEq

/-! ## Blanks, comments and line ends -/

/-- The blanks within a line. -/
def isLineBlank (c : Char) : Bool :=
  c == ' ' || c == '\t'

/-- The characters that may stand in a comment or a text on one line. -/
def isPlain (c : Char) : Bool :=
  c == '\t' || (0x20 ≤ c.toNat && c.toNat != 0x7F)

/-- Drops the blanks of a line. -/
def skipBlanks (cs : List Char) : List Char :=
  cs.dropWhile isLineBlank

/-- Takes a line end off. -/
def lineEnd? : List Char → Option (List Char)
  | '\n' :: rest => some rest
  | '\r' :: '\n' :: rest => some rest
  | _ => none

/-- Takes off what may stand behind a value: blanks, a comment, and the end of the line. -/
def finishLine? (cs : List Char) : Option (List Char) :=
  let rest :=
    match skipBlanks cs with
    | '#' :: rest => rest.dropWhile isPlain
    | rest => rest
  if rest.isEmpty then some [] else lineEnd? rest

/-! ## Texts -/

/-- The value of a hexadecimal digit. -/
def hexDigit? (c : Char) : Option Nat :=
  if c.isDigit then some (c.toNat - 48)
  else if 'a' ≤ c ∧ c ≤ 'f' then some (c.toNat - 87)
  else if 'A' ≤ c ∧ c ≤ 'F' then some (c.toNat - 55)
  else none

/-- The character of a hexadecimal number of so many digits. -/
def charOfHex? (count : Nat) (cs : List Char) : Option Char := do
  let digits ← (cs.take count).mapM hexDigit?
  let n := digits.foldl (fun n d => n * 16 + d) 0
  if digits.length = count ∧ n.isValidChar then some (Char.ofNat n) else none

/-- The character that an escape stands for, and the number of characters behind the backslash that
it takes. -/
def escape? : List Char → Option (Char × Nat)
  | 'b' :: _ => some ('\x08', 1)
  | 't' :: _ => some ('\t', 1)
  | 'n' :: _ => some ('\n', 1)
  | 'f' :: _ => some ('\x0c', 1)
  | 'r' :: _ => some ('\r', 1)
  | '"' :: _ => some ('"', 1)
  | '\\' :: _ => some ('\\', 1)
  | 'u' :: rest => (charOfHex? 4 rest).map (·, 5)
  | 'U' :: rest => (charOfHex? 8 rest).map (·, 9)
  | _ => none

/-- Puts a character before a text that was read. -/
def before (c : Char) (read : Option (List Char × List Char)) : Option (List Char × List Char) :=
  read.map fun (text, rest) => (c :: text, rest)

/-- Reads a text with escapes to its double quote, after passing over `skip` characters. -/
def escaped? (skip : Nat) : List Char → Option (List Char × List Char)
  | [] => none
  | c :: rest =>
    match skip with
    | skip + 1 => escaped? skip rest
    | 0 =>
      if c = '"' then some ([], rest)
      else if c = '\\' then
        match escape? rest with
        | some (e, count) => before e (escaped? count rest)
        | none => none
      else if isPlain c then before c (escaped? 0 rest)
      else none

/-- Reads a text as it is to its single quote. -/
def literal? : List Char → Option (List Char × List Char)
  | [] => none
  | c :: rest =>
    if c = '\'' then some ([], rest) else if isPlain c then before c (literal? rest) else none

/-- Drops blanks and line ends. -/
def skipLines : List Char → List Char
  | '\r' :: '\n' :: rest => skipLines rest
  | c :: rest => if isLineBlank c || c == '\n' then skipLines rest else c :: rest
  | [] => []

/-- The length of a broken line: the blanks behind a backslash, a line end, and all blanks and line
ends that follow. -/
def brokenLine? (cs : List Char) : Option Nat :=
  (lineEnd? (skipBlanks cs)).map fun rest => cs.length - (skipLines rest).length

/-- What three quotes come to: up to two more before them belong to the text. -/
def closeThree? (quote : Char) : List Char → Option (List Char × List Char)
  | a :: b :: rest =>
    if a = quote ∧ b = quote then
      let more := (rest.take 2).takeWhile (· == quote)
      some (more, rest.drop more.length)
    else none
  | _ => none

/-- Reads a text over several lines to its three quotes, after passing over `skip` characters. A
line end is a line feed in the text. -/
def lines? (quote : Char) (skip : Nat) : List Char → Option (List Char × List Char)
  | [] => none
  | c :: rest =>
    match skip with
    | skip + 1 => lines? quote skip rest
    | 0 =>
      if c = quote then
        match closeThree? quote rest with
        | some closed => some closed
        | none => before c (lines? quote 0 rest)
      else if c = '\\' ∧ quote = '"' then
        match brokenLine? rest with
        | some count => lines? quote count rest
        | none =>
          match escape? rest with
          | some (e, count) => before e (lines? quote count rest)
          | none => none
      else if c = '\r' then
        if rest.head? = some '\n' then before '\n' (lines? quote 1 rest) else none
      else if c = '\n' ∨ isPlain c then before c (lines? quote 0 rest)
      else none

/-- The characters without a line end right at their start. -/
def dropLineEnd (cs : List Char) : List Char :=
  (lineEnd? cs).getD cs

/-- Reads a text between quotes of any kind. -/
def quoted? : List Char → Option (List Char × List Char)
  | '"' :: '"' :: '"' :: rest => lines? '"' 0 (dropLineEnd rest)
  | '\'' :: '\'' :: '\'' :: rest => lines? '\'' 0 (dropLineEnd rest)
  | '"' :: rest => escaped? 0 rest
  | '\'' :: rest => literal? rest
  | _ => none

/-! ## Integers -/

/-- The value of a digit below a base. -/
def digitOf? (base : Nat) (c : Char) : Option Nat :=
  (hexDigit? c).filter (· < base)

/-- Reads a number in a base; single underscores may stand between its digits. -/
def based? (base : Nat) (cs : List Char) : Option (Nat × List Char) :=
  let run := cs.takeWhile fun c => (digitOf? base c).isSome || c == '_'
  if (Text.splitChars '_' run).any List.isEmpty then none
  else some ((run.filterMap (digitOf? base)).foldl (fun n d => n * base + d) 0, cs.drop run.length)

/-- Reads a decimal number, which has no zero at its start. -/
def decimal? : List Char → Option (Nat × List Char)
  | '0' :: rest => some (0, rest)
  | cs => based? 10 cs

/-- Reads an integer: decimal with a sign or without, or in base 16, 8 or 2. -/
def integer? : List Char → Option (Int × List Char)
  | '0' :: 'x' :: rest => (based? 16 rest).map fun (n, rest) => (n, rest)
  | '0' :: 'o' :: rest => (based? 8 rest).map fun (n, rest) => (n, rest)
  | '0' :: 'b' :: rest => (based? 2 rest).map fun (n, rest) => (n, rest)
  | '+' :: rest => (decimal? rest).map fun (n, rest) => (n, rest)
  | '-' :: rest => (decimal? rest).map fun (n, rest) => (-(n : Int), rest)
  | cs => (decimal? cs).map fun (n, rest) => (n, rest)

/-! ## Lines -/

/-- The characters of names without quotes. -/
def isBare (c : Char) : Bool :=
  c.isAlphanum || c == '_' || c == '-'

/-- Reads a name: bare, or a text on one line between quotes. -/
def name? (cs : List Char) : Option (String × List Char) :=
  let read :=
    match cs with
    | '"' :: rest => escaped? 0 rest
    | '\'' :: rest => literal? rest
    | _ => some (cs.takeWhile isBare, cs.dropWhile isBare)
  read.map fun (name, rest) => (String.ofList name, rest)

/-- Reads a value. -/
def value? (cs : List Char) : Option (Value × List Char) :=
  match quoted? cs with
  | some (text, rest) => some (.text (String.ofList text), rest)
  | none => (integer? cs).map fun (n, rest) => (.number n, rest)

/-- Reads a line that sets a value to a name. -/
def assignment? (cs : List Char) : Option (String × Value × List Char) := do
  let (name, rest) ← name? cs
  match skipBlanks rest with
  | '=' :: rest =>
    let (value, rest) ← value? (skipBlanks rest)
    let rest ← finishLine? rest
    return (name, value, rest)
  | _ => none

/-- Reads the names and values of a document. A line takes at least one character. -/
def assignments? (cs : List Char) : Option (List (String × Value)) :=
  match finishLine? cs with
  | some [] => some []
  | some rest => if rest.length < cs.length then assignments? rest else none
  | none =>
    match assignment? (skipBlanks cs) with
    | some (name, value, rest) =>
      if rest.length < cs.length then (assignments? rest).map ((name, value) :: ·) else none
    | none => none
termination_by cs.length

/-! ## Settings -/

/-- The number that a value gives, if it is one of a signed 64-bit word and not negative. -/
def word? : Value → Option UInt64
  | .number (.ofNat n) => if n ≤ Numeral.maxSigned then some (.ofNat n) else none
  | _ => none

/-- The text that a value gives. -/
def text? : Value → Option String
  | .text text => some text
  | .number _ => none

/-- What is given with one value more. A value is given once, under its own name, and of its own
kind. -/
def set? (o : Overrides) (name : String) (value : Value) : Option Overrides :=
  let once {α : Type} (old : Option α) (new : Option α) (put : α → Overrides) : Option Overrides :=
    if old.isSome then none else new.map put
  match name with
  | "address" => once o.address (text? value) fun v => { o with address := some v }
  | "max_body_bytes" => once o.maxBodyBytes (word? value) fun v => { o with maxBodyBytes := some v }
  | "max_head_bytes" => once o.maxHeadBytes (word? value) fun v => { o with maxHeadBytes := some v }
  | "max_headers" => once o.maxHeaders (word? value) fun v => { o with maxHeaders := some v }
  | "timeout_secs" => once o.timeoutSecs (word? value) fun v => { o with timeoutSecs := some v }
  | "log_level" => once o.logLevel (text? value) fun v => { o with logLevel := some v }
  | _ => none

/-- The characters without a byte order mark before them. -/
def dropMark : List Char → List Char
  | c :: rest => if c.toNat = 0xFEFF then rest else c :: rest
  | [] => []

end Document

/-- Reads a document of settings. -/
def parse (document : String) : Except Error Settings :=
  let given := do
    let assignments ← Document.assignments? (Document.dropMark document.toList)
    assignments.foldlM (fun o (name, value) => Document.set? o name value) ({} : Overrides)
  match given with
  | some given => .ok (({} : Settings).merge given)
  | none => .error .malformed

/-- Reads a document as it was found, if it was. -/
def load (document : Option Bytes) : Except Error Settings :=
  match document with
  | none => .error .unreadable
  | some bytes =>
    match Utf8.decode bytes with
    | .ok text => parse text
    | .error _ => .error .unreadable

end Courier.Settings
