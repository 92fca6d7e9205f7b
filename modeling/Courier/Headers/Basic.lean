import Courier.Headers.Name
import Courier.Table
import Courier.Text.Quoted
import Courier.Text.Utf8.Basic

/-!
# Headers

The headers of a message: under each name, in the order of the names, the values that were given for
it, in the order in which they came. Names are kept in their normal spelling and values without
padding, and neither can break a line, so the written form (`Headers.encode`) reads back.

What an operation does to the values of each name is said by `getAll_add`, `getAll_set` and
`getAll_remove`; names that differ in case and padding only are one name.
-/

namespace Courier

/-- The values of each header name. -/
structure Headers where
  table : Table (List String)
deriving DecidableEq, Repr

namespace Headers

/-- Why a header is refused. -/
inductive Error where
  /-- The text, without padding, is no header name. -/
  | invalidName (name : String)
  /-- The value for that name holds a line break. -/
  | invalidValue (name : String)
deriving Repr, DecidableEq

/-- The sentence that reports a refusal. -/
def Error.message : Error → String
  | .invalidName name => "invalid header name: " ++ Text.quote name
  | .invalidValue name => "invalid value for header " ++ name

/-- No headers. -/
def empty : Headers := ⟨.empty⟩

instance : Inhabited Headers := ⟨empty⟩

/-! ## Checking a header -/

/-- The kept name and value of a header. -/
def checked (name value : String) : Except Error (String × String) :=
  let name := Text.trim name
  let value := Text.trim value
  if !HeaderName.isValid name then .error (.invalidName name)
  else if Text.hasLineBreak value then .error (.invalidValue (HeaderName.normal name))
  else .ok (HeaderName.normal name, value)

/-! ## Operations -/

/-- Every value of a header, in the order in which they came. -/
def getAll (h : Headers) (name : String) : List String :=
  (h.table.get? (HeaderName.normal name)).getD []

/-- The first value of a header. -/
def get? (h : Headers) (name : String) : Option String :=
  (h.getAll name).head?

/-- Whether a header is there. -/
def contains (h : Headers) (name : String) : Bool :=
  (h.table.get? (HeaderName.normal name)).isSome

/-- Adds a value to those of its header. -/
def add (h : Headers) (name value : String) : Except Error Headers :=
  (checked name value).map fun (name, value) =>
    ⟨h.table.alter name fun values => values.getD [] ++ [value]⟩

/-- Puts a value in place of all values of its header. -/
def set (h : Headers) (name value : String) : Except Error Headers :=
  (checked name value).map fun (name, value) => ⟨h.table.insert name [value]⟩

/-- Removes a header. -/
def remove (h : Headers) (name : String) : Headers :=
  ⟨h.table.erase (HeaderName.normal name)⟩

/-- The headers that result from adding each pair in turn. -/
def ofPairs (pairs : List (String × String)) : Except Error Headers :=
  pairs.foldlM (fun h (name, value) => h.add name value) empty

theorem eq_of_checked_eq_ok {name value : String} {kept : String × String}
    (h : checked name value = .ok kept) : kept = (HeaderName.normal name, Text.trim value) := by
  simp only [checked, HeaderName.normal_trim] at h
  split at h
  · cases h
  · split at h
    · cases h
    · exact (Except.ok.inj h).symm

theorem eq_of_add_eq_ok {h h' : Headers} {name value : String} (ha : h.add name value = .ok h') :
    h' = ⟨h.table.alter (HeaderName.normal name) fun values =>
      values.getD [] ++ [Text.trim value]⟩ := by
  unfold add at ha
  cases hc : checked name value with
  | error e => rw [hc] at ha; cases ha
  | ok kept =>
    rw [hc, eq_of_checked_eq_ok hc] at ha
    exact (Except.ok.inj ha).symm

theorem eq_of_set_eq_ok {h h' : Headers} {name value : String} (hs : h.set name value = .ok h') :
    h' = ⟨h.table.insert (HeaderName.normal name) [Text.trim value]⟩ := by
  unfold set at hs
  cases hc : checked name value with
  | error e => rw [hc] at hs; cases hs
  | ok kept =>
    rw [hc, eq_of_checked_eq_ok hc] at hs
    exact (Except.ok.inj hs).symm

theorem getAll_empty (name : String) : empty.getAll name = [] := rfl

theorem getAll_add {h h' : Headers} {name value : String} (ha : h.add name value = .ok h')
    (other : String) :
    h'.getAll other =
      if HeaderName.normal other = HeaderName.normal name then h.getAll other ++ [Text.trim value]
      else h.getAll other := by
  rw [eq_of_add_eq_ok ha, getAll, Table.get?_alter]
  split
  · rename_i he
    rw [getAll, he]
    rfl
  · rfl

theorem getAll_set {h h' : Headers} {name value : String} (hs : h.set name value = .ok h')
    (other : String) :
    h'.getAll other =
      if HeaderName.normal other = HeaderName.normal name then [Text.trim value]
      else h.getAll other := by
  rw [eq_of_set_eq_ok hs, getAll, Table.get?_insert]
  split <;> rfl

theorem getAll_remove (h : Headers) (name other : String) :
    (h.remove name).getAll other =
      if HeaderName.normal other = HeaderName.normal name then [] else h.getAll other := by
  rw [remove, getAll, Table.get?_erase]
  split <;> rfl

/-! ## Views -/

/-- The names, in increasing order. -/
def names (h : Headers) : List String :=
  h.table.keys

/-- The number of names. -/
def size (h : Headers) : Nat :=
  h.table.size

/-- Whether there are no headers. -/
def isEmpty (h : Headers) : Bool :=
  h.table.entries.isEmpty

/-- Each value with its name, in the order in which they are written. -/
def pairs (h : Headers) : List (String × String) :=
  h.table.entries.flatMap fun (name, values) => values.map (name, ·)

/-- The number of values. -/
def valueCount (h : Headers) : Nat :=
  h.pairs.length

/-! ## Written form -/

/-- One header line as text. -/
def renderPair (pair : String × String) : String :=
  pair.1 ++ ": " ++ pair.2 ++ "\r\n"

/-- The header lines as text. -/
def render (h : Headers) : String :=
  String.join (h.pairs.map renderPair)

/-- One header line as bytes. -/
def encodePair (pair : String × String) : Bytes :=
  Utf8.encode pair.1 ++ Utf8.encode ": " ++ Utf8.encode pair.2 ++ Bytes.crlf

/-- The header lines as bytes. -/
def encode (h : Headers) : Bytes :=
  h.pairs.flatMap encodePair

/-- The number of bytes of the header lines: four a line beside its name and value. -/
def encodedSize (h : Headers) : Nat :=
  h.pairs.foldr (fun (name, value) rest => Utf8.size name + 2 + Utf8.size value + 2 + rest) 0

end Headers

end Courier
