import Courier.Table

/-!
# The store

Texts under keys. Every view of the store is in the order of the keys. Operations that replace or
remove give what was there before. A change at one key is seen at that key only (`get?_set`,
`get?_delete`).
-/

namespace Courier

/-- A text under each of finitely many keys. -/
structure Store where
  table : Table String
deriving Repr, DecidableEq

namespace Store

/-- The store without keys. -/
def empty : Store := ⟨.empty⟩

/-- The text under a key. -/
def get? (s : Store) (key : String) : Option String :=
  s.table.get? key

/-- Whether a key is there. -/
def contains (s : Store) (key : String) : Bool :=
  (s.get? key).isSome

/-- Puts a text under a key, and gives the one it replaces. -/
def set (s : Store) (key value : String) : Option String × Store :=
  (s.get? key, ⟨s.table.insert key value⟩)

/-- Removes a key, and gives its text. -/
def delete (s : Store) (key : String) : Option String × Store :=
  (s.get? key, ⟨s.table.erase key⟩)

/-- Removes every key, and gives their number. -/
def clear (s : Store) : Nat × Store :=
  (s.table.size, empty)

/-- The keys, in increasing order. -/
def keys (s : Store) : List String :=
  s.table.keys

/-- The texts, in the order of their keys. -/
def values (s : Store) : List String :=
  s.table.values

/-- The keys with their texts, in increasing order of the keys. -/
def entries (s : Store) : List (String × String) :=
  s.table.entries

/-- The number of keys. -/
def size (s : Store) : Nat :=
  s.table.size

/-- Whether there are no keys. -/
def isEmpty (s : Store) : Bool :=
  s.entries.isEmpty

/-! ## Look-ups -/

theorem get?_empty (key : String) : empty.get? key = none := rfl

theorem get?_set (s : Store) (key value other : String) :
    (s.set key value).2.get? other = if other = key then some value else s.get? other :=
  s.table.get?_insert key other value

theorem get?_delete (s : Store) (key other : String) :
    (s.delete key).2.get? other = if other = key then none else s.get? other :=
  s.table.get?_erase key other

end Store

end Courier
