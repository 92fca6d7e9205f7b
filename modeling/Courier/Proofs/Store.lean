import Courier.Proofs.Headers.Valid
import Courier.Store
import Mathlib.Data.List.AList
import Mathlib.Data.List.Induction
import Mathlib.Data.List.Nodup
import Mathlib.Data.List.Sort
import Mathlib.Data.Prod.Lex
import Mathlib.Data.String.Basic

/-!
# Stores by what was done with them

What is done with a store, or asked of it, is a `Store.Call`. The text under a key is the one that
was last set for it, if nothing behind has removed it (`get?_run_eq_some_iff`).

A store can also be kept in a map that has no order of its own, and shows its entries in another one
each time (`Unordered`). Its views are then sorted when they are asked for: the keys as texts, and
the entries as pairs. They come out as those of the store, since no key is there twice, so whatever
such a map does, every call is answered as by the store (`Unordered.runs_iff`).
-/

namespace Courier

namespace Store

/-! ## Calls -/

/-- What is done with a store, or asked of it. -/
inductive Call where
  | get (key : String)
  | contains (key : String)
  | set (key value : String)
  | delete (key : String)
  | clear
  | keys
  | values
  | entries
  | size
  | isEmpty
deriving Repr, DecidableEq

/-- What a call answers. -/
inductive Answer where
  | text (text : Option String)
  | flag (flag : Bool)
  | number (n : Nat)
  | texts (texts : List String)
  | pairs (pairs : List (String × String))
deriving Repr, DecidableEq

/-- The answer of a call, and the store that it leaves. -/
def Call.run : Call → Store → Answer × Store
  | get key, s => (.text (s.get? key), s)
  | contains key, s => (.flag (s.contains key), s)
  | set key value, s => ((s.set key value).map .text id)
  | delete key, s => ((s.delete key).map .text id)
  | clear, s => (s.clear.map .number id)
  | keys, s => (.texts s.keys, s)
  | values, s => (.texts s.values, s)
  | entries, s => (.pairs s.entries, s)
  | size, s => (.number s.size, s)
  | isEmpty, s => (.flag s.isEmpty, s)

/-- The answers of calls, one after the other, and the store that they leave. -/
def run (s : Store) : List Call → List Answer × Store
  | [] => ([], s)
  | call :: calls =>
    let (answer, s) := call.run s
    let (answers, s) := run s calls
    (answer :: answers, s)

/-- The call decides on its own what is under the key behind it. -/
def Call.Resets (key : String) : Call → Prop
  | set other _ | delete other => other = key
  | clear => True
  | _ => False

theorem run_append (s : Store) (calls more : List Call) :
    s.run (calls ++ more) =
      ((s.run calls).1 ++ ((s.run calls).2.run more).1, ((s.run calls).2.run more).2) := by
  induction calls generalizing s with
  | nil => rfl
  | cons call calls ih =>
    rw [List.cons_append, run]
    dsimp only
    rw [ih]
    rfl

/-! ## What is under a key -/

theorem get?_run_of_resets {call : Call} {key : String} (h : call.Resets key) (s : Store)
    (value : String) : (call.run s).2.get? key = some value ↔ call = .set key value := by
  cases call with
  | set other text =>
    obtain rfl : other = key := h
    show (s.set other text).2.get? other = some value ↔ _
    rw [get?_set, if_pos rfl]
    simp
  | delete other =>
    obtain rfl : other = key := h
    show (s.delete other).2.get? other = some value ↔ _
    rw [get?_delete, if_pos rfl]
    simp
  | clear =>
    show empty.get? key = some value ↔ _
    rw [get?_empty]
    simp
  | _ => exact h.elim

/-- A call changes nothing at keys that it does not reset. -/
theorem get?_run_of_not_resets {call : Call} {key : String} (h : ¬ call.Resets key) (s : Store) :
    (call.run s).2.get? key = s.get? key := by
  cases call with
  | set other text =>
    show (s.set other text).2.get? key = _
    rw [get?_set, if_neg fun he => h he.symm]
  | delete other =>
    show (s.delete other).2.get? key = _
    rw [get?_delete, if_neg fun he => h he.symm]
  | clear => exact absurd trivial h
  | _ => rfl

/-- The value was the last one to be set for the key, and the key was not removed since. -/
def IsLast (calls : List Call) (key value : String) : Prop :=
  ∃ before after, calls = before ++ .set key value :: after ∧ ∀ call ∈ after, ¬ call.Resets key

theorem isLast_append_singleton {calls : List Call} {call : Call} {key value : String} :
    IsLast (calls ++ [call]) key value ↔
      call = .set key value ∨ ¬ call.Resets key ∧ IsLast calls key value := by
  constructor
  · rintro ⟨before, after, he, hafter⟩
    rcases List.eq_nil_or_concat after with rfl | ⟨front, last, rfl⟩
    · exact .inl (List.append_inj_right' he rfl |> List.singleton_inj.1)
    · rw [List.concat_eq_append] at he hafter
      rw [← List.cons_append, ← List.append_assoc] at he
      obtain ⟨rfl, hlast⟩ := List.append_inj' he rfl
      obtain rfl := List.singleton_inj.1 hlast
      rw [List.forall_mem_append, List.forall_mem_singleton] at hafter
      exact .inr ⟨hafter.2, before, front, rfl, hafter.1⟩
  · rintro (rfl | ⟨hr, before, after, rfl, hafter⟩)
    · exact ⟨calls, [], rfl, nofun⟩
    · refine ⟨before, after ++ [call], by simp, ?_⟩
      rw [List.forall_mem_append, List.forall_mem_singleton]
      exact ⟨hafter, hr⟩

theorem get?_run_eq_some_iff {calls : List Call} {key value : String} :
    (empty.run calls).2.get? key = some value ↔ IsLast calls key value := by
  induction calls using List.reverseRecOn with
  | nil => exact iff_of_false nofun fun ⟨before, after, he, _⟩ => by simp at he
  | append_singleton calls call ih =>
    rw [run_append, isLast_append_singleton, ← ih]
    show (call.run (empty.run calls).2).2.get? key = some value ↔ _
    by_cases hr : call.Resets key
    · rw [get?_run_of_resets hr]
      simp [hr]
    · have hne : call ≠ .set key value := fun he => hr (he ▸ rfl)
      rw [get?_run_of_not_resets hr]
      simp [hr, hne]

/-! ## Views -/

theorem mem_entries_iff {s : Store} {key value : String} :
    (key, value) ∈ s.entries ↔ s.get? key = some value :=
  Table.get?_eq_some_iff.symm

theorem pairwise_keys (s : Store) : s.keys.Pairwise (· < ·) :=
  List.pairwise_map.2 s.table.sorted

theorem isEmpty_iff {s : Store} : s.isEmpty = true ↔ s.size = 0 := by
  rw [isEmpty, List.isEmpty_iff, ← List.length_eq_zero_iff]
  rfl

end Store

/-! ## Maps without an order -/

/-- A map from texts to texts, with what it answers when it is changed. Its entries are visited in
any order, and need not be in the same one again. -/
structure Unordered where
  State : Type
  empty : State
  get? : State → String → Option String
  contains : State → String → Bool
  insert : State → String → String → Option String × State
  remove : State → String → Option String × State
  clear : State → State
  size : State → Nat
  isEmpty : State → Bool
  /-- The entries may be visited in this order. -/
  Visits : State → List (String × String) → Prop
  get?_empty (key : String) : get? empty key = none
  contains_eq (s : State) (key : String) : contains s key = (get? s key).isSome
  fst_insert (s : State) (key value : String) : (insert s key value).1 = get? s key
  get?_insert (s : State) (key value other : String) :
    get? (insert s key value).2 other = if other = key then some value else get? s other
  fst_remove (s : State) (key : String) : (remove s key).1 = get? s key
  get?_remove (s : State) (key other : String) :
    get? (remove s key).2 other = if other = key then none else get? s other
  get?_clear (s : State) (key : String) : get? (clear s) key = none
  exists_visits (s : State) : ∃ entries, Visits s entries
  nodup_of_visits {s : State} {entries : List (String × String)} (h : Visits s entries) :
    (entries.map (·.1)).Nodup
  mem_iff_of_visits {s : State} {entries : List (String × String)} (h : Visits s entries)
    (key value : String) : (key, value) ∈ entries ↔ get? s key = some value
  size_eq_of_visits {s : State} {entries : List (String × String)} (h : Visits s entries) :
    size s = entries.length
  isEmpty_eq (s : State) : isEmpty s = (size s == 0)

namespace Unordered

variable {m : Unordered}

/-- The pairs in increasing order: of their first texts, and of their second where those are the
same. -/
def sortPairs (pairs : List (String × String)) : List (String × String) :=
  pairs.mergeSort fun a b => toLex a ≤ toLex b

/-- The answers that a call may have from a store that is kept in the map, and what is left then. -/
inductive Calls (m : Unordered) : m.State → Store.Call → Store.Answer → m.State → Prop
  | get {s : m.State} (key : String) : Calls m s (.get key) (.text (m.get? s key)) s
  | contains {s : m.State} (key : String) : Calls m s (.contains key) (.flag (m.contains s key)) s
  | set {s : m.State} (key value : String) :
      Calls m s (.set key value) (.text (m.insert s key value).1) (m.insert s key value).2
  | delete {s : m.State} (key : String) :
      Calls m s (.delete key) (.text (m.remove s key).1) (m.remove s key).2
  | clear {s : m.State} : Calls m s .clear (.number (m.size s)) (m.clear s)
  | keys {s : m.State} {visited : List (String × String)} (h : m.Visits s visited) :
      Calls m s .keys (.texts (visited.map (·.1)).mergeSort) s
  | values {s : m.State} {visited : List (String × String)} (h : m.Visits s visited) :
      Calls m s .values (.texts ((sortPairs visited).map (·.2))) s
  | entries {s : m.State} {visited : List (String × String)} (h : m.Visits s visited) :
      Calls m s .entries (.pairs (sortPairs visited)) s
  | size {s : m.State} : Calls m s .size (.number (m.size s)) s
  | isEmpty {s : m.State} : Calls m s .isEmpty (.flag (m.isEmpty s)) s

/-- The answers that calls may have, one after the other, and what is left then. -/
inductive Runs (m : Unordered) : m.State → List Store.Call → List Store.Answer → m.State → Prop
  | nil {s : m.State} : Runs m s [] [] s
  | cons {s s' s'' : m.State} {call : Store.Call} {calls : List Store.Call} {answer : Store.Answer}
      {answers : List Store.Answer} (first : m.Calls s call answer s')
      (rest : Runs m s' calls answers s'') : Runs m s (call :: calls) (answer :: answers) s''

/-- The map has what is in the store. -/
def Holds (m : Unordered) (s : m.State) (store : Store) : Prop :=
  ∀ key, m.get? s key = store.get? key

variable {s s' : m.State} {store : Store} {visited : List (String × String)}

theorem holds_empty (m : Unordered) : m.Holds m.empty .empty := m.get?_empty

theorem Holds.perm (h : m.Holds s store) (hv : m.Visits s visited) :
    visited.Perm store.entries := by
  refine (List.perm_ext_iff_of_nodup (m.nodup_of_visits hv).of_map ?_).2 fun (key, value) => ?_
  · exact store.table.sorted.imp fun {a b} (hlt : a.1 < b.1) he => hlt.ne (congrArg Prod.fst he)
  · rw [m.mem_iff_of_visits hv, h, Store.mem_entries_iff]

/-- Sorting gives the only list of these members that is in order. -/
theorem mergeSort_eq_of_perm {α : Type} [LinearOrder α] {l l' : List α} (h : l.Perm l')
    (hs : l'.Pairwise (· ≤ ·)) : l.mergeSort (· ≤ ·) = l' :=
  ((List.mergeSort_perm l _).trans h).eq_of_pairwise' (List.pairwise_mergeSort' (· ≤ ·) l) hs

theorem Holds.sortPairs_eq (h : m.Holds s store) (hv : m.Visits s visited) :
    sortPairs visited = store.entries :=
  mergeSort_eq_of_perm (α := String ×ₗ String) (h.perm hv) <| store.table.sorted.imp fun hlt =>
    Prod.Lex.toLex_le_toLex.2 (.inl hlt)

theorem Holds.sortKeys_eq (h : m.Holds s store) (hv : m.Visits s visited) :
    (visited.map (·.1)).mergeSort = store.keys :=
  mergeSort_eq_of_perm ((h.perm hv).map _) (store.pairwise_keys.imp le_of_lt)

theorem Holds.size_eq (h : m.Holds s store) : m.size s = store.size := by
  obtain ⟨visited, hv⟩ := m.exists_visits s
  rw [m.size_eq_of_visits hv, (h.perm hv).length_eq]
  rfl

theorem Holds.isEmpty_eq (h : m.Holds s store) : m.isEmpty s = store.isEmpty := by
  rw [m.isEmpty_eq, h.size_eq, Bool.eq_iff_iff, beq_iff_eq, Store.isEmpty_iff]

/-! ## Answers -/

/-- Whatever answer a call has, it is that of the store. -/
theorem Calls.answer_eq {call : Store.Call} {answer : Store.Answer} (hc : m.Calls s call answer s')
    (h : m.Holds s store) : answer = (call.run store).1 := by
  cases hc with
  | get key => rw [h]; rfl
  | contains key => rw [m.contains_eq, h]; rfl
  | set key value => rw [m.fst_insert, h]; rfl
  | delete key => rw [m.fst_remove, h]; rfl
  | clear => rw [h.size_eq]; rfl
  | keys hv => rw [h.sortKeys_eq hv]; rfl
  | values hv => rw [h.sortPairs_eq hv]; rfl
  | entries hv => rw [h.sortPairs_eq hv]; rfl
  | size => rw [h.size_eq]; rfl
  | isEmpty => rw [h.isEmpty_eq]; rfl

theorem Calls.holds {call : Store.Call} {answer : Store.Answer} (hc : m.Calls s call answer s')
    (h : m.Holds s store) : m.Holds s' (call.run store).2 := by
  intro other
  cases hc with
  | set key value =>
    show _ = (store.set key value).2.get? other
    rw [m.get?_insert, h, Store.get?_set]
  | delete key =>
    show _ = (store.delete key).2.get? other
    rw [m.get?_remove, h, Store.get?_delete]
  | clear => exact m.get?_clear s other
  | _ => exact h other

/-- Every call has an answer. -/
theorem exists_calls (m : Unordered) (s : m.State) (call : Store.Call) :
    ∃ answer s', m.Calls s call answer s' := by
  obtain ⟨visited, hv⟩ := m.exists_visits s
  cases call with
  | get key => exact ⟨_, _, .get key⟩
  | contains key => exact ⟨_, _, .contains key⟩
  | set key value => exact ⟨_, _, .set key value⟩
  | delete key => exact ⟨_, _, .delete key⟩
  | clear => exact ⟨_, _, .clear⟩
  | keys => exact ⟨_, _, .keys hv⟩
  | values => exact ⟨_, _, .values hv⟩
  | entries => exact ⟨_, _, .entries hv⟩
  | size => exact ⟨_, _, .size⟩
  | isEmpty => exact ⟨_, _, .isEmpty⟩

/-- Calls are answered as by the store, in whatever order the entries are visited. -/
theorem runs_iff (h : m.Holds s store) {calls : List Store.Call} {answers : List Store.Answer} :
    (∃ s', m.Runs s calls answers s') ↔ answers = (store.run calls).1 := by
  induction calls generalizing s store answers with
  | nil =>
    constructor
    · rintro ⟨_, ⟨⟩⟩
      rfl
    · rintro rfl
      exact ⟨s, .nil⟩
  | cons call calls ih =>
    constructor
    · rintro ⟨s'', _ | ⟨first, rest⟩⟩
      rw [first.answer_eq h, (ih (first.holds h)).1 ⟨s'', rest⟩]
      rfl
    · rintro rfl
      obtain ⟨answer, s', first⟩ := m.exists_calls s call
      obtain ⟨s'', rest⟩ := (ih (first.holds h)).2 rfl
      obtain rfl := first.answer_eq h
      exact ⟨s'', .cons first rest⟩

/-! ## A list of entries -/

/-- The entries in a list without an order, visited in any. -/
def ofAList : Unordered where
  State := AList fun _ : String => String
  empty := ∅
  get? s key := s.lookup key
  contains s key := (s.lookup key).isSome
  insert s key value := (s.lookup key, s.insert key value)
  remove s key := s.extract key
  clear _ := ∅
  size s := s.entries.length
  isEmpty s := s.entries.isEmpty
  Visits s visited := visited.Perm (s.entries.map fun e => (e.1, e.2))
  get?_empty := AList.lookup_empty
  contains_eq _ _ := rfl
  fst_insert _ _ _ := rfl
  get?_insert s key value other := by
    split
    · subst other
      exact AList.lookup_insert s
    · exact AList.lookup_insert_ne ‹_›
  fst_remove s key := by rw [AList.extract_eq_lookup_erase]
  get?_remove s key other := by
    rw [AList.extract_eq_lookup_erase]
    split
    · subst other
      exact AList.lookup_erase key s
    · exact AList.lookup_erase_ne ‹_›
  get?_clear _ := AList.lookup_empty
  exists_visits s := ⟨_, .rfl⟩
  nodup_of_visits {s visited} h := by
    rw [(h.map _).nodup_iff, List.map_map]
    exact s.nodupKeys
  mem_iff_of_visits {s visited} h key value := by
    rw [h.mem_iff, ← Option.mem_def, AList.mem_lookup_iff]
    simp
  size_eq_of_visits h := by rw [h.length_eq, List.length_map]
  isEmpty_eq s := by rw [Bool.eq_iff_iff, List.isEmpty_iff, beq_iff_eq, List.length_eq_zero_iff]

end Unordered

namespace Store

/-- The store shows what the calls on an empty one have left. -/
structure Shows (calls : List Call) (s : Store) : Prop where
  get_iff (key value : String) : s.get? key = some value ↔ IsLast calls key value
  contains_iff (key : String) : s.contains key = true ↔ ∃ value, IsLast calls key value
  replaced (key value : String) : (s.set key value).1 = s.get? key
  removed (key : String) : (s.delete key).1 = s.get? key
  mem_entries (key value : String) : (key, value) ∈ s.entries ↔ IsLast calls key value
  sorted : s.keys.Pairwise (· < ·)
  keys_eq : s.keys = s.entries.map (·.1)
  values_eq : s.values = s.entries.map (·.2)
  length_keys : s.keys.length = s.size
  length_values : s.values.length = s.size
  length_entries : s.entries.length = s.size
  isEmpty_iff : s.isEmpty = true ↔ s.size = 0
  cleared : s.clear = (s.size, empty)
  /-- A call is not seen at the keys that it does not reset. -/
  kept (call : Call) (key : String) (h : ¬ call.Resets key) :
    (call.run s).2.get? key = s.get? key ∧ (call.run s).2.contains key = s.contains key ∧
      ∀ value, (key, value) ∈ (call.run s).2.entries ↔ (key, value) ∈ s.entries

/-- A store is answered for by the calls before, also when it is kept in a map without an order. -/
theorem answers_and_views (calls : List Call) :
    (∀ (m : Unordered) (answers : List Answer),
      (∃ s, m.Runs m.empty calls answers s) ↔ answers = (empty.run calls).1) ∧
    Shows calls (empty.run calls).2 := by
  refine ⟨fun m answers => Unordered.runs_iff m.holds_empty, ?_⟩
  generalize hs : (empty.run calls).2 = s
  have hget (key value : String) : s.get? key = some value ↔ IsLast calls key value :=
    hs ▸ get?_run_eq_some_iff
  exact {
    get_iff := hget
    contains_iff := fun key => by simp only [contains, Option.isSome_iff_exists, hget]
    replaced := fun _ _ => rfl
    removed := fun _ => rfl
    mem_entries := fun key value => mem_entries_iff.trans (hget key value)
    sorted := s.pairwise_keys
    keys_eq := rfl
    values_eq := rfl
    length_keys := List.length_map _
    length_values := List.length_map _
    length_entries := rfl
    isEmpty_iff := isEmpty_iff
    cleared := rfl
    kept := fun call key h => by
      have hkept := get?_run_of_not_resets h s
      refine ⟨hkept, congrArg Option.isSome hkept, fun value => ?_⟩
      rw [mem_entries_iff, mem_entries_iff, hkept] }

theorem answers_of_ofAList :
    ∃ s, Unordered.ofAList.Runs Unordered.ofAList.empty
      [.set "b" "2", .set "a" "1", .set "b" "3", .keys, .entries, .delete "a", .clear, .isEmpty]
      [.text none, .text none, .text (some "2"), .texts ["a", "b"],
        .pairs [("a", "1"), ("b", "3")], .text (some "1"), .number 1, .flag true] s :=
  ((answers_and_views _).1 _ _).2 (by decide)

end Store

end Courier
