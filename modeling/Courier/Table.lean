/-!
# Ordered tables

A table holds one value for each of finitely many keys, in strictly increasing order of the keys (by
code point, which is also the order of their bytes). The order is part of the type, so tables with
the same look-ups are equal (`Table.ext_get?`).

`get?_alter` and `get?_erase` say what the two operations do to a look-up.
-/

namespace Courier

/-- Values under keys, in increasing order of the keys. -/
structure Table (α : Type) where
  entries : List (String × α)
  sorted : entries.Pairwise fun a b => a.1 < b.1

namespace Table

variable {α : Type}

instance [DecidableEq α] : DecidableEq (Table α) := fun s t =>
  if h : s.entries = t.entries then
    isTrue (by cases s; cases t; cases h; rfl)
  else
    isFalse fun e => h (e ▸ rfl)

instance [Repr α] : Repr (Table α) := ⟨fun t n => reprPrec t.entries n⟩

/-- The table without entries. -/
def empty : Table α := ⟨[], .nil⟩

instance : Inhabited (Table α) := ⟨empty⟩

/-! ## Operations -/

/-- The keys, in increasing order. -/
def keys (t : Table α) : List String :=
  t.entries.map (·.1)

/-- The values, in the order of their keys. -/
def values (t : Table α) : List α :=
  t.entries.map (·.2)

/-- The number of keys. -/
def size (t : Table α) : Nat :=
  t.entries.length

/-- The value under a key. -/
def get? (t : Table α) (key : String) : Option α :=
  t.entries.lookup key

/-- Puts `f` of the value under `key` in its place. -/
def alterEntries (key : String) (f : Option α → α) : List (String × α) → List (String × α)
  | [] => [(key, f none)]
  | (k, v) :: rest =>
    if key < k then (key, f none) :: (k, v) :: rest
    else if key = k then (k, f (some v)) :: rest
    else (k, v) :: alterEntries key f rest

theorem fst_of_mem_alterEntries {key : String} {f : Option α → α} {l : List (String × α)}
    {e : String × α} (h : e ∈ alterEntries key f l) : e.1 = key ∨ ∃ e' ∈ l, e'.1 = e.1 := by
  induction l with
  | nil => simp_all [alterEntries]
  | cons head rest ih => grind [alterEntries]

theorem sorted_alterEntries (key : String) (f : Option α → α) {l : List (String × α)}
    (h : l.Pairwise fun a b => a.1 < b.1) :
    (alterEntries key f l).Pairwise fun a b => a.1 < b.1 := by
  induction l with
  | nil => simp [alterEntries]
  | cons head rest ih =>
    obtain ⟨k, v⟩ := head
    rw [List.pairwise_cons] at h
    simp only [alterEntries]
    split
    · rename_i hk
      refine List.pairwise_cons.2 ⟨fun e he => ?_, List.pairwise_cons.2 h⟩
      rcases List.mem_cons.1 he with rfl | he
      · exact hk
      · exact String.lt_trans hk (h.1 e he)
    · split
      · exact List.pairwise_cons.2 h
      · refine List.pairwise_cons.2 ⟨fun e he => ?_, ih h.2⟩
        rcases fst_of_mem_alterEntries he with hkey | ⟨e', he', heq⟩
        · have : k < key := by grind
          exact hkey ▸ this
        · exact heq ▸ h.1 e' he'

/-- Replaces the value under `key` by `f` of it. -/
def alter (t : Table α) (key : String) (f : Option α → α) : Table α :=
  ⟨alterEntries key f t.entries, sorted_alterEntries key f t.sorted⟩

/-- Puts a value under `key`. -/
def insert (t : Table α) (key : String) (value : α) : Table α :=
  t.alter key fun _ => value

/-- Removes `key`. -/
def erase (t : Table α) (key : String) : Table α :=
  ⟨t.entries.filter fun e => e.1 != key, t.sorted.filter _⟩

/-! ## Look-ups -/

theorem get?_eq_none_of_forall_lt {key : String} {l : List (String × α)}
    (h : ∀ e ∈ l, key < e.1) : l.lookup key = none := by
  rw [List.lookup_eq_none_iff]
  intro e he
  have := h e he
  grind

theorem lookup_alterEntries (key other : String) (f : Option α → α) {l : List (String × α)}
    (h : l.Pairwise fun a b => a.1 < b.1) :
    (alterEntries key f l).lookup other =
      if other = key then some (f (l.lookup key)) else l.lookup other := by
  induction l with
  | nil => simp only [alterEntries, List.lookup_cons, List.lookup_nil]; grind
  | cons head rest ih =>
    obtain ⟨k, v⟩ := head
    rw [List.pairwise_cons] at h
    have fresh (hk : key < k) : ((k, v) :: rest).lookup key = none := by
      refine get?_eq_none_of_forall_lt fun e he => ?_
      rcases List.mem_cons.1 he with rfl | he
      · exact hk
      · exact String.lt_trans hk (h.1 e he)
    simp only [alterEntries]
    split
    · rename_i hk
      rw [fresh hk, List.lookup_cons]
      grind
    · split
      · simp only [List.lookup_cons]; grind
      · rw [List.lookup_cons, ih h.2]
        simp only [List.lookup_cons]
        grind

theorem get?_alter (t : Table α) (key other : String) (f : Option α → α) :
    (t.alter key f).get? other = if other = key then some (f (t.get? key)) else t.get? other :=
  lookup_alterEntries key other f t.sorted

theorem get?_insert (t : Table α) (key other : String) (value : α) :
    (t.insert key value).get? other = if other = key then some value else t.get? other :=
  get?_alter t key other _

theorem get?_erase (t : Table α) (key other : String) :
    (t.erase key).get? other = if other = key then none else t.get? other := by
  obtain ⟨l, hl⟩ := t
  simp only [get?, erase]
  clear hl
  induction l with
  | nil => simp
  | cons e rest ih =>
    rw [List.filter_cons]
    grind

theorem get?_empty (key : String) : (empty : Table α).get? key = none := rfl

theorem entries_eq_of_lookup_eq {l m : List (String × α)}
    (hl : l.Pairwise fun a b => a.1 < b.1) (hm : m.Pairwise fun a b => a.1 < b.1)
    (h : ∀ key, l.lookup key = m.lookup key) : l = m := by
  induction l generalizing m with
  | nil =>
    cases m with
    | nil => rfl
    | cons e m =>
      have := h e.1
      rw [List.lookup_cons_self] at this
      cases this
  | cons d l ih =>
    cases m with
    | nil => simpa using h d.1
    | cons e m =>
      rw [List.pairwise_cons] at hl hm
      have hd : d.1 = e.1 := by
        by_cases hde : d.1 < e.1
        · have hn := h d.1
          rw [List.lookup_cons_self, get?_eq_none_of_forall_lt] at hn
          · simp at hn
          · intro a ha
            rcases List.mem_cons.1 ha with rfl | ha
            · exact hde
            · exact String.lt_trans hde (hm.1 a ha)
        · by_cases hed : e.1 < d.1
          · have hn := h e.1
            rw [List.lookup_cons_self, get?_eq_none_of_forall_lt] at hn
            · simp at hn
            · intro a ha
              rcases List.mem_cons.1 ha with rfl | ha
              · exact hed
              · exact String.lt_trans hed (hl.1 a ha)
          · grind
      have hv := h d.1
      rw [List.lookup_cons_self, hd, List.lookup_cons_self, Option.some.injEq] at hv
      have he : d = e := Prod.ext hd hv
      subst he
      rw [ih hl.2 hm.2 fun key => ?_]
      by_cases hk : key = d.1
      · rw [hk, get?_eq_none_of_forall_lt hl.1, get?_eq_none_of_forall_lt hm.1]
      · have := h key
        rwa [List.lookup_cons, List.lookup_cons, beq_false_of_ne hk] at this

theorem ext_get? {s t : Table α} (h : ∀ key, s.get? key = t.get? key) : s = t := by
  have := entries_eq_of_lookup_eq s.sorted t.sorted h
  cases s
  cases t
  cases this
  rfl

end Table

end Courier
