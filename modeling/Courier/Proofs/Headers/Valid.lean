import Courier.Proofs.Headers.Field

/-!
# Headers that operations make

Whatever is added, set or removed, every name is kept in its own spelling, has a value, and no value
has padding or breaks its line (`Headers.Valid`). Such headers are what the pairs make that they are
written as (`ofPairs_pairs`).
-/

namespace Courier

theorem Table.get?_eq_some_iff {α : Type} {t : Table α} {key : String} {value : α} :
    t.get? key = some value ↔ (key, value) ∈ t.entries := by
  obtain ⟨l, hl⟩ := t
  simp only [get?]
  induction l with
  | nil => simp
  | cons entry rest ih =>
    obtain ⟨k, v⟩ := entry
    rw [List.pairwise_cons] at hl
    rw [List.lookup_cons, List.mem_cons, Prod.mk.injEq, ← ih hl.2]
    by_cases hk : key = k
    · subst hk
      have hn : rest.lookup key = none := get?_eq_none_of_forall_lt hl.1
      simp [hn, eq_comm]
    · simp [beq_false_of_ne hk, hk]

namespace Headers

/-- Every name is a kept spelling and has values, each without padding and line breaks. -/
def Valid (h : Headers) : Prop :=
  ∀ name values, h.table.get? name = some values →
    HeaderName.isValid name = true ∧ HeaderName.normal name = name ∧ values ≠ [] ∧
      ∀ value ∈ values, Text.trim value = value ∧ Text.hasLineBreak value = false

/-! ## Operations -/

theorem valid_empty : empty.Valid := by
  intro name values hg
  cases hg

theorem Valid.add {h h' : Headers} {name value : String} (hv : h.Valid)
    (ha : h.add name value = .ok h') : h'.Valid := by
  obtain ⟨hname, hvalue⟩ := (exists_add_eq_ok_iff h name value).1 ⟨h', ha⟩
  rw [eq_of_add_eq_ok ha]
  intro other values hg
  rw [Table.get?_alter] at hg
  split_ifs at hg with ho
  · cases hg
    subst ho
    refine ⟨HeaderName.isValid_normal hname, HeaderName.normal_normal name, by simp, ?_⟩
    intro kept hk
    rcases List.mem_append.1 hk with hk | hk
    · cases ht : h.table.get? (HeaderName.normal name) with
      | none => simp [ht] at hk
      | some old =>
        rw [ht] at hk
        exact (hv _ _ ht).2.2.2 kept hk
    · obtain rfl := List.mem_singleton.1 hk
      exact ⟨Text.trim_trim value, hvalue⟩
  · exact hv other values hg

theorem Valid.set {h h' : Headers} {name value : String} (hv : h.Valid)
    (hs : h.set name value = .ok h') : h'.Valid := by
  obtain ⟨hname, hvalue⟩ := (exists_set_eq_ok_iff h name value).1 ⟨h', hs⟩
  rw [eq_of_set_eq_ok hs]
  intro other values hg
  rw [Table.get?_insert] at hg
  split_ifs at hg with ho
  · cases hg
    subst ho
    refine ⟨HeaderName.isValid_normal hname, HeaderName.normal_normal name, by simp, ?_⟩
    intro kept hk
    obtain rfl := List.mem_singleton.1 hk
    exact ⟨Text.trim_trim value, hvalue⟩
  · exact hv other values hg

theorem Valid.remove {h : Headers} (hv : h.Valid) (name : String) : (h.remove name).Valid := by
  intro other values hg
  rw [Headers.remove, Table.get?_erase] at hg
  split_ifs at hg with ho
  exact hv other values hg

theorem Valid.foldlM {pairs : List (String × String)} {h h' : Headers} (hv : h.Valid)
    (hp : pairs.foldlM (fun h (pair : String × String) => h.add pair.1 pair.2) h = .ok h') :
    h'.Valid :=
  foldlM_keeps hv (fun _ _ _ _ hv ha => hv.add ha) hp

/-- The headers that can be made: from none or from pairs, and by operations on such headers. -/
inductive Reachable : Headers → Prop
  | empty : Reachable empty
  | ofPairs {pairs : List (String × String)} {h : Headers} (hp : ofPairs pairs = .ok h) :
      Reachable h
  | add {h h' : Headers} {name value : String} (hr : Reachable h)
      (ha : h.add name value = .ok h') : Reachable h'
  | set {h h' : Headers} {name value : String} (hr : Reachable h)
      (hs : h.set name value = .ok h') : Reachable h'
  | remove {h : Headers} (hr : Reachable h) (name : String) : Reachable (h.remove name)

theorem Reachable.valid {h : Headers} (hr : h.Reachable) : h.Valid := by
  induction hr with
  | empty => exact valid_empty
  | ofPairs hp => exact valid_empty.foldlM hp
  | add _ ha ih => exact ih.add ha
  | set _ hs ih => exact ih.set hs
  | remove _ name ih => exact ih.remove name

/-! ## Pairs -/

theorem Valid.of_mem_pairs {h : Headers} (hv : h.Valid) {pair : String × String}
    (hm : pair ∈ h.pairs) :
    HeaderName.isValid pair.1 = true ∧ HeaderName.normal pair.1 = pair.1 ∧
      Text.trim pair.2 = pair.2 ∧ Text.hasLineBreak pair.2 = false := by
  obtain ⟨⟨name, values⟩, he, hm⟩ := List.mem_flatMap.1 hm
  obtain ⟨value, hvalue, rfl⟩ : ∃ value ∈ values, (name, value) = pair := List.mem_map.1 hm
  obtain ⟨hname, hnormal, -, hvalues⟩ := hv name values (Table.get?_eq_some_iff.2 he)
  exact ⟨hname, hnormal, hvalues value hvalue⟩

/-- Valid headers with the same values under each name are equal. -/
theorem Valid.ext {h h' : Headers} (hv : h.Valid) (hv' : h'.Valid)
    (hg : ∀ name, h.getAll name = h'.getAll name) : h = h' := by
  have key : ∀ {g g' : Headers}, g.Valid → g'.Valid → (∀ name, g.getAll name = g'.getAll name) →
      ∀ name values, g.table.get? name = some values → g'.table.get? name = some values := by
    intro g g' hv hv' hg name values hs
    obtain ⟨-, hn, hne, -⟩ := hv name values hs
    have h := hg name
    rw [getAll, getAll, hn, hs, Option.getD_some] at h
    cases hs' : g'.table.get? name with
    | none =>
      rw [hs'] at h
      exact absurd h hne
    | some values' =>
      rw [hs'] at h
      exact congrArg some h.symm
  have ht : h.table = h'.table := by
    apply Table.ext_get?
    intro name
    cases hs : h.table.get? name with
    | some values => exact (key hv hv' hg name values hs).symm
    | none =>
      cases hs' : h'.table.get? name with
      | none => rfl
      | some values =>
        rw [key hv' hv (fun name => (hg name).symm) name values hs'] at hs
        cases hs
  cases h
  cases h'
  exact congrArg mk ht

theorem filter_flatMap_of_pairwise {entries : List (String × List String)}
    (hs : entries.Pairwise fun a b => a.1 < b.1) (key : String) :
    (((entries.flatMap fun entry => entry.2.map (entry.1, ·)).filter fun pair => pair.1 == key).map
      (·.2)) = (entries.lookup key).getD [] := by
  induction entries with
  | nil => rfl
  | cons entry rest ih =>
    obtain ⟨name, values⟩ := entry
    rw [List.pairwise_cons] at hs
    rw [List.flatMap_cons, List.filter_append, List.map_append, ih hs.2, List.lookup_cons]
    by_cases hk : key = name
    · subst hk
      rw [Table.get?_eq_none_of_forall_lt hs.1]
      simp [List.filter_map, Function.comp_def]
    · simp [List.filter_map, Function.comp_def, beq_false_of_ne hk, beq_false_of_ne (Ne.symm hk)]

theorem Valid.getAll_eq {h : Headers} (hv : h.Valid) (name : String) :
    h.getAll name =
      (h.pairs.filter fun pair => HeaderName.normal pair.1 == HeaderName.normal name).map
        fun pair => Text.trim pair.2 := by
  have hf : ∀ pair ∈ h.pairs, (HeaderName.normal pair.1 == HeaderName.normal name) =
      (pair.1 == HeaderName.normal name) := fun pair hm => by rw [(hv.of_mem_pairs hm).2.1]
  have hm : ∀ pair ∈ h.pairs.filter fun pair => pair.1 == HeaderName.normal name,
      Text.trim pair.2 = pair.2 := fun pair hm =>
    (hv.of_mem_pairs (List.mem_of_mem_filter hm)).2.2.1
  rw [List.filter_congr hf, List.map_congr_left hm]
  exact (filter_flatMap_of_pairwise h.table.sorted _).symm

/-- Valid headers are made by the pairs that they are written as. -/
theorem Valid.ofPairs_pairs {h : Headers} (hv : h.Valid) : ofPairs h.pairs = .ok h := by
  have hadd : ∀ pair ∈ h.pairs, ∀ base : Headers, ∃ h', base.add pair.1 pair.2 = .ok h' := by
    intro pair hm base
    obtain ⟨hname, -, hvalue, hbreak⟩ := hv.of_mem_pairs hm
    apply (exists_add_eq_ok_iff base pair.1 pair.2).2
    exact ⟨by rwa [HeaderName.trim_of_isValid hname], by rwa [hvalue]⟩
  obtain ⟨h', hp⟩ : ∃ h', ofPairs h.pairs = .ok h' := exists_foldlM hadd empty
  have hv' : h'.Valid := valid_empty.foldlM hp
  have he : h' = h := hv'.ext hv fun name => by rw [getAll_ofPairs hp, hv.getAll_eq]
  exact he ▸ hp

end Headers

end Courier
