import Courier.Headers.Block
import Courier.Proofs.Headers.Name
import Courier.Proofs.Outcome
import Courier.Proofs.Text.Split

/-!
# Header lines

A header line is a name, a colon and a value; what it gives is both without padding
(`Headers.IsField`). A line is taken exactly when it has that form (`addLine_eq_ok_iff`,
`IsField.exists_add`), and the only other answer is that it is malformed
(`eq_malformed_of_addLine`).

After adding pairs one by one, the values of a name are those of the pairs that spell it, in the
order of the pairs (`getAll_ofPairs`).
-/

namespace Courier

/-! ## Line breaks -/

namespace Text

/-- Trimming brings in no line break. -/
theorem hasLineBreak_trim {s : String} (h : hasLineBreak s = false) :
    hasLineBreak (trim s) = false := by
  rw [hasLineBreak, List.any_eq_false] at h ⊢
  rw [toList_trim]
  exact fun c hc => h c (trimChars_subset _ hc)

theorem hasLineBreak_append (s t : String) :
    hasLineBreak (s ++ t) = (hasLineBreak s || hasLineBreak t) := by
  rw [hasLineBreak, String.toList_append, List.any_append]
  rfl

end Text

namespace Headers

/-! ## Adding a header -/

theorem checked_eq_ok_iff {name value : String} {kept : String × String} :
    checked name value = .ok kept ↔
      HeaderName.isValid (Text.trim name) = true ∧ Text.hasLineBreak (Text.trim value) = false ∧
        kept = (HeaderName.normal name, Text.trim value) := by
  simp only [checked, HeaderName.normal_trim]
  split_ifs with hn hv
  · simp_all
  · simp_all
  · rw [Except.ok.injEq, eq_comm]
    simp_all

/-- What is kept does not depend on padding. -/
theorem checked_trim (name value : String) :
    checked (Text.trim name) (Text.trim value) = checked name value := by
  rw [checked, checked, Text.trim_trim, Text.trim_trim]

theorem add_trim (h : Headers) (name value : String) :
    h.add (Text.trim name) (Text.trim value) = h.add name value := by
  rw [add, checked_trim, add]

theorem exists_checked_iff {name value : String} :
    (∃ kept, checked name value = .ok kept) ↔
      HeaderName.isValid (Text.trim name) = true ∧ Text.hasLineBreak (Text.trim value) = false := by
  simp [checked_eq_ok_iff]

theorem exists_add_eq_ok_iff (h : Headers) (name value : String) :
    (∃ h', h.add name value = .ok h') ↔
      HeaderName.isValid (Text.trim name) = true ∧ Text.hasLineBreak (Text.trim value) = false :=
  exists_map_eq_ok_iff.trans exists_checked_iff

theorem exists_set_eq_ok_iff (h : Headers) (name value : String) :
    (∃ h', h.set name value = .ok h') ↔
      HeaderName.isValid (Text.trim name) = true ∧ Text.hasLineBreak (Text.trim value) = false :=
  exists_map_eq_ok_iff.trans exists_checked_iff

/-! ## Adding pairs one by one -/

theorem getAll_foldlM {pairs : List (String × String)} {h h' : Headers}
    (hp : pairs.foldlM (fun h (pair : String × String) => h.add pair.1 pair.2) h = .ok h')
    (name : String) :
    h'.getAll name = h.getAll name ++
      (pairs.filter fun pair => HeaderName.normal pair.1 == HeaderName.normal name).map
        fun pair => Text.trim pair.2 := by
  induction pairs generalizing h with
  | nil =>
    cases hp
    exact (List.append_nil _).symm
  | cons pair rest ih =>
    obtain ⟨added, ha, hp⟩ := foldlM_cons_eq_ok_iff.1 hp
    rw [ih hp, getAll_add ha, List.filter_cons]
    by_cases hn : HeaderName.normal name = HeaderName.normal pair.1
    · simp [hn]
    · simp [hn, Ne.symm hn]

/-- The values of a name are those of the pairs that spell it, in their order. -/
theorem getAll_ofPairs {pairs : List (String × String)} {h : Headers} (hp : ofPairs pairs = .ok h)
    (name : String) :
    h.getAll name =
      (pairs.filter fun pair => HeaderName.normal pair.1 == HeaderName.normal name).map
        fun pair => Text.trim pair.2 :=
  getAll_foldlM hp name

/-! ## How many there are -/

theorem length_alterEntries (key value : String) (entries : List (String × List String)) :
    ((Table.alterEntries key (fun values => values.getD [] ++ [value]) entries).flatMap
        fun entry => entry.2.map (entry.1, ·)).length =
      (entries.flatMap fun entry => entry.2.map (entry.1, ·)).length + 1 := by
  induction entries with
  | nil => rfl
  | cons entry rest ih =>
    obtain ⟨name, values⟩ := entry
    rw [Table.alterEntries]
    split_ifs
    · simp
    · simp
      omega
    · rw [List.flatMap_cons, List.flatMap_cons, List.length_append, List.length_append, ih]
      omega

theorem valueCount_add {h h' : Headers} {name value : String} (ha : h.add name value = .ok h') :
    h'.valueCount = h.valueCount + 1 := by
  rw [eq_of_add_eq_ok ha]
  exact length_alterEntries ..

theorem valueCount_foldlM {pairs : List (String × String)} {h h' : Headers}
    (hp : pairs.foldlM (fun h (pair : String × String) => h.add pair.1 pair.2) h = .ok h') :
    h'.valueCount = h.valueCount + pairs.length := by
  induction pairs generalizing h with
  | nil =>
    cases hp
    rfl
  | cons pair rest ih =>
    obtain ⟨added, ha, hp⟩ := foldlM_cons_eq_ok_iff.1 hp
    rw [ih hp, valueCount_add ha, List.length_cons]
    omega

/-! ## Header lines -/

/-- The line gives the field: what stands before its first colon, which names a header, and what
stands behind it, both without padding. Such a line is not blank. -/
def IsField (line : String) (field : String × String) : Prop :=
  ∃ name value, line = name ++ ":" ++ value ∧ ':' ∉ name.toList ∧
    field = (Text.trim name, Text.trim value) ∧ HeaderName.isValid field.1 = true

theorem IsField.trim_fst {line : String} {field : String × String} (h : IsField line field) :
    Text.trim field.1 = field.1 := by
  obtain ⟨name, value, -, -, rfl, -⟩ := h
  exact Text.trim_trim name

theorem IsField.trim_snd {line : String} {field : String × String} (h : IsField line field) :
    Text.trim field.2 = field.2 := by
  obtain ⟨name, value, -, -, rfl, -⟩ := h
  exact Text.trim_trim value

theorem IsField.ne_empty {line : String} {field : String × String} (h : IsField line field) :
    line ≠ "" := by
  obtain ⟨name, value, rfl, -⟩ := h
  intro he
  simpa [String.toList_append] using congrArg String.toList he

/-- What a line that is taken adds is the field that it gives. -/
theorem addLine_eq_ok_iff {headers headers' : Headers} {line : String} :
    HeaderBlock.Progress.addLine headers line = .ok headers' ↔
      ∃ field, IsField line field ∧ headers.add field.1 field.2 = .ok headers' := by
  unfold HeaderBlock.Progress.addLine
  constructor
  · intro h
    split at h
    · cases h
    · rename_i name value hs
      obtain ⟨hl, hc⟩ := Text.splitOnce_eq_some_iff.1 hs
      split at h
      · rename_i added ha
        cases h
        have hn := ((exists_add_eq_ok_iff ..).1 ⟨_, ha⟩).1
        exact ⟨_, ⟨name, value, hl, hc, rfl, hn⟩, by rw [add_trim]; exact ha⟩
      · cases h
  · rintro ⟨_, ⟨name, value, hl, hc, rfl, hn⟩, ha⟩
    have hs : Text.splitOnce ':' line = some (name, value) :=
      Text.splitOnce_eq_some_iff.2 ⟨hl, hc⟩
    rw [add_trim] at ha
    simp only [hs, ha]

/-- The field of a line without line breaks can be added to any headers. -/
theorem IsField.exists_add {line : String} {field : String × String} (h : IsField line field)
    (hb : Text.hasLineBreak line = false) (headers : Headers) :
    ∃ headers', headers.add field.1 field.2 = .ok headers' := by
  obtain ⟨name, value, rfl, -, rfl, hn⟩ := h
  rw [Text.hasLineBreak_append, Bool.or_eq_false_iff] at hb
  rw [add_trim]
  exact (exists_add_eq_ok_iff headers name value).2 ⟨hn, Text.hasLineBreak_trim hb.2⟩

theorem eq_malformed_of_addLine {headers : Headers} {line : String} {error : ReceiveError}
    (h : HeaderBlock.Progress.addLine headers line = .error error) :
    error = .malformedHeader line := by
  unfold HeaderBlock.Progress.addLine at h
  split at h
  · cases h; rfl
  · split at h
    · cases h
    · cases h; rfl

end Headers

end Courier
