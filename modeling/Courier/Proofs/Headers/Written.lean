import Courier.Proofs.Head.Encode
import Courier.Proofs.Headers.Edits
import Courier.Proofs.Line.Segments

/-!
# What edits keep

Edits are carried out one after the other, and one that is refused leaves the headers as they are
(`Edit.after`). What the headers are then is what those edits make that are not refused
(`Edit.afterAll_filter`), and they can be written: as lines that are not blank, one for each value,
each with a carriage return and a line feed behind it (`Valid.exists_lines`).
-/

namespace Courier

/-! ## Lines with their ends -/

namespace Line

/-- Written lines are cut into what they are written forms of, and nothing is left. -/
theorem cutAll_of_areWritten {bytes : Bytes} {texts : List String} (h : AreWritten bytes texts) :
    ∃ lines : List Line, cutAll bytes = (lines.map .ok, []) ∧ lines.map text = texts := by
  induction h with
  | nil =>
    refine ⟨[], ?_, rfl⟩
    rw [cutAll]
    rfl
  | @cons first rest text texts hw _ ih =>
    obtain ⟨lines, hcut, rfl⟩ := ih
    have hfirst : cut? (first ++ rest) = some (.ok ⟨text, first.length⟩, rest) :=
      cut?_eq_ok_iff.2 ⟨first, rfl, hw, rfl⟩
    refine ⟨⟨text, first.length⟩ :: lines, ?_, rfl⟩
    rw [cutAll_eq_of_cut? hfirst, hcut]
    rfl

end Line

namespace Headers

variable {h : Headers} {name : String}

/-! ## Names -/

theorem pairwise_names (h : Headers) : h.names.Pairwise (· < ·) :=
  List.pairwise_map.2 h.table.sorted

theorem mem_names_iff : name ∈ h.names ↔ ∃ values, h.table.get? name = some values := by
  simp only [names, Table.keys, List.mem_map, Prod.exists, exists_and_right, exists_eq_right,
    Table.get?_eq_some_iff]

theorem Valid.of_mem_names (hv : h.Valid) (hm : name ∈ h.names) :
    HeaderName.isValid name = true ∧ HeaderName.normal name = name ∧ h.getAll name ≠ [] ∧
      ∀ value ∈ h.getAll name, Text.trim value = value ∧ Text.hasLineBreak value = false := by
  obtain ⟨values, hg⟩ := mem_names_iff.1 hm
  obtain ⟨hname, hnormal, hvalues⟩ := hv name values hg
  have hall : h.getAll name = values := by rw [getAll, hnormal, hg, Option.getD_some]
  rw [hall]
  exact ⟨hname, hnormal, hvalues⟩

theorem size_eq_zero_iff : h.size = 0 ↔ h.isEmpty = true := by
  rw [size, Table.size, isEmpty, List.isEmpty_iff_length_eq_zero]

/-- Since every name has values, there is one if there is a name. -/
theorem Valid.valueCount_eq_zero_iff (hv : h.Valid) : h.valueCount = 0 ↔ h.isEmpty = true := by
  rw [valueCount, List.length_eq_zero_iff, pairs, List.flatMap_eq_nil_iff, isEmpty,
    List.isEmpty_iff]
  constructor
  · intro hnone
    apply List.eq_nil_iff_forall_not_mem.2
    intro entry hm
    exact (hv _ _ (Table.get?_eq_some_iff.2 hm)).2.2.1 (List.map_eq_nil_iff.1 (hnone entry hm))
  · intro hnil entry hm
    rw [hnil] at hm
    cases hm

/-! ## Header lines -/

theorem encode_renderPair (pair : String × String) :
    Utf8.encode (renderPair pair) = encodePair pair := by
  simp only [renderPair, encodePair, Utf8.encode_append]
  rfl

/-- The bytes that headers are written as are those of their text. -/
theorem encode_render (h : Headers) : Utf8.encode h.render = h.encode := by
  unfold render encode
  induction h.pairs with
  | nil => rfl
  | cons pair rest ih =>
    rw [List.map_cons, String.join_cons, Utf8.encode_append, encode_renderPair, ih,
      List.flatMap_cons]

theorem encodePair_eq (pair : String × String) :
    encodePair pair = Utf8.encode (lineOf pair) ++ Bytes.crlf := by
  simp only [lineOf, encodePair, Utf8.encode_append]

theorem lineOf_ne_empty (pair : String × String) : lineOf pair ≠ "" := by
  intro he
  simpa [lineOf, String.toList_append] using congrArg String.toList he

/-- Valid headers are written as one line for each value, none of them blank. -/
theorem Valid.exists_lines (hv : h.Valid) :
    ∃ lines : List Line, lines.length = h.valueCount ∧ (∀ line ∈ lines, line.isBlank = false) ∧
      h.encode = (lines.flatMap fun line => Utf8.encode line.text ++ Bytes.crlf) ∧
      Line.cutAll h.encode = (lines.map .ok, []) := by
  obtain ⟨lines, hcut, hlines⟩ := Line.cutAll_of_areWritten hv.areWritten_encode
  refine ⟨lines, ?_, ?_, ?_, hcut⟩
  · simpa only [valueCount, List.length_map] using congrArg List.length hlines
  · intro line hm
    have ht : line.text ∈ h.pairs.map lineOf := hlines ▸ List.mem_map_of_mem hm
    obtain ⟨pair, -, hpair⟩ := List.mem_map.1 ht
    rw [Line.isBlank, ← hpair, String.isEmpty_eq_false_iff]
    exact lineOf_ne_empty pair
  · have hbytes := congrArg (List.flatMap fun text => Utf8.encode text ++ Bytes.crlf) hlines
    rw [List.flatMap_map, List.flatMap_map] at hbytes
    rw [hbytes, encode, funext encodePair_eq]

/-! ## Edits that may be refused -/

namespace Edit

/-- Whether the edit is carried out. -/
def isAccepted : Edit → Bool
  | make pairs => pairs.all fun pair => accepts pair.1 pair.2
  | add name value | set name value => accepts name value
  | remove _ => true

/-- The headers behind the edit. -/
def after (edit : Edit) (h : Headers) : Headers :=
  match edit.apply h with
  | .ok h' => h'
  | .error _ => h

/-- The headers behind the edits. -/
def afterAll (edits : List Edit) (h : Headers) : Headers :=
  edits.foldl (fun h edit => edit.after h) h

theorem exists_apply_iff (edit : Edit) (h : Headers) :
    (∃ h', edit.apply h = .ok h') ↔ edit.isAccepted = true := by
  cases edit with
  | make pairs => exact (exists_ofPairs_iff pairs).trans List.all_eq_true.symm
  | add name value => exact (exists_add_eq_ok_iff h name value).trans accepts_iff.symm
  | set name value => exact (exists_set_eq_ok_iff h name value).trans accepts_iff.symm
  | remove name => exact iff_of_true ⟨_, rfl⟩ rfl

theorem after_of_not_isAccepted {edit : Edit} (ha : ¬ edit.isAccepted = true) (h : Headers) :
    edit.after h = h := by
  rw [← exists_apply_iff edit h, not_exists] at ha
  unfold after
  split
  · rename_i h' he
    exact absurd he (ha h')
  · rfl

/-- Edits that are refused may as well be left out. -/
theorem afterAll_filter (edits : List Edit) (h : Headers) :
    afterAll (edits.filter isAccepted) h = afterAll edits h := by
  induction edits generalizing h with
  | nil => rfl
  | cons edit rest ih =>
    by_cases ha : edit.isAccepted = true
    · rw [List.filter_cons_of_pos ha]
      exact ih (edit.after h)
    · rw [List.filter_cons_of_neg ha, ih h]
      exact congrArg (afterAll rest) (after_of_not_isAccepted ha h).symm

theorem reachable_after (hr : h.Reachable) (edit : Edit) : (edit.after h).Reachable := by
  unfold after
  split
  · exact reachable_apply hr ‹_›
  · exact hr

theorem reachable_afterAll (hr : h.Reachable) (edits : List Edit) :
    (afterAll edits h).Reachable := by
  induction edits generalizing h with
  | nil => exact hr
  | cons edit rest ih => exact ih (reachable_after hr edit)

end Edit

/-- Whatever edits with whatever texts headers come from: the names increase, each is a valid name
in its kept spelling and has values, and these have no padding and no line breaks. The written form
has the size that is told, is the same as bytes and as text, and consists of as many lines as there
are values, each with its end and none of them blank. There are no names if there are no values.
Another value is refused if its name is invalid, and else if it holds a line break, whether it is
added or set, and what is refused leaves no trace. -/
theorem edits_keep_form (edits : List Edit) :
    let h := Edit.afterAll edits empty
    h.names.Pairwise (· < ·) ∧
    (∀ name ∈ h.names,
      HeaderName.isValid name = true ∧ HeaderName.normal name = name ∧ h.getAll name ≠ [] ∧
        ∀ value ∈ h.getAll name, Text.trim value = value ∧ Text.hasLineBreak value = false) ∧
    (∀ name value error,
      (h.add name value = .error error ↔ Refuses name value error) ∧
        (h.set name value = .error error ↔ Refuses name value error)) ∧
    (∀ edit : Edit, (edit.isAccepted = true ↔ ∃ h', edit.apply h = .ok h') ∧
      ∀ error, edit.apply h = .error error → edit.after h = h) ∧
    h = Edit.afterAll (edits.filter Edit.isAccepted) empty ∧
    h.encodedSize = h.encode.length ∧
    h.encode = Utf8.encode h.render ∧
    (∃ lines : List Line, lines.length = h.valueCount ∧ (∀ line ∈ lines, line.isBlank = false) ∧
      h.encode = (lines.flatMap fun line => Utf8.encode line.text ++ Bytes.crlf) ∧
      Line.cutAll h.encode = (lines.map .ok, [])) ∧
    (h.isEmpty = true ↔ h.size = 0) ∧
    (h.isEmpty = true ↔ h.valueCount = 0) := by
  intro h
  have hv : h.Valid := (Edit.reachable_afterAll .empty edits).valid
  refine ⟨h.pairwise_names, fun name => hv.of_mem_names,
    fun name value error => ⟨add_eq_error_iff, set_eq_error_iff⟩,
    fun edit => ⟨(edit.exists_apply_iff h).symm, fun error he => ?_⟩,
    (Edit.afterAll_filter edits empty).symm, h.length_encode.symm, h.encode_render.symm,
    hv.exists_lines, size_eq_zero_iff.symm, hv.valueCount_eq_zero_iff.symm⟩
  rw [Edit.after, he]

end Headers

end Courier
