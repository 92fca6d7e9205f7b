import Courier.Proofs.Headers.Valid

/-!
# Headers as lists of values

Headers are made from pairs, and changed by adding, setting and removing (`Headers.Edit`). What this
leaves under a name is told by the edits alone: of those that have to do with the name, in any
spelling, the last one that does away with its values and the additions behind that
(`Edit.getAll_applyAll_append`). So it does not matter how edits of different names are mixed, and
pairs that give each name the same values make the same headers (`ofPairs_congr`).
-/

namespace Courier.Headers

/-! ## Refused headers -/

/-- Whether a name and a value may be kept, padding aside. -/
def accepts (name value : String) : Bool :=
  HeaderName.isValid (Text.trim name) && !Text.hasLineBreak (Text.trim value)

theorem accepts_iff {name value : String} :
    accepts name value = true ↔
      HeaderName.isValid (Text.trim name) = true ∧ Text.hasLineBreak (Text.trim value) = false := by
  simp [accepts]

/-- Why a name and a value may not be kept: the name comes first. -/
def Refuses (name value : String) : Error → Prop
  | .invalidName shown =>
    HeaderName.isValid (Text.trim name) = false ∧ Text.trim name = shown
  | .invalidValue shown =>
    HeaderName.isValid (Text.trim name) = true ∧ Text.hasLineBreak (Text.trim value) = true ∧
      HeaderName.normal name = shown

theorem checked_eq_error_iff {name value : String} {error : Error} :
    checked name value = .error error ↔ Refuses name value error := by
  simp only [checked, HeaderName.normal_trim]
  cases hn : HeaderName.isValid (Text.trim name) <;>
    cases hv : Text.hasLineBreak (Text.trim value) <;> cases error <;> simp [Refuses, hn, hv]

theorem add_eq_error_iff {h : Headers} {name value : String} {error : Error} :
    h.add name value = .error error ↔ Refuses name value error :=
  map_eq_error_iff.trans checked_eq_error_iff

theorem set_eq_error_iff {h : Headers} {name value : String} {error : Error} :
    h.set name value = .error error ↔ Refuses name value error :=
  map_eq_error_iff.trans checked_eq_error_iff

/-- Pairs make headers if each of them may be kept. -/
theorem exists_foldlM_add_iff (h : Headers) (pairs : List (String × String)) :
    (∃ h', pairs.foldlM (fun h (pair : String × String) => h.add pair.1 pair.2) h = .ok h') ↔
      ∀ pair ∈ pairs, accepts pair.1 pair.2 = true := by
  induction pairs generalizing h with
  | nil => exact iff_of_true ⟨h, rfl⟩ nofun
  | cons pair rest ih =>
    rw [List.forall_mem_cons, accepts_iff, ← exists_add_eq_ok_iff h]
    constructor
    · rintro ⟨h', hp⟩
      obtain ⟨added, ha, hp⟩ := foldlM_cons_eq_ok_iff.1 hp
      exact ⟨⟨added, ha⟩, (ih added).1 ⟨h', hp⟩⟩
    · rintro ⟨⟨added, ha⟩, hrest⟩
      obtain ⟨h', hp⟩ := (ih added).2 hrest
      exact ⟨h', foldlM_cons_eq_ok_iff.2 ⟨added, ha, hp⟩⟩

theorem exists_ofPairs_iff (pairs : List (String × String)) :
    (∃ h, ofPairs pairs = .ok h) ↔ ∀ pair ∈ pairs, accepts pair.1 pair.2 = true :=
  exists_foldlM_add_iff empty pairs

/-! ## Values of a name -/

/-- The values that pairs give a name in any of its spellings, in their order. -/
def valuesOf (name : String) (pairs : List (String × String)) : List String :=
  (pairs.filter fun pair => HeaderName.same pair.1 name).map fun pair => Text.trim pair.2

theorem mem_valuesOf_iff {name value : String} {pairs : List (String × String)} :
    value ∈ valuesOf name pairs ↔
      ∃ pair ∈ pairs, HeaderName.same pair.1 name = true ∧ Text.trim pair.2 = value := by
  simp only [valuesOf, List.mem_map, List.mem_filter, and_assoc]

theorem valuesOf_singleton (name : String) (pair : String × String) :
    valuesOf name [pair] =
      if HeaderName.normal name = HeaderName.normal pair.1 then [Text.trim pair.2] else [] := by
  by_cases hn : HeaderName.normal name = HeaderName.normal pair.1
  · simp [valuesOf, HeaderName.same_eq_beq, hn]
  · simp [valuesOf, HeaderName.same_eq_beq, hn, Ne.symm hn]

theorem getAll_eq_valuesOf {pairs : List (String × String)} {h : Headers}
    (hp : ofPairs pairs = .ok h) (name : String) : h.getAll name = valuesOf name pairs := by
  simp only [getAll_ofPairs hp, valuesOf, HeaderName.same_eq_beq]

/-! ## Edits -/

/-- What is done to headers. -/
inductive Edit where
  | make (pairs : List (String × String))
  | add (name value : String)
  | set (name value : String)
  | remove (name : String)
deriving Repr, DecidableEq

namespace Edit

/-- The headers with the edit, unless it is refused. -/
def apply : Edit → Headers → Except Error Headers
  | make pairs, _ => ofPairs pairs
  | add name value, h => h.add name value
  | set name value, h => h.set name value
  | remove name, h => .ok (h.remove name)

/-- The edit has to do with the values of the name. -/
def Touches (name : String) : Edit → Prop
  | make _ => True
  | add other _ | set other _ | remove other => HeaderName.same other name = true

/-- The edit does away with the values that the name had. -/
def Resets (name : String) : Edit → Prop
  | make _ => True
  | add _ _ => False
  | set other _ | remove other => HeaderName.same other name = true

instance (name : String) : DecidablePred (Resets name)
  | make _ => inferInstanceAs (Decidable True)
  | add _ _ => inferInstanceAs (Decidable False)
  | set other _ | remove other => inferInstanceAs (Decidable (HeaderName.same other name = true))

/-- The values that the edit brings to the name. -/
def gives (name : String) : Edit → List String
  | make pairs => valuesOf name pairs
  | add other value | set other value => valuesOf name [(other, value)]
  | remove _ => []

variable {edit : Edit} {edits : List Edit} {h h' : Headers} {name : String}

theorem getAll_of_resets (ha : edit.apply h = .ok h') (hr : edit.Resets name) :
    h'.getAll name = edit.gives name := by
  cases edit with
  | make pairs => exact getAll_eq_valuesOf ha name
  | add other value => exact hr.elim
  | set other value =>
    have hn := (HeaderName.same_iff.1 hr).symm
    rw [getAll_set ha, if_pos hn, gives, valuesOf_singleton, if_pos hn]
  | remove other =>
    cases ha
    rw [getAll_remove, if_pos (HeaderName.same_iff.1 hr).symm]
    rfl

theorem getAll_of_not_resets (ha : edit.apply h = .ok h') (hr : ¬ edit.Resets name) :
    h'.getAll name = h.getAll name ++ edit.gives name := by
  cases edit with
  | make pairs => exact absurd trivial hr
  | add other value =>
    rw [getAll_add ha, gives, valuesOf_singleton]
    split_ifs
    · rfl
    · exact (List.append_nil _).symm
  | set other value =>
    have hn := mt Eq.symm (mt HeaderName.same_iff.2 hr)
    rw [getAll_set ha, if_neg hn, gives, valuesOf_singleton, if_neg hn, List.append_nil]
  | remove other =>
    cases ha
    rw [getAll_remove, if_neg (mt Eq.symm (mt HeaderName.same_iff.2 hr))]
    exact (List.append_nil _).symm

theorem touches_of_resets (hr : edit.Resets name) : edit.Touches name := by
  cases edit with
  | make pairs => trivial
  | add other value => exact hr.elim
  | set other value | remove other => exact hr

/-- An edit that has nothing to do with a name leaves its values. -/
theorem getAll_of_not_touches (ha : edit.apply h = .ok h') (ht : ¬ edit.Touches name) :
    h'.getAll name = h.getAll name := by
  have hgives : edit.gives name = [] := by
    cases edit with
    | make pairs => exact absurd trivial ht
    | add other value | set other value =>
      rw [gives, valuesOf_singleton, if_neg (mt Eq.symm (mt HeaderName.same_iff.2 ht))]
    | remove other => rfl
  rw [getAll_of_not_resets ha (mt touches_of_resets ht), hgives, List.append_nil]

/-! ## Runs of edits -/

/-- The headers with the edits, unless one of them is refused. -/
def applyAll (edits : List Edit) (h : Headers) : Except Error Headers :=
  edits.foldlM (fun h edit => edit.apply h) h

/-- Edits that only add to a name put their values behind those that it had. -/
theorem getAll_applyAll (ha : applyAll edits h = .ok h')
    (hr : ∀ edit ∈ edits, ¬ edit.Resets name) :
    h'.getAll name = h.getAll name ++ edits.flatMap (gives name) := by
  induction edits generalizing h with
  | nil =>
    cases ha
    simp
  | cons edit rest ih =>
    obtain ⟨next, hnext, hrest⟩ := foldlM_cons_eq_ok_iff.1 ha
    obtain ⟨hfirst, hr⟩ := List.forall_mem_cons.1 hr
    rw [ih hrest hr, getAll_of_not_resets hnext hfirst, List.flatMap_cons, List.append_assoc]

/-- The last edit that does away with the values of a name, and those behind it, tell its values. -/
theorem getAll_applyAll_append {before after : List Edit} {last : Edit}
    (ha : applyAll (before ++ last :: after) h = .ok h') (hlast : last.Resets name)
    (hr : ∀ edit ∈ after, ¬ edit.Resets name) :
    h'.getAll name = last.gives name ++ after.flatMap (gives name) := by
  obtain ⟨next, -, ha⟩ := foldlM_append_eq_ok_iff.1 ha
  obtain ⟨reset, hreset, ha⟩ := foldlM_cons_eq_ok_iff.1 ha
  rw [getAll_applyAll ha hr, getAll_of_resets hreset hlast]

theorem reachable_apply (hr : h.Reachable) (ha : edit.apply h = .ok h') : h'.Reachable := by
  cases edit with
  | make pairs => exact .ofPairs ha
  | add name value => exact hr.add ha
  | set name value => exact hr.set ha
  | remove name =>
    cases ha
    exact hr.remove name

theorem reachable_applyAll (hr : h.Reachable) (ha : applyAll edits h = .ok h') :
    h'.Reachable :=
  foldlM_keeps hr (fun _ _ _ _ hr ha => reachable_apply hr ha) ha

end Edit

/-! ## Headers that edits make -/

theorem Valid.contains_iff {h : Headers} (hv : h.Valid) (name : String) :
    h.contains name = true ↔ h.getAll name ≠ [] := by
  rw [contains, getAll]
  cases hg : h.table.get? (HeaderName.normal name) with
  | none => simp
  | some values => simpa using (hv _ _ hg).2.2.1

/-- Pairs that give each name the same values make the same headers. -/
theorem ofPairs_congr {pairs pairs' : List (String × String)} {h : Headers}
    (hp : ofPairs pairs = .ok h) (hsame : ∀ name, valuesOf name pairs = valuesOf name pairs') :
    ofPairs pairs' = .ok h := by
  have haccepts : ∀ pair ∈ pairs', accepts pair.1 pair.2 = true := by
    intro pair hm
    have hvalue : Text.trim pair.2 ∈ valuesOf pair.1 pairs := by
      rw [hsame]
      exact mem_valuesOf_iff.2 ⟨pair, hm, HeaderName.same_iff.2 rfl, rfl⟩
    obtain ⟨other, ho, hname, hvalue⟩ := mem_valuesOf_iff.1 hvalue
    have hother := (exists_ofPairs_iff pairs).1 ⟨h, hp⟩ other ho
    -- Whether a name is valid depends on its kept spelling only.
    rw [accepts, ← HeaderName.isValid_normal_eq, HeaderName.same_iff.1 hname, hvalue,
      HeaderName.isValid_normal_eq] at hother
    exact hother
  obtain ⟨h', hp'⟩ := (exists_ofPairs_iff pairs').2 haccepts
  have he : h' = h := by
    refine (valid_empty.foldlM hp').ext (valid_empty.foldlM hp) fun name => ?_
    rw [getAll_eq_valuesOf hp', getAll_eq_valuesOf hp, hsame]
  rw [hp', he]

/-- Two texts have one kept spelling if they differ in padding and in the case of ASCII letters
only, and a kept spelling is its own. Of edits none of which is refused, the values of a name are
those that the last edit gives it that does away with its values, and behind them those that are
added to it after that, in their order; the first of them is the one that is found, and the name is
there if it has any. An edit that has to do with other names only changes nothing about it. So pairs
that give each name the same values in the same order make the same headers, however the names are
mixed, and these are written as the same bytes. -/
theorem edits_tell_values :
    (∀ a b, HeaderName.normal a = HeaderName.normal b ↔
      Text.sameFold (Text.trim a) (Text.trim b) = true) ∧
    (∀ name, HeaderName.normal (HeaderName.normal name) = HeaderName.normal name) ∧
    (∀ (edits : List Edit) (h : Headers), Edit.applyAll edits empty = .ok h → ∀ name,
      ((∀ edit ∈ edits, ¬ edit.Resets name) → h.getAll name = edits.flatMap (Edit.gives name)) ∧
      (∀ before last after, edits = before ++ last :: after → last.Resets name →
        (∀ edit ∈ after, ¬ edit.Resets name) →
        h.getAll name = last.gives name ++ after.flatMap (Edit.gives name)) ∧
      h.get? name = (h.getAll name).head? ∧
      (h.contains name = true ↔ h.getAll name ≠ []) ∧
      ∀ (edit : Edit) (h' : Headers), edit.apply h = .ok h' → ¬ edit.Touches name →
        h'.getAll name = h.getAll name ∧ h'.get? name = h.get? name ∧
          h'.contains name = h.contains name) ∧
    ∀ pairs pairs', (∀ name, valuesOf name pairs = valuesOf name pairs') →
      ((∃ h, ofPairs pairs = .ok h) ↔ ∃ h, ofPairs pairs' = .ok h) ∧
      ∀ h h', ofPairs pairs = .ok h → ofPairs pairs' = .ok h' → h = h' ∧ h.encode = h'.encode := by
  refine ⟨fun a b => HeaderName.normal_eq_iff, HeaderName.normal_normal, ?_, ?_⟩
  · intro edits h ha name
    have hr := Edit.reachable_applyAll .empty ha
    refine ⟨fun hadds => ?_, ?_, rfl, hr.valid.contains_iff name, fun edit h' hedit ht => ?_⟩
    · rw [Edit.getAll_applyAll ha hadds, getAll_empty, List.nil_append]
    · rintro before last after rfl hlast hadds
      exact Edit.getAll_applyAll_append ha hlast hadds
    · have hall := Edit.getAll_of_not_touches hedit ht
      have hr' := Edit.reachable_apply hr hedit
      refine ⟨hall, congrArg List.head? hall, ?_⟩
      rw [Bool.eq_iff_iff, hr'.valid.contains_iff, hr.valid.contains_iff, hall]
  · intro pairs pairs' hsame
    have hsame' := fun name => (hsame name).symm
    refine ⟨⟨fun ⟨h, hp⟩ => ⟨h, ofPairs_congr hp hsame⟩,
      fun ⟨h, hp⟩ => ⟨h, ofPairs_congr hp hsame'⟩⟩, fun h h' hp hp' => ?_⟩
    rw [ofPairs_congr hp hsame] at hp'
    obtain rfl := Except.ok.inj hp'
    exact ⟨rfl, rfl⟩

/-- A name is added to, set, and added to again, each time in another spelling, and another name
is removed. -/
theorem edits_tell_values_of_spellings :
    let edits : List Edit :=
      [.add "host" "a", .add "Accept" "b", .set " HOST" " c ", .add "hOsT " "d", .remove "accept"]
    ∃ h, Edit.applyAll edits empty = .ok h ∧
      h.getAll "Host" = ["c", "d"] ∧ h.getAll "ACCEPT" = [] := by
  intro edits
  obtain ⟨h, ha⟩ : ∃ h, Edit.applyAll edits empty = .ok h := ⟨_, rfl⟩
  have htell := edits_tell_values.2.2.1 edits h ha
  refine ⟨h, ha, ?_, ?_⟩
  · rw [(htell "Host").2.1 (edits.take 2) (.set " HOST" " c ") (edits.drop 3) rfl
      (by decide +kernel) (by decide +kernel)]
    decide +kernel
  · rw [(htell "ACCEPT").2.1 (edits.take 4) (.remove "accept") [] rfl (by decide +kernel) nofun]
    rfl

end Courier.Headers
