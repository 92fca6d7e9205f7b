import Courier.App
import Courier.Proofs.Line
import Courier.Proofs.Headers.Field

/-!
# Keys and entries in writing

What the bodies of requests to the store hold, told by their characters: a key has blanks around it
(`Names`), and an entry is such a key, an equals sign and a text, with line breaks behind
(`IsEntry`). A body is read as what it holds (`requestKey_of_names`, `requestEntry_of_isEntry`), and
one that holds nothing of the kind is refused for the first thing that is wrong with it
(`IsNoKey.requestKey`, `IsNoEntry.requestEntry`).
-/

namespace Courier

namespace App

open Text

/-! ## Keys -/

/-- What can be a key: a text on one line that is not empty and has no equals sign. -/
def IsKey (key : String) : Prop :=
  key ≠ "" ∧ '=' ∉ key.toList ∧ hasLineBreak key = false

/-- The text is the key with blanks around it. -/
def Names (text key : String) : Prop :=
  IsTrimOf key text ∧ IsKey key

theorem parseKey_of_trim {text part : String} (h : IsTrimOf part text) :
    (IsKey part → parseKey text = .ok part) ∧
      (¬ IsKey part → parseKey text = .error (.badRequest ("invalid key " ++ quote part))) := by
  have hbad : (part.isEmpty || part.toList.contains '=' || hasLineBreak part) = true ↔
      ¬ IsKey part := by
    rw [IsKey]
    simp only [Bool.or_eq_true, String.isEmpty_iff, List.contains_iff_mem, ← Bool.not_eq_true]
    tauto
  rw [parseKey, trim_eq_iff.2 h]
  exact ⟨fun hk => if_neg fun hb => hbad.1 hb hk, fun hk => if_pos (hbad.2 hk)⟩

theorem parseKey_eq_ok_iff {text key : String} : parseKey text = .ok key ↔ Names text key := by
  have ht : IsTrimOf (trim text) text := trim_eq_iff.1 rfl
  constructor
  · intro h
    by_cases hk : IsKey (trim text)
    · rw [(parseKey_of_trim ht).1 hk] at h
      cases h
      exact ⟨ht, hk⟩
    · rw [(parseKey_of_trim ht).2 hk] at h
      cases h
  · rintro ⟨h, hk⟩
    exact (parseKey_of_trim h).1 hk

/-! ## Entries -/

/-- The texts stand on both sides of the first equals sign, and line breaks behind the second. -/
def IsCut (text left right : String) : Prop :=
  ∃ breaks : List Char, text.toList = left.toList ++ '=' :: right.toList ++ breaks ∧
    '=' ∉ left.toList ∧ (∀ c ∈ breaks, c = '\r' ∨ c = '\n') ∧
    ∀ c ∈ right.toList.getLast?, c ≠ '\r' ∧ c ≠ '\n'

/-- The text is an entry: a key, an equals sign and one line, with line breaks behind. -/
def IsEntry (text key value : String) : Prop :=
  ∃ left, IsCut text left value ∧ hasLineBreak value = false ∧ Names left key

theorem splitOnce_dropLineBreaks_eq_some_iff {text left right : String} :
    splitOnce '=' (dropLineBreaks text) = some (left, right) ↔ IsCut text left right := by
  have hend (c : Char) : (c == '\r' || c == '\n') = true ↔ c = '\r' ∨ c = '\n' := by simp
  have hlast (c : Char) : (c == '\r' || c == '\n') = false ↔ c ≠ '\r' ∧ c ≠ '\n' := by simp
  rw [splitOnce_eq_some_iff, ← String.toList_inj, dropLineBreaks, String.toList_ofList,
    dropEnd_eq_iff, IsCut]
  simp only [String.toList_append, String.toList_singleton, hend, hlast]
  constructor
  · rintro ⟨⟨breaks, ht, hb, hl⟩, hn⟩
    refine ⟨breaks, by simpa using ht, hn, hb, fun c hc => hl c ?_⟩
    rw [List.getLast?_append, Option.mem_def.1 hc]
    rfl
  · rintro ⟨breaks, ht, hn, hb, hl⟩
    refine ⟨⟨breaks, by simpa using ht, hb, fun c hc => ?_⟩, hn⟩
    rw [List.getLast?_append] at hc
    cases hr : right.toList.getLast? with
    | some last =>
      rw [hr] at hc
      cases hc
      exact hl c hr
    | none =>
      rw [hr] at hc
      simp only [Option.none_or, List.getLast?_append, List.getLast?_singleton, Option.some_or,
        Option.mem_def, Option.some.injEq] at hc
      subst hc
      decide

theorem splitOnce_dropLineBreaks_eq_none_iff {text : String} :
    splitOnce '=' (dropLineBreaks text) = none ↔ '=' ∉ text.toList := by
  obtain ⟨breaks, ht, hb, -⟩ := dropEnd_eq_iff.1
    (rfl : dropEnd (fun c => c == '\r' || c == '\n') text.toList = _)
  rw [splitOnce, Option.map_eq_none_iff, splitOnceChars_eq_none_iff, dropLineBreaks,
    String.toList_ofList]
  constructor
  · intro hn hm
    rw [ht] at hm
    rcases List.mem_append.1 hm with hm | hm
    · exact hn hm
    · exact absurd (hb _ hm) (by decide)
  · exact fun hn hm => hn ((dropEnd_isPrefix _ _).mem hm)

theorem parseEntry_of_isCut {text left right : String} (h : IsCut text left right) :
    parseEntry text =
      if hasLineBreak right = true then .error (.badRequest "value must be a single line")
      else (parseKey left).map fun key => (key, right) := by
  rw [parseEntry, splitOnce_dropLineBreaks_eq_some_iff.2 h]

/-! ## Bodies -/

/-- What is wrong with a body that should be a text. -/
inductive IsNoText (body : Bytes) : String → Prop
  | mk {fault : Utf8.Fault} : Utf8.decode body = .error fault →
      IsNoText body ("body is not utf-8: " ++ fault.message)

/-- What is wrong with a text that should name a key. -/
inductive NamesNoKey (text : String) : String → Prop
  | mk {part : String} : IsTrimOf part text → ¬ IsKey part →
      NamesNoKey text ("invalid key " ++ quote part)

/-- What is wrong with a body that should name a key. -/
inductive IsNoKey (body : Bytes) : String → Prop
  | noText {reason : String} : IsNoText body reason → IsNoKey body reason
  | noKey {text reason : String} : body = Utf8.encode text → NamesNoKey text reason →
      IsNoKey body reason

/-- What is wrong with a body that should be an entry. -/
inductive IsNoEntry (body : Bytes) : String → Prop
  | noText {reason : String} : IsNoText body reason → IsNoEntry body reason
  | noSign {text : String} : body = Utf8.encode text → '=' ∉ text.toList →
      IsNoEntry body "expected key=value"
  | noLine {text left right : String} : body = Utf8.encode text → IsCut text left right →
      hasLineBreak right = true → IsNoEntry body "value must be a single line"
  | noKey {text left right reason : String} : body = Utf8.encode text → IsCut text left right →
      hasLineBreak right = false → NamesNoKey left reason → IsNoEntry body reason

theorem bodyText_bind_of_encode {α : Type} {request : Request} {text : String}
    (h : request.body = Utf8.encode text) (parse : String → Except HandlerError α) :
    request.bodyText >>= parse = parse text := by
  rw [Request.bodyText, Utf8.decode_eq_ok_iff.2 h]
  rfl

theorem IsNoText.bodyText_bind {α : Type} {request : Request} {reason : String}
    (h : IsNoText request.body reason) (parse : String → Except HandlerError α) :
    request.bodyText >>= parse = .error (.badRequest reason) := by
  obtain ⟨h⟩ := h
  rw [Request.bodyText, h]
  rfl

/-- A body is a text, or something is wrong with it. -/
theorem exists_text (body : Bytes) :
    (∃ text, body = Utf8.encode text) ∨ ∃ reason, IsNoText body reason := by
  cases h : Utf8.decode body with
  | ok text => exact .inl ⟨text, Utf8.decode_eq_ok_iff.1 h⟩
  | error fault => exact .inr ⟨_, .mk h⟩

theorem NamesNoKey.parseKey {text reason : String} (h : NamesNoKey text reason) :
    parseKey text = .error (.badRequest reason) := by
  obtain ⟨ht, hk⟩ := h
  exact (parseKey_of_trim ht).2 hk

/-- A text names a key, or something is wrong with it. -/
theorem exists_names (text : String) :
    (∃ key, Names text key) ∨ ∃ reason, NamesNoKey text reason := by
  have ht : IsTrimOf (trim text) text := trim_eq_iff.1 rfl
  by_cases hk : IsKey (trim text)
  · exact .inl ⟨_, ht, hk⟩
  · exact .inr ⟨_, .mk ht hk⟩

/-! ### Bodies that name a key -/

theorem requestKey_of_names {request : Request} {text key : String}
    (hb : request.body = Utf8.encode text) (h : Names text key) : requestKey request = .ok key := by
  rw [requestKey, bodyText_bind_of_encode hb, parseKey_eq_ok_iff.2 h]

theorem IsNoKey.requestKey {request : Request} {reason : String}
    (h : IsNoKey request.body reason) : requestKey request = .error (.badRequest reason) := by
  cases h with
  | noText h => rw [App.requestKey, h.bodyText_bind]
  | noKey hb h => rw [App.requestKey, bodyText_bind_of_encode hb, h.parseKey]

/-- A body names a key, or something is wrong with it. -/
theorem exists_key (body : Bytes) :
    (∃ text key, body = Utf8.encode text ∧ Names text key) ∨ ∃ reason, IsNoKey body reason := by
  rcases exists_text body with ⟨text, hb⟩ | ⟨reason, h⟩
  · rcases exists_names text with ⟨key, h⟩ | ⟨reason, h⟩
    · exact .inl ⟨text, key, hb, h⟩
    · exact .inr ⟨reason, .noKey hb h⟩
  · exact .inr ⟨reason, .noText h⟩

/-! ### Bodies that are entries -/

theorem requestEntry_of_isEntry {request : Request} {text key value : String}
    (hb : request.body = Utf8.encode text) (h : IsEntry text key value) :
    request.bodyText >>= parseEntry = .ok (key, value) := by
  obtain ⟨left, hc, hv, hk⟩ := h
  rw [bodyText_bind_of_encode hb, parseEntry_of_isCut hc, hv, parseKey_eq_ok_iff.2 hk]
  rfl

theorem IsNoEntry.requestEntry {request : Request} {reason : String}
    (h : IsNoEntry request.body reason) :
    request.bodyText >>= parseEntry = .error (.badRequest reason) := by
  cases h with
  | noText h => exact h.bodyText_bind parseEntry
  | noSign hb hn =>
    rw [bodyText_bind_of_encode hb, parseEntry, splitOnce_dropLineBreaks_eq_none_iff.2 hn]
  | noLine hb hc hv => rw [bodyText_bind_of_encode hb, parseEntry_of_isCut hc, hv, if_pos rfl]
  | noKey hb hc hv hk =>
    rw [bodyText_bind_of_encode hb, parseEntry_of_isCut hc, hv, hk.parseKey]
    rfl

/-- A body is an entry, or something is wrong with it. -/
theorem exists_entry (body : Bytes) :
    (∃ text key value, body = Utf8.encode text ∧ IsEntry text key value) ∨
      ∃ reason, IsNoEntry body reason := by
  rcases exists_text body with ⟨text, hb⟩ | ⟨reason, h⟩
  · cases hs : splitOnce '=' (dropLineBreaks text) with
    | none => exact .inr ⟨_, .noSign hb (splitOnce_dropLineBreaks_eq_none_iff.1 hs)⟩
    | some parts =>
      have hc := splitOnce_dropLineBreaks_eq_some_iff.1 hs
      cases hv : hasLineBreak parts.2 with
      | true => exact .inr ⟨_, .noLine hb hc hv⟩
      | false =>
        rcases exists_names parts.1 with ⟨key, h⟩ | ⟨reason, h⟩
        · exact .inl ⟨text, key, parts.2, hb, parts.1, hc, hv, h⟩
        · exact .inr ⟨reason, .noKey hb hc hv h⟩
  · exact .inr ⟨reason, .noText h⟩

end App

end Courier
