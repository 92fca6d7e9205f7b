import Courier.Message.Draft
import Courier.Proofs.Head.Encode

/-!
# Messages that drafts make

The head of a message that a draft made is written within its own size, as one of its written forms
(`Built.isWritten_encode`), and declares the bytes that the message has. Any bytes can be the body,
if their number can be declared (`Draft.exists_body`).
-/

namespace Courier

namespace Draft

theorem header_eq_ok_iff {draft made : Draft} {name value : String} :
    draft.header name value = .ok made ↔
      made.statusLine = draft.statusLine ∧ draft.headers.add name value = .ok made.headers := by
  obtain ⟨line, headers⟩ := made
  unfold header
  cases draft.headers.add name value with
  | error error => simp
  | ok added => simp [eq_comm]

theorem foldlM_header_eq_ok_iff {draft made : Draft} {pairs : List (String × String)} :
    pairs.foldlM (fun draft (pair : String × String) => header draft pair.1 pair.2) draft =
        .ok made ↔
      made.statusLine = draft.statusLine ∧
        pairs.foldlM (fun h (pair : String × String) => h.add pair.1 pair.2) draft.headers =
          .ok made.headers := by
  induction pairs generalizing draft with
  | nil =>
    obtain ⟨line, headers⟩ := made
    obtain ⟨line', headers'⟩ := draft
    simp [pure, Except.pure, eq_comm]
  | cons pair rest ih =>
    simp only [foldlM_cons_eq_ok_iff, header_eq_ok_iff, ih]
    constructor
    · rintro ⟨next, ⟨hs, ha⟩, hs', hr⟩
      exact ⟨hs'.trans hs, next.headers, ha, hr⟩
    · rintro ⟨hs, headers, ha, hr⟩
      exact ⟨{ draft with headers }, ⟨rfl, ha⟩, hs, hr⟩

/-- A draft with headers is a line, and the headers that they make. -/
theorem ofPairs_eq_ok_iff {statusLine : String} {pairs : List (String × String)} {draft : Draft} :
    ofPairs statusLine pairs = .ok draft ↔
      Text.hasLineBreak statusLine = false ∧ draft.statusLine = statusLine ∧
        Headers.ofPairs pairs = .ok draft.headers := by
  rw [ofPairs, bind_eq_ok_iff]
  unfold start
  split_ifs with hl
  · simp [hl]
  · simp only [Except.ok.injEq, exists_eq_left', foldlM_header_eq_ok_iff]
    exact ⟨fun h => ⟨Bool.eq_false_iff.2 hl, h⟩, fun h => h.2⟩

theorem length_encode_toHead (draft : Draft) (length : Option Nat) :
    (draft.toHead length).size = (draft.toHead length).encode.length := by
  simp only [toHead, Head.encode, List.length_append, Headers.length_encode, Utf8.size]
  rfl

/-- What is streamed declares its length in place of any other. -/
theorem exists_set_of_streaming {draft : Draft} {source : Source} {length : Nat}
    {outgoing : Outgoing} (h : draft.streaming source length = .ok outgoing) :
    length ≤ Numeral.maxSigned ∧
      ∃ headers, draft.headers.set DeclaredLength.header (toString length) = .ok headers ∧
        outgoing =
          { message :=
              { head := { draft with headers }.toHead (some length), body := { length } }
            inlet := .direct source } := by
  unfold streaming sized at h
  split_ifs at h with hl
  · cases h
  · cases hs : draft.headers.set DeclaredLength.header (toString length) with
    | error error =>
      rw [hs] at h
      cases h
    | ok headers =>
      rw [hs] at h
      cases h
      exact ⟨Nat.le_of_not_lt hl, headers, rfl, rfl⟩

/-- A body is refused only if its length cannot be declared. -/
theorem exists_body (draft : Draft) {bytes : Bytes} (hl : bytes.length ≤ Numeral.maxSigned) :
    ∃ outgoing, draft.body bytes = .ok outgoing := by
  have ht := DeclaredLength.isToken_toString bytes.length
  have hv : Text.hasLineBreak (Text.trim (toString bytes.length)) = false := by
    rw [Text.trim_of_isToken ht]
    exact Text.hasLineBreak_of_isToken ht
  have hn : HeaderName.isValid (Text.trim DeclaredLength.header) = true := by decide
  obtain ⟨headers, hs⟩ := (draft.headers.exists_set_eq_ok_iff _ _).2 ⟨hn, hv⟩
  rw [body, streaming, sized, if_neg (Nat.not_lt.2 hl), hs]
  exact ⟨_, rfl⟩

end Draft

/-- A message that a draft made, with the bytes of its body at hand or without a body. -/
structure Built where
  outgoing : Outgoing
  bytes : Bytes
  isBuilt : ∃ statusLine pairs draft, Draft.ofPairs statusLine pairs = .ok draft ∧
    (draft.body bytes = .ok outgoing ∨ bytes = [] ∧ outgoing = draft.empty)

namespace Built

/-- The head of the message. -/
def head (m : Built) : Head :=
  m.outgoing.message.head

/-- A message is built as a head and so many bytes. -/
theorem exists_toHead (m : Built) :
    ∃ (draft : Draft) (length : Option Nat),
      Text.hasLineBreak draft.statusLine = false ∧ draft.headers.Valid ∧
      m.outgoing =
        { message := { head := draft.toHead length, body := { length := m.bytes.length } }
          inlet := .direct (.ofBytes m.bytes) } ∧
      DeclaredLength.ofHeaders draft.headers = .ok length ∧ length.getD 0 = m.bytes.length := by
  obtain ⟨outgoing, bytes, statusLine, pairs, draft, hp, hm⟩ := m
  obtain ⟨hs, rfl, hheaders⟩ := Draft.ofPairs_eq_ok_iff.1 hp
  have hv : draft.headers.Valid := Headers.valid_empty.foldlM hheaders
  rcases hm with hb | ⟨rfl, rfl⟩
  · obtain ⟨hl, headers, hset, rfl⟩ := Draft.exists_set_of_streaming hb
    exact ⟨{ draft with headers }, some bytes.length, hs, hv.set hset, rfl,
      DeclaredLength.ofHeaders_set hl hset, rfl⟩
  · exact ⟨{ draft with headers := draft.headers.remove DeclaredLength.header }, none, hs,
      hv.remove _, rfl, DeclaredLength.ofHeaders_remove _, rfl⟩

theorem bodySize_head (m : Built) : m.head.bodySize = m.bytes.length := by
  obtain ⟨draft, length, -, -, hm, -, hl⟩ := m.exists_toHead
  rw [head, hm]
  exact hl

theorem body_eq (m : Built) : m.outgoing.message.body = { length := m.bytes.length } := by
  obtain ⟨draft, length, -, -, hm, -⟩ := m.exists_toHead
  rw [hm]

theorem inlet_eq (m : Built) : m.outgoing.inlet = .direct (.ofBytes m.bytes) := by
  obtain ⟨draft, length, -, -, hm, -⟩ := m.exists_toHead
  rw [hm]

/-- The head is written as one of its written forms. -/
theorem isWritten_encode (m : Built) {limits : Limits}
    (hn : m.head.headers.valueCount ≤ limits.maxHeaders.toNat)
    (hm : m.head.size ≤ limits.maxHeadBytes.toNat) :
    Head.IsWritten limits m.head.encode m.head := by
  obtain ⟨draft, length, hs, hv, hb, hd, -⟩ := m.exists_toHead
  have hh : m.head = draft.toHead length := by rw [head, hb]
  rw [hh] at hn hm ⊢
  exact Head.isWritten_encode hv hs hd (draft.length_encode_toHead length) hn hm

end Built

end Courier
