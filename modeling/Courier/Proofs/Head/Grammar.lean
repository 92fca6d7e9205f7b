import Courier.Proofs.DeclaredLength
import Courier.Proofs.Head.Lines

/-!
# The grammar of heads

The written forms of a head (`Head.IsWritten`) are its first line, a line for each of its fields,
and a blank line, each of them with either line end, as many as the limits allow. The bytes of a
head that is not complete are lines of that kind without the blank one, and the beginning of
another (`Head.IsUnfinished`).

`decodeLines_start_eq_some_iff` says that decoding finds exactly the written heads, and
`exists_decodeLines_start_eq_none_iff` that it asks for more exactly at unfinished ones. The lines
behind the first are read by `decodeLines_fields`, and `exists_fields` takes off bytes as many of
them as there are.
-/

namespace Courier

/-! ## Lines in a row -/

namespace Line

/-- The bytes are the texts in a row, each with a line end behind it. -/
inductive AreWritten : Bytes → List String → Prop
  | nil : AreWritten [] []
  | cons {first rest : Bytes} {text : String} {texts : List String} :
    IsWritten first text → AreWritten rest texts → AreWritten (first ++ rest) (text :: texts)

theorem areWritten_append_iff {bytes : Bytes} {texts texts' : List String} :
    AreWritten bytes (texts ++ texts') ↔
      ∃ first rest, bytes = first ++ rest ∧ AreWritten first texts ∧ AreWritten rest texts' := by
  constructor
  · intro h
    induction texts generalizing bytes with
    | nil => exact ⟨[], bytes, rfl, .nil, h⟩
    | cons text texts ih =>
      cases h with
      | cons hw h =>
        obtain ⟨first, rest, rfl, hf, hr⟩ := ih h
        exact ⟨_, rest, (List.append_assoc ..).symm, .cons hw hf, hr⟩
  · rintro ⟨first, rest, rfl, hf, hr⟩
    induction hf with
    | nil => exact hr
    | cons hw _ ih =>
      rw [List.append_assoc]
      exact .cons hw ih

theorem areWritten_singleton_iff {bytes : Bytes} {text : String} :
    AreWritten bytes [text] ↔ IsWritten bytes text := by
  constructor
  · intro h
    cases h with
    | cons hw h =>
      cases h
      rwa [List.append_nil]
  · intro h
    rw [← List.append_nil bytes]
    exact .cons h .nil

theorem AreWritten.ne_nil {bytes : Bytes} {text : String} {texts : List String}
    (h : AreWritten bytes (text :: texts)) : bytes ≠ [] := by
  cases h with
  | cons hw _ =>
    obtain ⟨content, rfl, -⟩ := hw.exists_content
    simp

end Line

namespace Head

/-- The bytes are the head in writing, within the limits. -/
def IsWritten (limits : Limits) (bytes : Bytes) (head : Head) : Prop :=
  ∃ lines fields,
    Line.AreWritten bytes (head.statusLine :: lines ++ [""]) ∧
    List.Forall₂ Headers.IsField lines fields ∧
    lines.length ≤ limits.maxHeaders.toNat ∧
    bytes.length ≤ limits.maxHeadBytes.toNat ∧
    Headers.ofPairs fields = .ok head.headers ∧
    DeclaredLength.IsDeclared fields head.contentLength ∧
    head.size = bytes.length

theorem IsWritten.ne_nil {limits : Limits} {bytes : Bytes} {head : Head}
    (h : IsWritten limits bytes head) : bytes ≠ [] := by
  obtain ⟨lines, fields, hw, -⟩ := h
  exact hw.ne_nil

theorem IsWritten.size_eq {limits : Limits} {bytes : Bytes} {head : Head}
    (h : IsWritten limits bytes head) : head.size = bytes.length := by
  obtain ⟨_, _, -, -, -, -, -, -, hsize⟩ := h
  exact hsize

/-- A head in writing has no more header values than it may have. -/
theorem IsWritten.valueCount_le {limits : Limits} {bytes : Bytes} {head : Head}
    (h : IsWritten limits bytes head) :
    head.headers.valueCount ≤ limits.maxHeaders.toNat := by
  obtain ⟨lines, fields, -, hf, hn, -, hp, -⟩ := h
  have hcount : head.headers.valueCount = 0 + fields.length := Headers.valueCount_foldlM hp
  have := hf.length_eq
  omega

theorem IsWritten.size_le {limits : Limits} {bytes : Bytes} {head : Head}
    (h : IsWritten limits bytes head) : head.size ≤ limits.maxHeadBytes.toNat := by
  have hs := h.size_eq
  obtain ⟨lines, fields, -, -, -, hm, -⟩ := h
  omega

/-- The bytes begin a head within the limits, and no blank line behind its first line ends it. -/
def IsUnfinished (limits : Limits) (bytes : Bytes) : Prop :=
  ∃ taken left lines,
    bytes = taken ++ left ∧
    Bytes.lineFeed ∉ left ∧
    Line.AreWritten taken lines ∧
    (∀ line ∈ lines.tail, ∃ field, Headers.IsField line field) ∧
    lines.tail.length ≤ limits.maxHeaders.toNat ∧
    bytes.length ≤ limits.maxHeadBytes.toNat

namespace Progress

/-! ## Header lines -/

/-- The headers with a field more for each pair. -/
abbrev addAll (headers : Headers) (fields : List (String × String)) :
    Except Headers.Error Headers :=
  fields.foldlM (fun headers (field : String × String) => headers.add field.1 field.2) headers

/-- Header lines that fit are taken one after the other. -/
theorem decodeLines_fields {p : Progress} {status : String} (hs : p.statusLine = some status)
    {taken : Bytes} {lines : List String} {fields : List (String × String)} {headers : Headers}
    (hw : Line.AreWritten taken lines) (hf : List.Forall₂ Headers.IsField lines fields)
    (hn : p.block.lines + lines.length ≤ p.block.maxHeaders)
    (hm : p.received + taken.length ≤ p.maxBytes.toNat)
    (ha : addAll p.block.headers fields = .ok headers) (more : Bytes) :
    p.decodeLines (taken ++ more) =
      (p.advance taken.length lines.length headers).decodeLines more := by
  induction hw generalizing p fields with
  | nil =>
    cases hf
    cases ha
    rfl
  | @cons first rest text texts hw _ ih =>
    cases hf with
    | cons hfield hf =>
      rename_i field fields
      obtain ⟨added, hadd, ha⟩ := foldlM_cons_eq_ok_iff.1 ha
      rw [List.length_append] at hm
      rw [List.length_cons] at hn
      have hc : Line.cut? (first ++ (rest ++ more)) =
          some (.ok ⟨text, first.length⟩, rest ++ more) :=
        Line.cut?_eq_ok_iff.2 ⟨first, rfl, hw, rfl⟩
      have hp : p.push (.ok ⟨text, first.length⟩) = (.ok none, p.advance first.length 1 added) :=
        (push_eq_none_iff hs).2 ⟨_, added, rfl, by dsimp only; omega, hfield.ne_empty, by omega,
          Headers.addLine_eq_ok_iff.2 ⟨field, hfield, hadd⟩, rfl⟩
      rw [List.append_assoc, decodeLines_push hc hp]
      have := ih (p := p.advance first.length 1 added) hs hf
        (by simp only [advance]; omega) (by simp only [advance]; omega) ha
      rw [this, advance_advance, List.length_append, List.length_cons, Nat.add_comm 1]

/-- Any bytes behind the first line are header lines that fit, and then bytes that do not begin
with another one. -/
theorem exists_fields {p : Progress} {status : String} (hs : p.statusLine = some status)
    (hn : p.block.lines ≤ p.block.maxHeaders) (hm : p.received ≤ p.maxBytes.toNat)
    (bytes : Bytes) :
    ∃ taken more lines fields headers,
      bytes = taken ++ more ∧
      Line.AreWritten taken lines ∧
      List.Forall₂ Headers.IsField lines fields ∧
      p.block.lines + lines.length ≤ p.block.maxHeaders ∧
      p.received + taken.length ≤ p.maxBytes.toNat ∧
      addAll p.block.headers fields = .ok headers ∧
      ∀ line rest q, Line.cut? more = some (line, rest) →
        (p.advance taken.length lines.length headers).push line ≠ (.ok none, q) := by
  induction p, bytes using linesInduction with
  | rest p bytes hc =>
    refine ⟨[], bytes, [], [], p.block.headers, rfl, .nil, .nil, hn, hm, rfl, ?_⟩
    intro line rest q h
    rw [hc] at h
    cases h
  | stop p bytes line rest answer q hc hp ha =>
    refine ⟨[], bytes, [], [], p.block.headers, rfl, .nil, .nil, hn, hm, rfl, ?_⟩
    intro line' rest' q' h hp'
    rw [hc] at h
    cases h
    exact ha (congrArg Prod.fst (hp.symm.trans hp'))
  | step p bytes line rest q hc hp ih =>
    obtain ⟨line, headers, rfl, hm', hb, hn', ha, rfl⟩ := (push_eq_none_iff hs).1 hp
    obtain ⟨first, rfl, hw, hl⟩ := Line.cut?_eq_ok_iff.1 hc
    obtain ⟨field, hfield, hadd⟩ := Headers.addLine_eq_ok_iff.1 ha
    obtain ⟨taken, more, lines, fields, headers', rfl, hws, hfs, hns, hms, has, hstop⟩ :=
      ih hs hn' hm'
    refine ⟨first ++ taken, more, line.text :: lines, field :: fields, headers',
      (List.append_assoc ..).symm, .cons hw hws, .cons hfield hfs, ?_, ?_, ?_, ?_⟩
    · rw [List.length_cons]
      simp only [advance] at hns
      omega
    · rw [List.length_append]
      simp only [advance] at hms
      omega
    · exact foldlM_cons_eq_ok_iff.2 ⟨headers, hadd, has⟩
    · rw [List.length_append, List.length_cons, ← hl, Nat.add_comm lines.length]
      rwa [advance_advance] at hstop

/-! ## Behind the first line -/

theorem make_eq_ok_iff {status : String} {headers : Headers} {size : Nat} {head : Head} :
    Head.make status headers size = .ok head ↔
      head.statusLine = status ∧ head.headers = headers ∧ head.size = size ∧
        DeclaredLength.ofHeaders headers = .ok head.contentLength := by
  unfold Head.make
  obtain ⟨status', headers', length, size'⟩ := head
  cases DeclaredLength.ofHeaders headers with
  | error fault => simp
  | ok length' =>
    simp only [Except.ok.injEq, Head.mk.injEq]
    constructor
    · rintro ⟨rfl, rfl, rfl, rfl⟩
      exact ⟨rfl, rfl, rfl, rfl⟩
    · rintro ⟨rfl, rfl, rfl, rfl⟩
      exact ⟨rfl, rfl, rfl, rfl⟩

/-- The head is complete when header lines that fit are followed by a blank line that fits. -/
theorem decodeLines_eq_some_iff {p q : Progress} {status : String} (hs : p.statusLine = some status)
    (hn : p.block.lines ≤ p.block.maxHeaders) (hm : p.received ≤ p.maxBytes.toNat)
    {bytes rest : Bytes} {head : Head} :
    p.decodeLines bytes = (.ok (some head), q, rest) ↔
      ∃ taken blank lines fields headers,
        bytes = taken ++ (blank ++ rest) ∧
        Line.AreWritten taken lines ∧
        Line.IsWritten blank "" ∧
        List.Forall₂ Headers.IsField lines fields ∧
        p.block.lines + lines.length ≤ p.block.maxHeaders ∧
        p.received + (taken.length + blank.length) ≤ p.maxBytes.toNat ∧
        addAll p.block.headers fields = .ok headers ∧
        Head.make status headers (p.received + (taken.length + blank.length)) = .ok head ∧
        q = p.reset := by
  constructor
  · intro h
    obtain ⟨taken, more, lines, fields, headers, rfl, hw, hf, hn, hm, ha, hstop⟩ :=
      exists_fields hs hn hm bytes
    rw [decodeLines_fields hs hw hf hn hm ha] at h
    cases hc : Line.cut? more with
    | none =>
      rw [decodeLines_rest _ hc] at h
      split_ifs at h <;> cases h
    | some cut =>
      obtain ⟨line, left⟩ := cut
      rcases hp : (p.advance taken.length lines.length headers).push line with ⟨answer, q'⟩
      rw [decodeLines_stop hc hp fun he => hstop line left q' hc (he ▸ hp)] at h
      cases h
      have hs : (p.advance taken.length lines.length headers).statusLine = some status := hs
      obtain ⟨line, rfl, hm, hb, hmake, rfl⟩ := (push_eq_some_iff hs).1 hp
      obtain ⟨blank, rfl, hblank, hl⟩ := Line.cut?_eq_ok_iff.1 hc
      rw [hb] at hblank
      rw [hl] at hm hmake
      simp only [advance, Nat.add_assoc] at hm hmake
      exact ⟨taken, blank, lines, fields, headers, rfl, hw, hblank, hf, hn, hm, ha, hmake, rfl⟩
  · rintro ⟨taken, blank, lines, fields, headers, rfl, hw, hblank, hf, hn, hm, ha, hmake, rfl⟩
    rw [decodeLines_fields hs hw hf hn (by omega) ha]
    have hs : (p.advance taken.length lines.length headers).statusLine = some status := hs
    have hc : Line.cut? (blank ++ rest) = some (.ok ⟨"", blank.length⟩, rest) :=
      Line.cut?_eq_ok_iff.2 ⟨blank, rfl, hblank, rfl⟩
    refine decodeLines_stop hc ((push_eq_some_iff hs).2 ⟨_, rfl, ?_, rfl, ?_, rfl⟩) (by simp)
    · simpa only [advance, Nat.add_assoc] using hm
    · simpa only [advance, Nat.add_assoc] using hmake

/-- The head is unfinished when header lines that fit are followed by bytes without a line feed. -/
theorem decodeLines_eq_none_iff {p q : Progress} {status : String} (hs : p.statusLine = some status)
    (hn : p.block.lines ≤ p.block.maxHeaders) (hm : p.received ≤ p.maxBytes.toNat)
    {bytes left : Bytes} :
    p.decodeLines bytes = (.ok none, q, left) ↔
      ∃ taken lines fields headers,
        bytes = taken ++ left ∧
        Bytes.lineFeed ∉ left ∧
        Line.AreWritten taken lines ∧
        List.Forall₂ Headers.IsField lines fields ∧
        p.block.lines + lines.length ≤ p.block.maxHeaders ∧
        p.received + bytes.length ≤ p.maxBytes.toNat ∧
        addAll p.block.headers fields = .ok headers ∧
        q = p.advance taken.length lines.length headers := by
  constructor
  · intro h
    obtain ⟨taken, more, lines, fields, headers, rfl, hw, hf, hn, hm, ha, hstop⟩ :=
      exists_fields hs hn hm bytes
    rw [decodeLines_fields hs hw hf hn hm ha] at h
    cases hc : Line.cut? more with
    | none =>
      rw [decodeLines_rest _ hc] at h
      split_ifs at h with hl
      · cases h
      · cases h
        simp only [advance] at hl
        refine ⟨taken, lines, fields, headers, rfl, Line.cut?_eq_none_iff.1 hc, hw, hf, hn, ?_, ha,
          rfl⟩
        rw [List.length_append]
        omega
    | some cut =>
      obtain ⟨line, rest⟩ := cut
      rcases hp : (p.advance taken.length lines.length headers).push line with ⟨answer, q'⟩
      rw [decodeLines_stop hc hp fun he => hstop line rest q' hc (he ▸ hp)] at h
      cases h
      exact absurd hp (hstop line left q hc)
  · rintro ⟨taken, lines, fields, headers, rfl, hl, hw, hf, hn, hm, ha, rfl⟩
    rw [List.length_append] at hm
    rw [decodeLines_fields hs hw hf hn (by omega) ha,
      decodeLines_rest _ (Line.cut?_eq_none_iff.2 hl), if_neg (by simp only [advance]; omega)]

/-! ## The first line -/

/-- The head in the making behind its first line. -/
def opened (limits : Limits) (line : Line) : Progress :=
  { start limits with received := line.size, statusLine := some line.text }

theorem decodeLines_start {limits : Limits} {bytes rest : Bytes} {line : Line}
    (hc : Line.cut? bytes = some (.ok line, rest)) (hm : line.size ≤ limits.maxHeadBytes.toNat) :
    (start limits).decodeLines bytes = (opened limits line).decodeLines rest := by
  apply decodeLines_push hc
  rw [push_first rfl, if_neg (by simpa [start] using hm)]
  simp only [start, opened, Nat.zero_add]

/-- An answer without an error comes before the first line is whole, or from behind it. -/
theorem cases_of_decodeLines_start {limits : Limits} {bytes left : Bytes} {answer : Option Head}
    {q : Progress} (h : (start limits).decodeLines bytes = (.ok answer, q, left)) :
    (answer = none ∧ Bytes.lineFeed ∉ bytes ∧ bytes.length ≤ limits.maxHeadBytes.toNat) ∨
      ∃ line rest, Line.cut? bytes = some (.ok line, rest) ∧
        line.size ≤ limits.maxHeadBytes.toNat ∧
        (opened limits line).decodeLines rest = (.ok answer, q, left) := by
  cases hc : Line.cut? bytes with
  | none =>
    rw [decodeLines_rest _ hc] at h
    split_ifs at h with hm
    · cases h
    · cases h
      simp only [start, Nat.zero_add] at hm
      exact .inl ⟨rfl, Line.cut?_eq_none_iff.1 hc, by omega⟩
  | some cut =>
    obtain ⟨line | line, rest⟩ := cut
    · rw [decodeLines_cut _ hc] at h
      cases h
    · by_cases hm : line.size ≤ limits.maxHeadBytes.toNat
      · rw [decodeLines_start hc hm] at h
        exact .inr ⟨line, rest, rfl, hm, h⟩
      · rw [decodeLines_cut _ hc, push_first rfl, if_pos (by simp only [start]; omega)] at h
        cases h

/-- The fields of written lines can be added to any headers. -/
theorem exists_addAll {taken : Bytes} {lines : List String} {fields : List (String × String)}
    (hw : Line.AreWritten taken lines) (hf : List.Forall₂ Headers.IsField lines fields)
    (headers : Headers) : ∃ headers', addAll headers fields = .ok headers' := by
  induction hw generalizing fields headers with
  | nil =>
    cases hf
    exact ⟨headers, rfl⟩
  | cons hw _ ih =>
    cases hf with
    | cons hfield hf =>
      obtain ⟨added, ha⟩ := hfield.exists_add hw.1 headers
      obtain ⟨headers', h⟩ := ih hf added
      exact ⟨headers', foldlM_cons_eq_ok_iff.2 ⟨added, ha, h⟩⟩

theorem trim_of_forall₂ {lines : List String} {fields : List (String × String)}
    (hf : List.Forall₂ Headers.IsField lines fields) :
    ∀ field ∈ fields, Text.trim field.1 = field.1 ∧ Text.trim field.2 = field.2 := by
  induction hf with
  | nil => simp
  | cons hf _ ih => exact List.forall_mem_cons.2 ⟨⟨hf.trim_fst, hf.trim_snd⟩, ih⟩

/-! ## Whole heads -/

/-- Decoding finds the written heads. -/
theorem decodeLines_start_eq_some_iff {limits : Limits} {bytes rest : Bytes} {head : Head}
    {q : Progress} :
    (start limits).decodeLines bytes = (.ok (some head), q, rest) ↔
      (∃ written, bytes = written ++ rest ∧ IsWritten limits written head) ∧ q = start limits := by
  constructor
  · intro h
    rcases cases_of_decodeLines_start h with ⟨he, -⟩ | ⟨line, bytes, hc, hm, hd⟩
    · cases he
    obtain ⟨first, rfl, hfirst, hl⟩ := Line.cut?_eq_ok_iff.1 hc
    obtain ⟨taken, blank, lines, fields, headers, rfl, hw, hb, hf, hn, hm, ha, hmake, rfl⟩ :=
      (decodeLines_eq_some_iff (p := opened limits line) rfl (Nat.zero_le _) hm).1 hd
    simp only [opened, start, Nat.zero_add, hl] at hn hm hmake ha
    obtain ⟨hstatus, hheaders, hsize, hlength⟩ := make_eq_ok_iff.1 hmake
    refine ⟨⟨first ++ (taken ++ blank), by simp only [List.append_assoc], lines, fields, ?_, hf, hn,
      ?_, ?_, ?_, ?_⟩, rfl⟩
    · rw [hstatus]
      exact .cons hfirst (Line.areWritten_append_iff.2
        ⟨taken, blank, rfl, hw, Line.areWritten_singleton_iff.2 hb⟩)
    · simpa only [List.length_append] using hm
    · rw [hheaders]
      exact ha
    · exact (DeclaredLength.ofHeaders_eq_ok_iff ha (trim_of_forall₂ hf)).1 hlength
    · simpa only [List.length_append] using hsize
  · rintro ⟨⟨written, rfl, lines, fields, hw, hf, hn, hm, ha, hd, hsize⟩, rfl⟩
    obtain _ | ⟨hfirst, hw⟩ := hw
    rename_i first _
    obtain ⟨taken, blank, rfl, hw, hb⟩ := Line.areWritten_append_iff.1 hw
    have hb := Line.areWritten_singleton_iff.1 hb
    simp only [List.length_append] at hm hsize
    have hc : Line.cut? (first ++ (taken ++ (blank ++ rest))) =
        some (.ok ⟨head.statusLine, first.length⟩, taken ++ (blank ++ rest)) :=
      Line.cut?_eq_ok_iff.2 ⟨first, rfl, hfirst, rfl⟩
    have hfits : first.length ≤ limits.maxHeadBytes.toNat := by omega
    rw [List.append_assoc, List.append_assoc, decodeLines_start hc hfits]
    refine (decodeLines_eq_some_iff (p := opened limits ⟨_, _⟩) rfl (Nat.zero_le _) hfits).2
      ⟨taken, blank, lines, fields, head.headers, rfl, hw, hb, hf, ?_, ?_, ha, ?_, rfl⟩
    · simpa only [opened, start, Nat.zero_add] using hn
    · simpa only [opened, start] using hm
    · exact make_eq_ok_iff.2 ⟨rfl, rfl, hsize,
        (DeclaredLength.ofHeaders_eq_ok_iff ha (trim_of_forall₂ hf)).2 hd⟩

/-- Decoding asks for more at unfinished heads. -/
theorem exists_decodeLines_start_eq_none_iff {limits : Limits} {bytes : Bytes} :
    (∃ q left, (start limits).decodeLines bytes = (.ok none, q, left)) ↔
      IsUnfinished limits bytes := by
  constructor
  · rintro ⟨q, left, h⟩
    rcases cases_of_decodeLines_start h with ⟨-, hl, hm⟩ | ⟨line, bytes, hc, hm, hd⟩
    · exact ⟨[], bytes, [], rfl, hl, .nil, by simp, by simp, hm⟩
    obtain ⟨first, rfl, hfirst, hl⟩ := Line.cut?_eq_ok_iff.1 hc
    obtain ⟨taken, lines, fields, headers, rfl, hleft, hw, hf, hn, hm, -, rfl⟩ :=
      (decodeLines_eq_none_iff (p := opened limits line) rfl (Nat.zero_le _) hm).1 hd
    simp only [opened, start, Nat.zero_add, hl] at hn hm
    refine ⟨first ++ taken, left, line.text :: lines, (List.append_assoc ..).symm, hleft,
      .cons hfirst hw, exists_forall₂_iff.1 ⟨fields, hf⟩, hn, ?_⟩
    simpa only [List.length_append] using hm
  · rintro ⟨taken, left, lines, rfl, hl, hw, hf, hn, hm⟩
    cases hw with
    | nil =>
      rw [List.nil_append] at hm ⊢
      refine ⟨start limits, left, ?_⟩
      rw [decodeLines_rest _ (Line.cut?_eq_none_iff.2 hl), if_neg]
      simp only [start, Nat.zero_add]
      omega
    | @cons first rest text lines hfirst hw =>
      rw [List.tail_cons] at hf hn
      obtain ⟨fields, hf⟩ := exists_forall₂_iff.2 hf
      obtain ⟨headers, ha⟩ := exists_addAll hw hf .empty
      simp only [List.length_append] at hm
      have hc : Line.cut? (first ++ (rest ++ left)) =
          some (.ok ⟨text, first.length⟩, rest ++ left) :=
        Line.cut?_eq_ok_iff.2 ⟨first, rfl, hfirst, rfl⟩
      have hfits : first.length ≤ limits.maxHeadBytes.toNat := by omega
      refine ⟨(opened limits ⟨text, first.length⟩).advance rest.length lines.length headers, left,
        ?_⟩
      rw [List.append_assoc, decodeLines_start hc hfits]
      refine (decodeLines_eq_none_iff (p := opened limits ⟨_, _⟩) rfl (Nat.zero_le _) hfits).2
        ⟨rest, lines, fields, headers, rfl, hl, hw, hf, ?_, ?_, ha, rfl⟩
      · simpa only [opened, start, Nat.zero_add] using hn
      · simp only [opened, start, List.length_append]
        omega

/-- Decoding finds exactly the written heads and leaves what is behind them, asks for more exactly
at unfinished ones, and refuses all other bytes for how they are framed. -/
theorem decode_accepts_grammar (limits : Limits) (bytes : Bytes) :
    (∀ head rest, (∃ q, (start limits).decode bytes = (.ok (some head), q, rest)) ↔
      ∃ written, bytes = written ++ rest ∧ IsWritten limits written head) ∧
    ((∃ q left, (start limits).decode bytes = (.ok none, q, left)) ↔ IsUnfinished limits bytes) ∧
    ∀ error q left, (start limits).decode bytes = (.error error, q, left) →
      error.toClass = .framing := by
  refine ⟨fun head rest => ?_, ?_, fun error q left h => ?_⟩
  · simp only [decode_eq_ok_iff, decodeLines_start_eq_some_iff, exists_and_left, exists_eq,
      and_true]
  · simp only [decode_eq_ok_iff, exists_decodeLines_start_eq_none_iff]
  · obtain ⟨q', h, -⟩ := decode_eq_error_iff.1 h
    exact (isFault_of_decodeLines h).toClass

end Progress

end Head

end Courier
