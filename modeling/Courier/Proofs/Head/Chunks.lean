import Courier.Proofs.Head.Grammar

/-!
# Heads in chunks

Bytes may come in chunks, each of which is put behind what is left of those before it and decoded
(`Progress.feed`). The answer is that of decoding all bytes so far at once, with the first chunk
with which that is an answer (`feed_cases`).

A head that is complete stays so, whatever follows it (`decodeLines_append_of_some`), and so does
what bytes are refused for, unless that is the size of a line that has not come to its end
(`decodeLines_error_cases`). `feed_agrees_with_decode` says what this means for the chunks of given
bytes: it does not matter how they are cut, but that a line that is too long may be refused before
all of it is there.
-/

namespace Courier.Head.Progress

/-- Decodes after each chunk, put behind the bytes that are held, until there is an answer; with the
chunks that are not fed then. -/
def feed (p : Progress) (held : Bytes) :
    List Bytes → Except ReceiveError (Option Head) × Progress × Bytes × List Bytes
  | [] => (.ok none, p, held, [])
  | chunk :: rest =>
    match p.decode (held ++ chunk) with
    | (.ok none, p, held) => feed p held rest
    | (answer, p, held) => (answer, p, held, rest)

theorem feed_cons_of_none {p q : Progress} {held chunk left : Bytes} {rest : List Bytes}
    (h : p.decode (held ++ chunk) = (.ok none, q, left)) :
    p.feed held (chunk :: rest) = q.feed left rest := by
  rw [feed, h]

theorem feed_cons_of_ne {p q : Progress} {held chunk left : Bytes} {rest : List Bytes}
    {answer : Except ReceiveError (Option Head)}
    (h : p.decode (held ++ chunk) = (answer, q, left)) (ha : answer ≠ .ok none) :
    p.feed held (chunk :: rest) = (answer, q, left, rest) := by
  rw [feed, h]
  split
  · rename_i he
    cases he
    exact absurd rfl ha
  · rename_i he
    cases he
    rfl

/-- A head in the making that took some bytes decodes more of them as one that had them all. -/
theorem decode_append {p q : Progress} {bytes left : Bytes}
    (h : p.decodeLines bytes = (.ok none, q, left)) (more : Bytes) :
    p.decode (bytes ++ more) = q.decode (left ++ more) := by
  unfold decode
  rw [decodeLines_append h more]

/-- Feeding chunks ends without an answer if decoding them all at once does, and otherwise with the
first of them with which all bytes so far give an answer at once. -/
theorem feed_cases {p q r : Progress} {taken held left : Bytes} {chunks rest : List Bytes}
    {answer : Except ReceiveError (Option Head)}
    (hd : p.decodeLines taken = (.ok none, q, held))
    (h : q.feed held chunks = (answer, r, left, rest)) :
    (answer = .ok none ∧ rest = [] ∧
        p.decodeLines (taken ++ chunks.flatten) = (.ok none, r, left)) ∨
      ∃ before chunk, chunks = before ++ chunk :: rest ∧ answer ≠ .ok none ∧
        (∃ q' held', p.decodeLines (taken ++ before.flatten) = (.ok none, q', held')) ∧
        p.decode (taken ++ before.flatten ++ chunk) = (answer, r, left) := by
  induction chunks generalizing q taken held with
  | nil =>
    cases h
    rw [List.flatten_nil, List.append_nil]
    exact .inl ⟨rfl, rfl, hd⟩
  | cons chunk chunks ih =>
    rcases hq : q.decode (held ++ chunk) with ⟨answer', q', held'⟩
    have hp : p.decode (taken ++ chunk) = (answer', q', held') := by rw [decode_append hd, hq]
    by_cases ha : answer' = .ok none
    · subst ha
      rw [feed_cons_of_none hq] at h
      rw [List.flatten_cons, ← List.append_assoc]
      rcases ih (decode_eq_ok_iff.1 hp) h with hnone | ⟨before, last, hc, hne, hbefore, hlast⟩
      · exact .inl hnone
      · refine .inr ⟨chunk :: before, last, by rw [hc, List.cons_append], hne, ?_, ?_⟩
        · rwa [List.flatten_cons, ← List.append_assoc]
        · rwa [List.flatten_cons, ← List.append_assoc taken]
    · rw [feed_cons_of_ne hq ha] at h
      cases h
      refine .inr ⟨[], chunk, rfl, ha, ⟨q, held, ?_⟩, ?_⟩
      · rwa [List.flatten_nil, List.append_nil]
      · rwa [List.flatten_nil, List.append_nil]

/-! ## Answers that stay -/

theorem decodeLines_append_of_some {p q : Progress} {bytes left : Bytes} {head : Head}
    (h : p.decodeLines bytes = (.ok (some head), q, left)) (more : Bytes) :
    p.decodeLines (bytes ++ more) = (.ok (some head), q, left ++ more) := by
  induction p, bytes using linesInduction with
  | rest p bytes hc =>
    rw [decodeLines_rest p hc] at h
    split_ifs at h <;> cases h
  | stop p bytes line rest answer q' hc hp ha =>
    rw [decodeLines_stop hc hp ha] at h
    cases h
    exact decodeLines_stop (Line.cut?_append hc more) hp ha
  | step p bytes line rest q' hc hp ih =>
    rw [decodeLines_push hc hp] at h
    rw [decodeLines_push (Line.cut?_append hc more) hp, ih h]

/-- What bytes are refused for stays, whatever follows them, unless it is the size of a line that
has not come to its end. -/
theorem decodeLines_error_cases {p q : Progress} {bytes left : Bytes} {error : ReceiveError}
    (hr : p.received ≤ p.maxBytes.toNat) (h : p.decodeLines bytes = (.error error, q, left)) :
    (∀ more, p.decodeLines (bytes ++ more) = (.error error, q, left ++ more)) ∨
      ∃ taken pending q', bytes = taken ++ pending ∧ p.decodeLines taken = (.ok none, q', []) ∧
        Bytes.lineFeed ∉ pending ∧ p.maxBytes.toNat < p.received + bytes.length ∧
        error = .headTooLarge (p.received + bytes.length) p.maxBytes.toNat := by
  induction p, bytes using linesInduction with
  | rest p bytes hc =>
    rw [decodeLines_rest p hc] at h
    split_ifs at h with hm
    · cases h
      exact .inr ⟨[], _, _, rfl, decodeLines_nil hr, Line.cut?_eq_none_iff.1 hc, hm, rfl⟩
    · cases h
  | stop p bytes line rest answer q' hc hp ha =>
    rw [decodeLines_stop hc hp ha] at h
    cases h
    exact .inl fun more => decodeLines_stop (Line.cut?_append hc more) hp ha
  | step p bytes line rest q₁ hc hp ih =>
    cases line with
    | error fault => cases hp
    | ok line =>
      obtain ⟨hq, hle, hb, -⟩ := received_of_push hp
      obtain ⟨written, rfl, hw, hl⟩ := Line.cut?_eq_ok_iff.1 hc
      rw [decodeLines_push hc hp] at h
      rcases ih hle h with hstay | ⟨taken, pending, q', rfl, ht, hf, hm, he⟩
      · refine .inl fun more => ?_
        rw [decodeLines_push (Line.cut?_append hc more) hp, hstay]
      · have hc' : Line.cut? (written ++ taken) = some (.ok line, taken) :=
          Line.cut?_eq_ok_iff.2 ⟨written, rfl, hw, hl⟩
        have hsum : q₁.received + (taken ++ pending).length =
            p.received + (written ++ (taken ++ pending)).length := by
          simp only [List.length_append] at hl ⊢
          omega
        rw [hsum, hb] at hm he
        exact .inr ⟨written ++ taken, pending, q', (List.append_assoc ..).symm,
          by rw [decodeLines_push hc' hp, ht], hf, hm, he⟩

/-- Bytes that are refused are refused with more behind them: for the same reason, or before the
line that is too long has come to its end. -/
theorem decodeLines_append_of_error {p q : Progress} {bytes left : Bytes} {error : ReceiveError}
    (hr : p.received ≤ p.maxBytes.toNat) (h : p.decodeLines bytes = (.error error, q, left))
    (more : Bytes) :
    ∃ final q' left', p.decodeLines (bytes ++ more) = (.error final, q', left') ∧
      (error = final ∨ ∃ before line, p.IsAtFault (bytes ++ more) before line ∧
        p.maxBytes.toNat < p.received + bytes.length ∧
        bytes.length < before.length + line.length ∧
        error = .headTooLarge (p.received + bytes.length) p.maxBytes.toNat ∧
        ∀ size limit, final = .headTooLarge size limit → p.received + bytes.length < size) := by
  rcases decodeLines_error_cases hr h with hstay | ⟨taken, pending, q₁, rfl, ht, hf, hm, he⟩
  · exact ⟨error, q, left ++ more, hstay more, .inl rfl⟩
  · by_cases hne : more = []
    · rw [hne, List.append_nil]
      exact ⟨error, q, left, h, .inl rfl⟩
    · obtain ⟨hreceived, -, hle, hb⟩ := received_of_decodeLines ht
      rw [List.length_nil, Nat.add_zero] at hreceived hle
      rw [List.length_append] at hm he ⊢
      obtain ⟨line, final, q', left', -, hlonger, hfault, hd, hsize⟩ :=
        isAtFault_of_long hle hf (by rw [hb]; omega) more
      have hshort := hlonger hne
      refine ⟨final, q', left', ?_,
        .inr ⟨taken, line, ?_, hm, by omega, he, fun size limit hs => ?_⟩⟩
      · rw [List.append_assoc, decodeLines_append ht, List.nil_append, hd]
      · have := hfault.append ht
        rwa [List.append_nil, ← List.append_assoc] at this
      · have := hsize size limit hs
        omega

/-! ## Feeding a fresh head -/

variable {limits : Limits} {chunks after : List Bytes} {q : Progress} {left : Bytes}

theorem decodeLines_start_nil : (start limits).decodeLines [] = (.ok none, start limits, []) :=
  decodeLines_nil (Nat.zero_le _)

theorem decode_of_feed_none (h : (start limits).feed [] chunks = (.ok none, q, left, after)) :
    after = [] ∧ (start limits).decode chunks.flatten = (.ok none, q, left) := by
  rcases feed_cases decodeLines_start_nil h with ⟨-, rfl, hd⟩ | ⟨_, _, -, hne, -⟩
  · exact ⟨rfl, decode_eq_ok_iff.2 hd⟩
  · exact absurd rfl hne

/-- The chunk that completes a head is the one with its last byte. -/
theorem decode_of_feed_some {head : Head}
    (h : (start limits).feed [] chunks = (.ok (some head), q, left, after)) :
    (start limits).decode chunks.flatten = (.ok (some head), q, left ++ after.flatten) ∧
      ∃ before chunk, chunks = before ++ chunk :: after ∧ before.flatten.length < head.size ∧
        head.size ≤ before.flatten.length + chunk.length := by
  rcases feed_cases decodeLines_start_nil h with ⟨hne, -⟩ |
    ⟨before, chunk, rfl, -, ⟨q', held, hbefore⟩, hd⟩
  · cases hne
  · rw [List.nil_append] at hbefore hd
    have hd := decode_eq_ok_iff.1 hd
    obtain ⟨⟨written, hw, hhead⟩, rfl⟩ := decodeLines_start_eq_some_iff.1 hd
    have hsize := hhead.size_eq
    have hlength := congrArg List.length hw
    simp only [List.length_append] at hlength
    refine ⟨?_, before, chunk, rfl, ?_, by omega⟩
    · rw [List.flatten_append, List.flatten_cons, ← List.append_assoc]
      exact decode_eq_ok_iff.2 (decodeLines_append_of_some hd _)
    · -- Otherwise the head would have been complete before the chunk.
      by_contra hlong
      obtain ⟨rest, hrest⟩ : written <+: before.flatten :=
        List.prefix_of_prefix_length_le ⟨left, hw.symm⟩ (List.prefix_append ..) (by omega)
      have := decodeLines_start_eq_some_iff.2 ⟨⟨written, hrest.symm, hhead⟩, rfl⟩
      rw [hbefore] at this
      cases this

theorem decode_of_feed_error {given : ReceiveError}
    (h : (start limits).feed [] chunks = (.error given, q, left, after)) :
    given.toClass = .framing ∧ ∃ before chunk error q' left',
      chunks = before ++ chunk :: after ∧
      (start limits).decode chunks.flatten = (.error error, q', left') ∧
      (given = error ∨ ∃ taken line, (start limits).IsAtFault chunks.flatten taken line ∧
        limits.maxHeadBytes.toNat < (before.flatten ++ chunk).length ∧
        (before.flatten ++ chunk).length < taken.length + line.length ∧
        given = .headTooLarge (before.flatten ++ chunk).length limits.maxHeadBytes.toNat ∧
        ∀ size limit, error = .headTooLarge size limit →
          (before.flatten ++ chunk).length < size) := by
  rcases feed_cases decodeLines_start_nil h with ⟨hne, -⟩ | ⟨before, chunk, rfl, -, -, hd⟩
  · cases hne
  · rw [List.nil_append] at hd
    obtain ⟨q', hlines, rfl⟩ := decode_eq_error_iff.1 hd
    have hr : (start limits).received ≤ (start limits).maxBytes.toNat := Nat.zero_le _
    obtain ⟨error, r, left', hall, hcases⟩ :=
      decodeLines_append_of_error hr hlines after.flatten
    have hflatten :
        (before ++ chunk :: after).flatten = before.flatten ++ chunk ++ after.flatten := by
      rw [List.flatten_append, List.flatten_cons, List.append_assoc]
    rw [hflatten]
    refine ⟨(isFault_of_decodeLines hlines).toClass, before, chunk, error, r.reset, left', rfl,
      decode_eq_error_iff.2 ⟨r, hall, rfl⟩, ?_⟩
    simpa only [start, Nat.zero_add] using hcases

/-- However bytes are cut into chunks, feeding them comes to what decoding them at once does: the
same head, with the chunk that has its last byte, and the same bytes behind it; the same unfinished
head; or the same reason to refuse them, except that a line that runs beyond the limit may be
refused for its size before all of it is there. -/
theorem feed_agrees_with_decode (limits : Limits) (chunks : List Bytes) :
    (∀ head q rest, (start limits).decode chunks.flatten = (.ok (some head), q, rest) →
      ∃ before chunk after left,
        chunks = before ++ chunk :: after ∧
        (start limits).feed [] chunks = (.ok (some head), q, left, after) ∧
        left ++ after.flatten = rest ∧
        before.flatten.length < head.size ∧
        head.size ≤ before.flatten.length + chunk.length) ∧
    (∀ q left, (start limits).decode chunks.flatten = (.ok none, q, left) →
      (start limits).feed [] chunks = (.ok none, q, left, [])) ∧
    ∀ error q left, (start limits).decode chunks.flatten = (.error error, q, left) →
      ∃ before chunk after given q' left',
        chunks = before ++ chunk :: after ∧
        (start limits).feed [] chunks = (.error given, q', left', after) ∧
        given.toClass = .framing ∧
        (given = error ∨ ∃ taken line, (start limits).IsAtFault chunks.flatten taken line ∧
          limits.maxHeadBytes.toNat < (before.flatten ++ chunk).length ∧
          (before.flatten ++ chunk).length < taken.length + line.length ∧
          given = .headTooLarge (before.flatten ++ chunk).length limits.maxHeadBytes.toNat ∧
          ∀ size limit, error = .headTooLarge size limit →
            (before.flatten ++ chunk).length < size) := by
  rcases hfeed : (start limits).feed [] chunks with ⟨given | _ | head, q, left, after⟩
  · obtain ⟨hclass, before, chunk, error, q', left', hc, hd, hcases⟩ := decode_of_feed_error hfeed
    rw [hd]
    refine ⟨nofun, nofun, fun error' q' left' he => ?_⟩
    cases he
    exact ⟨before, chunk, after, given, q, left, hc, rfl, hclass, hcases⟩
  · obtain ⟨rfl, hd⟩ := decode_of_feed_none hfeed
    rw [hd]
    refine ⟨nofun, fun q' left' he => ?_, nofun⟩
    cases he
    rfl
  · obtain ⟨hd, before, chunk, hc, hlt, hle⟩ := decode_of_feed_some hfeed
    rw [hd]
    refine ⟨fun head' q' rest he => ?_, nofun, nofun⟩
    cases he
    exact ⟨before, chunk, after, left, hc, rfl, rfl, hlt, hle⟩

/-- Cut in two, a line that is too long is refused for a smaller size. -/
example :
    let limits : Limits := { maxHeadBytes := 2, maxHeaders := 0 }
    ((start limits).decode [97, 97, 97, 97]).1 = .error (.headTooLarge 4 2) ∧
      ((start limits).feed [] [[97, 97, 97], [97]]).1 = .error (.headTooLarge 3 2) := by
  cbv

end Courier.Head.Progress
