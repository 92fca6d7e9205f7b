import Courier.Proofs.Head.Chunks

/-!
# Heads one after the other

Bytes are put behind those that are held for a head in the making, and it is called on to decode
them, to decode what will be the last of them, or to give the head up (`Head.Reading.Call`). A
`Head.Reading` has the head in the making, the bytes that are held for it, and those that have been
taken for it since it was new.

Whatever the calls, the head in the making is what those bytes alone would make of a new one
(`Reading.Stands`, kept by each call: `Stands.run`). What it counts follows from that
(`Progress.Counts`, `counts_of_taken`). So it hands out the heads that stand in the bytes, one after
the other, and is new behind each of them (`Stands.run_decode`).
-/

namespace Courier.Head

/-! ## What a head in the making counts -/

namespace Progress

/-- The head in the making has taken the bytes of its first line, if it has one, and those of the
header lines behind it, and counts both. -/
structure Counts (p : Progress) (limits : Limits) (first rest : Bytes) : Prop where
  statusLine :
    p.statusLine = none ∧ first = [] ∧ rest = [] ∨
      ∃ status, p.statusLine = some status ∧ Line.IsWritten first status
  consumed : p.block.consumed = rest.length
  received : p.received = first.length + p.block.consumed
  statusLine_eq_none_iff : p.statusLine = none ↔ p.received = 0
  /-- The block is as it was at the start as long as there is no header line. -/
  block_eq_start_iff : p.block = (start limits).block ↔ p.received = first.length
  received_le : p.received ≤ limits.maxHeadBytes.toNat
  lines_le : p.block.lines ≤ limits.maxHeaders.toNat

variable {limits : Limits} {taken : Bytes} {p : Progress}

theorem counts_start : (start limits).Counts limits [] [] where
  statusLine := .inl ⟨rfl, rfl, rfl⟩
  consumed := rfl
  received := rfl
  statusLine_eq_none_iff := by simp [start]
  block_eq_start_iff := by simp [start]
  received_le := Nat.zero_le _
  lines_le := Nat.zero_le _

/-- Bytes that a new head in the making takes are its first line and header lines. -/
theorem cases_of_taken (h : (start limits).decodeLines taken = (.ok none, p, [])) :
    (taken = [] ∧ p = start limits) ∨ ∃ first rest status lines headers,
      taken = first ++ rest ∧
      Line.IsWritten first status ∧
      Line.AreWritten rest lines ∧
      lines.length ≤ limits.maxHeaders.toNat ∧
      first.length + rest.length ≤ limits.maxHeadBytes.toNat ∧
      (lines = [] → headers = .empty) ∧
      p = (opened limits ⟨status, first.length⟩).advance rest.length lines.length headers := by
  rcases cases_of_decodeLines_start h with ⟨-, hf, hm⟩ | ⟨line, behind, hc, hm, hd⟩
  · rw [decodeLines_rest _ (Line.cut?_eq_none_iff.2 hf), if_neg (by simpa [start] using hm)] at h
    obtain ⟨rfl, rfl⟩ : start limits = p ∧ taken = [] := by simpa using h
    exact .inl ⟨rfl, rfl⟩
  · obtain ⟨first, rfl, hw, hl⟩ := Line.cut?_eq_ok_iff.1 hc
    obtain ⟨rest, lines, fields, headers, rfl, -, hlines, hfields, hn, hfits, ha, rfl⟩ :=
      (decodeLines_eq_none_iff (p := opened limits line) rfl (Nat.zero_le _) hm).1 hd
    obtain ⟨status, size⟩ := line
    obtain rfl : size = first.length := hl
    simp only [opened, start, Nat.zero_add, List.append_nil] at hn hfits ha
    refine .inr ⟨first, rest, status, lines, headers, by simp, hw, hlines, hn, hfits, ?_, rfl⟩
    rintro rfl
    cases hfields
    exact (Except.ok.inj ha).symm

/-- What a new head in the making has taken, it counts. -/
theorem counts_of_taken (h : (start limits).decodeLines taken = (.ok none, p, [])) :
    ∃ first rest, taken = first ++ rest ∧ p.Counts limits first rest := by
  rcases cases_of_taken h with
    ⟨rfl, rfl⟩ | ⟨first, rest, status, lines, headers, rfl, hw, hlines, hn, hm, hh, rfl⟩
  · exact ⟨[], [], rfl, counts_start⟩
  · have hpos : 0 < first.length := by
      obtain ⟨content, rfl, -⟩ := hw.exists_content
      simp
    refine ⟨first, rest, rfl, .inr ⟨status, rfl, hw⟩, ?_, ?_, ?_, ?_, ?_, ?_⟩
    · simp [advance, opened, start]
    · simp [advance, opened, start]
    · simp only [advance, opened, reduceCtorEq, false_iff]
      omega
    · cases hlines with
      | nil => simp [advance, opened, start, hh rfl]
      | cons hline _ =>
        obtain ⟨content, rfl, -⟩ := hline.exists_content
        simp [advance, opened, start]
    · simpa [advance, opened] using hm
    · simpa [advance, opened, start] using hn

/-! ## Giving up -/

/-- Whatever a line does, giving the head up leads back to the same start. -/
theorem reset_of_push {p q : Progress} {line : Except Line.Fault Line}
    {answer : Except ReceiveError (Option Head)} (h : p.push line = (answer, q)) :
    q.reset = p.reset := by
  cases line with
  | error fault =>
    cases h
    rfl
  | ok line =>
    cases hs : p.statusLine with
    | none =>
      rw [push_first hs] at h
      split_ifs at h <;> cases h <;> rfl
    | some status =>
      rw [push_started hs] at h
      split_ifs at h
      · cases h
        rfl
      · cases h
        rfl
      · cases h
        rfl
      · split at h <;> cases h <;> rfl

theorem reset_of_decodeLines {p q : Progress} {bytes left : Bytes}
    {answer : Except ReceiveError (Option Head)} (h : p.decodeLines bytes = (answer, q, left)) :
    q.reset = p.reset := by
  induction p, bytes using linesInduction with
  | rest p bytes hc =>
    rw [decodeLines_rest p hc] at h
    split_ifs at h <;> cases h <;> rfl
  | stop p bytes line rest answer q hc hp ha =>
    rw [decodeLines_stop hc hp ha] at h
    cases h
    exact reset_of_push hp
  | step p bytes line rest q' hc hp ih =>
    rw [decodeLines_push hc hp] at h
    exact (ih h).trans (reset_of_push hp)

theorem reset_of_decode {p q : Progress} {bytes left : Bytes}
    {answer : Except ReceiveError (Option Head)} (h : p.decode bytes = (answer, q, left)) :
    q.reset = p.reset := by
  cases answer with
  | ok answer => exact reset_of_decodeLines (decode_eq_ok_iff.1 h)
  | error error =>
    obtain ⟨q', hd, rfl⟩ := decode_eq_error_iff.1 h
    have hreset : q'.reset = p.reset := reset_of_decodeLines hd
    exact hreset

/-- At the end of the stream a head of which there is nothing is given up. -/
theorem reset_of_decodeLast {p q : Progress} {bytes left : Bytes}
    {answer : Except ReceiveError (Option Head)} (h : p.decodeLast bytes = (answer, q, left)) :
    q.reset = p.reset ∧ (answer = .ok none → q = p.reset ∧ left = []) := by
  unfold decodeLast at h
  rcases hd : p.decode bytes with ⟨error | _ | head, q', rest⟩
  all_goals
    have hreset := reset_of_decode hd
    rw [hd] at h
    cases h
  · exact ⟨hreset, nofun⟩
  · exact ⟨hreset, fun _ => ⟨hreset, rfl⟩⟩
  · exact ⟨hreset, nofun⟩

/-- Decoding takes bytes off the front. -/
theorem suffix_of_decodeLines {p q : Progress} {bytes left : Bytes}
    {answer : Except ReceiveError (Option Head)} (h : p.decodeLines bytes = (answer, q, left)) :
    left <:+ bytes := by
  have hcut : ∀ {bytes rest : Bytes} {line : Except Line.Fault Line},
      Line.cut? bytes = some (line, rest) → rest <:+ bytes := by
    intro bytes rest line hc
    obtain ⟨content, rfl, -⟩ := Line.cut?_eq_some_iff.1 hc
    exact ⟨content ++ [Bytes.lineFeed], by simp⟩
  induction p, bytes using linesInduction with
  | rest p bytes hc =>
    rw [decodeLines_rest p hc] at h
    split_ifs at h <;> cases h <;> exact List.suffix_refl _
  | stop p bytes line rest answer q hc hpush ha =>
    rw [decodeLines_stop hc hpush ha] at h
    cases h
    exact hcut hc
  | step p bytes line rest q' hc hpush ih =>
    rw [decodeLines_push hc hpush] at h
    exact (ih h).trans (hcut hc)

end Progress

/-! ## Calls -/

/-- A head in the making, the bytes that are held for it, and those that have been taken for it
since it was new. -/
structure Reading where
  progress : Progress
  held : Bytes := []
  taken : Bytes := []
deriving Repr, DecidableEq

namespace Reading

/-- Nothing of a head, and no bytes. -/
def start (limits : Limits) : Reading :=
  { progress := .start limits }

/-- What is done with a head in the making and the bytes that are held for it. -/
inductive Call where
  | feed (bytes : Bytes)
  | decode
  | decodeLast
  | reset
deriving Repr, DecidableEq

/-- The answer of the call (that of one which decodes nothing is that there is no head), and what
it leaves. -/
def Call.run : Call → Reading → Except ReceiveError (Option Head) × Reading
  | feed bytes, r => (.ok none, { r with held := r.held ++ bytes })
  | decode, r =>
    match r.progress.decode r.held with
    | (.ok none, progress, left) =>
      (.ok none, ⟨progress, left, r.taken ++ r.held.take (r.held.length - left.length)⟩)
    | (answer, progress, left) => (answer, ⟨progress, left, []⟩)
  | decodeLast, r =>
    match r.progress.decodeLast r.held with
    | (answer, progress, left) => (answer, ⟨progress, left, []⟩)
  | reset, r => (.ok none, { r with progress := r.progress.reset, taken := [] })

/-- The answers of the calls, and what they leave. -/
def run (r : Reading) : List Call → List (Except ReceiveError (Option Head)) × Reading
  | [] => ([], r)
  | call :: calls =>
    let (answer, r) := call.run r
    let (answers, r) := run r calls
    (answer :: answers, r)

/-- The call hands out a head, finds that there is none, or gives one up. -/
def Call.Ends : Call → Except ReceiveError (Option Head) → Prop
  | feed _, _ => False
  | decode, answer => answer ≠ .ok none
  | decodeLast, _ | reset, _ => True

/-- The head in the making is what the bytes taken for it make of a new one. -/
def Stands (r : Reading) (limits : Limits) : Prop :=
  (Progress.start limits).decodeLines r.taken = (.ok none, r.progress, [])

variable {limits : Limits} {r r' : Reading} {answer : Except ReceiveError (Option Head)}

/-- A new head in the making stands, whatever bytes are held for it. -/
theorem stands_new (limits : Limits) (held : Bytes) :
    (Reading.mk (.start limits) held []).Stands limits :=
  Progress.decodeLines_start_nil

/-- Decoding the bytes that are held comes to decoding them behind those that have been taken. -/
theorem Stands.decode_eq (hr : r.Stands limits) :
    r.progress.decode r.held = (Progress.start limits).decode (r.taken ++ r.held) := by
  rw [Progress.decode_append hr, List.nil_append]

/-- What a call does. -/
inductive Does (r : Reading) (limits : Limits) :
    Call → Except ReceiveError (Option Head) → Reading → Prop
  | fed (bytes : Bytes) : Does r limits (.feed bytes) (.ok none) { r with held := r.held ++ bytes }
  /-- Whole lines are taken off the bytes, and all that is left could still belong to the head. -/
  | unfinished {progress : Progress} {lines left : Bytes} (held : r.held = lines ++ left)
      (stands : (Reading.mk progress left (r.taken ++ lines)).Stands limits)
      (fits : progress.received + left.length ≤ limits.maxHeadBytes.toNat) :
      Does r limits .decode (.ok none) ⟨progress, left, r.taken ++ lines⟩
  /-- The head that is handed out is written in the bytes that have been taken for it. -/
  | found {call : Call} {head : Head} {last left : Bytes} (ends : call.Ends (.ok (some head)))
      (held : r.held = last ++ left) (written : IsWritten limits (r.taken ++ last) head) :
      Does r limits call (.ok (some head)) ⟨.start limits, left, []⟩
  | gaveUp {call : Call} {answer : Except ReceiveError (Option Head)} {left : Bytes}
      (ends : call.Ends answer) (noHead : ∀ head, answer ≠ .ok (some head)) :
      Does r limits call answer ⟨.start limits, left, []⟩

theorem Stands.does_unfinished (hr : r.Stands limits) {progress : Progress} {left : Bytes}
    (h : r.progress.decode r.held = (.ok none, progress, left)) :
    r.Does limits .decode (.ok none)
      ⟨progress, left, r.taken ++ r.held.take (r.held.length - left.length)⟩ := by
  have hd := Progress.decode_eq_ok_iff.1 h
  obtain ⟨lines, hheld, hlines⟩ := Progress.exists_taken hd
  obtain ⟨-, -, hle, hmax⟩ := Progress.received_of_decodeLines hd
  obtain ⟨-, -, -, hstart⟩ := Progress.received_of_decodeLines hr
  have htake : r.held.take (r.held.length - left.length) = lines := by simp [hheld]
  rw [htake]
  refine .unfinished hheld ?_ ?_
  · unfold Stands
    rw [Progress.decodeLines_append hr, List.nil_append]
    exact hlines
  · rwa [hmax, hstart] at hle

theorem Stands.does_found (hr : r.Stands limits) {call : Call} {progress : Progress} {left : Bytes}
    {head : Head} (h : r.progress.decode r.held = (.ok (some head), progress, left))
    (hc : call.Ends (.ok (some head))) :
    r.Does limits call (.ok (some head)) ⟨progress, left, []⟩ := by
  obtain ⟨last, hheld⟩ := Progress.suffix_of_decodeLines (Progress.decode_eq_ok_iff.1 h)
  rw [hr.decode_eq] at h
  obtain ⟨⟨written, hbytes, hw⟩, rfl⟩ :=
    Progress.decodeLines_start_eq_some_iff.1 (Progress.decode_eq_ok_iff.1 h)
  obtain rfl : r.taken ++ last = written := by
    rw [← hheld, ← List.append_assoc] at hbytes
    exact List.append_cancel_right hbytes
  exact .found hc hheld.symm hw

/-- A head in the making that stands is new when it is given up. -/
theorem Stands.reset_eq (hr : r.Stands limits) : r.progress.reset = .start limits :=
  (Progress.reset_of_decodeLines hr).trans rfl

theorem Stands.does_failed (hr : r.Stands limits) {call : Call} {progress : Progress} {left : Bytes}
    {error : ReceiveError} (h : r.progress.decode r.held = (.error error, progress, left))
    (hc : call.Ends (.error error)) :
    r.Does limits call (.error error) ⟨progress, left, []⟩ := by
  obtain ⟨failed, hd, rfl⟩ := Progress.decode_eq_error_iff.1 h
  rw [(Progress.reset_of_decodeLines hd).trans hr.reset_eq]
  exact .gaveUp hc nofun

theorem Stands.does (hr : r.Stands limits) {call : Call} (h : call.run r = (answer, r')) :
    r.Does limits call answer r' := by
  cases call with
  | feed bytes =>
    cases h
    exact .fed bytes
  | decode =>
    rcases hd : r.progress.decode r.held with ⟨error | _ | head, progress, left⟩ <;>
      simp only [Call.run, hd] at h <;> cases h
    · exact hr.does_failed hd nofun
    · exact hr.does_unfinished hd
    · exact hr.does_found hd nofun
  | decodeLast =>
    rcases hd : r.progress.decode r.held with ⟨error | _ | head, progress, left⟩ <;>
      simp only [Call.run, Progress.decodeLast, hd] at h <;> cases h
    · exact hr.does_failed hd trivial
    · rw [(Progress.reset_of_decode hd).trans hr.reset_eq]
      refine .gaveUp trivial fun head => ?_
      split_ifs <;> nofun
    · exact hr.does_found hd trivial
  | reset =>
    cases h
    rw [hr.reset_eq]
    exact .gaveUp trivial nofun

theorem Does.stands {call : Call} (h : r.Does limits call answer r') (hr : r.Stands limits) :
    r'.Stands limits := by
  cases h with
  | fed bytes => exact hr
  | unfinished _ stands _ => exact stands
  | found | gaveUp => exact stands_new limits _

theorem Stands.run (hr : r.Stands limits) (calls : List Call) : (r.run calls).2.Stands limits := by
  induction calls generalizing r with
  | nil => exact hr
  | cons call calls ih => exact ih ((hr.does rfl).stands hr)

/-- Heads that stand in the bytes one after the other are handed out one after the other. -/
theorem Stands.run_decode (hr : r.Stands limits) {written : List Bytes} {heads : List Head}
    {rest : Bytes} (hw : List.Forall₂ (IsWritten limits) written heads)
    (hb : r.taken ++ r.held = written.flatten ++ rest) :
    r.run (List.replicate heads.length .decode) =
      (heads.map fun head => .ok (some head),
        if heads = [] then r else ⟨.start limits, rest, []⟩) := by
  induction hw generalizing r with
  | nil => rfl
  | @cons first head written heads hfirst hw ih =>
    have hd : r.progress.decode r.held =
        (.ok (some head), .start limits, written.flatten ++ rest) := by
      rw [hr.decode_eq, hb, List.flatten_cons, List.append_assoc, Progress.decode_eq_ok_iff]
      exact Progress.decodeLines_start_eq_some_iff.2 ⟨⟨first, rfl, hfirst⟩, rfl⟩
    have hlast : (if heads = [] then ⟨.start limits, written.flatten ++ rest, []⟩
        else ⟨.start limits, rest, []⟩) = (⟨.start limits, rest, []⟩ : Reading) := by
      cases hw <;> simp
    have hrun := ih (stands_new limits (written.flatten ++ rest)) rfl
    rw [hlast] at hrun
    rw [List.length_cons, List.replicate_succ, Reading.run]
    simp only [Call.run, hd, hrun, List.map_cons, reduceCtorEq, if_false]

/-! ## All calls -/

/-- Whatever the calls were, the head in the making counts the bytes of its first line and those of
its header lines, within the limits. Whatever call comes next, what is left of an unfinished head
fits; a call that hands a head out, finds that there is none or gives one up leaves a new head in
the making; and a head that is handed out is written in the bytes that were taken for it, and has
their number as its size. So heads that stand in the bytes one after the other are handed out in
their order by as many calls, and what is behind them is left. -/
theorem run_counts (limits : Limits) (calls : List Call) :
    let r := ((start limits).run calls).2
    (∃ first rest, r.taken = first ++ rest ∧ r.progress.Counts limits first rest) ∧
    (∀ (call : Call) (answer : Except ReceiveError (Option Head)) (after : Reading),
      call.run r = (answer, after) →
      (call = .decode → answer = .ok none →
        after.progress.received + after.held.length ≤ limits.maxHeadBytes.toNat) ∧
      (call.Ends answer → after.progress = .start limits) ∧
      ∀ head, answer = .ok (some head) →
        ∃ last, r.held = last ++ after.held ∧ IsWritten limits (r.taken ++ last) head ∧
          head.size = r.taken.length + last.length) ∧
    ∀ written heads rest, List.Forall₂ (IsWritten limits) written heads →
      r.taken ++ r.held = written.flatten ++ rest →
      r.run (List.replicate heads.length .decode) =
        (heads.map fun head => .ok (some head),
          if heads = [] then r else ⟨.start limits, rest, []⟩) := by
  intro r
  have hr : r.Stands limits := (stands_new limits []).run calls
  refine ⟨Progress.counts_of_taken hr, fun call answer after hcall => ?_,
    fun written heads rest hw hb => hr.run_decode hw hb⟩
  cases hr.does hcall with
  | fed bytes => exact ⟨nofun, nofun, nofun⟩
  | unfinished _ _ fits => exact ⟨fun _ _ => fits, fun hends => absurd rfl hends, nofun⟩
  | @found _ head last left _ held hwritten =>
    refine ⟨fun _ => nofun, fun _ => rfl, fun other he => ?_⟩
    cases he
    refine ⟨last, held, hwritten, ?_⟩
    rw [hwritten.size_eq, List.length_append]
  | gaveUp ends noHead =>
    refine ⟨fun hdecode hnone => ?_, fun _ => rfl, fun head he => absurd he (noHead head)⟩
    subst hdecode
    exact absurd hnone ends

/-- A head of which some is taken and one behind it are handed out, and a third is begun. -/
example :
    (start {}).run [.feed [80, 10], .decode, .feed [10, 81, 10, 10, 82, 10], .decode, .decode] =
      ([.ok none, .ok none, .ok none, .ok (some ⟨"P", .empty, none, 3⟩),
        .ok (some ⟨"Q", .empty, none, 3⟩)], ⟨.start {}, [82, 10], []⟩) := by
  cbv

/-- Behind its first line a head in the making counts bytes, though its block is as it was at the
start. -/
theorem block_eq_start_behind_first_line :
    let r := ((start {}).run [.feed [80, 73, 78, 71, 13, 10], .decode]).2
    r.progress.statusLine = some "PING" ∧ r.progress.received = 6 ∧
      r.progress.block = (Progress.start {}).block ∧
      ¬(r.progress.received = 0 ↔ r.progress.block = (Progress.start {}).block) := by
  decide +kernel

end Reading

end Courier.Head
