import Courier.Proofs.Head.Bounds
import Courier.Proofs.Receiver.Messages
import Courier.Proofs.Stream.Behind

/-!
# What a head costs

A head is read in passes of a loop (`Receiver.pass`), each of which reads and decodes a line;
`Receiver.Steps` lists what a pass can come to. The loop counts nothing but the bytes of the head,
and that is enough: every pass but the last takes a byte that fits (`Reaches.again`), so there are
no more passes than bytes that may be taken, and no more of them are held than fit, and the one that
shows that there are too many.

`Receiver.Reaches` is what every pass begins with, and `Reaches.of_mem_passes` the induction along
the passes. `readHead_costs` puts together what reading one head takes. It holds of streams that
never end as well: nothing behind the bytes that a head may take is looked at
(`Reaches.readLines_followedBy`).
-/

namespace Courier

namespace Receiver

variable {r r' : Receiver} {clock clock' : Clock} {inlet : Inlet}

/-! ## The loop that reads lines -/

/-- What a pass of the loop comes to. -/
inductive Pass where
  /-- The head is not complete, and the loop goes on. -/
  | again (r : Receiver) (clock : Clock)
  /-- The loop is over. -/
  | done (outcome : Outcome ReceiveError (Option Head)) (clock : Clock) (r : Receiver)

/-- The receiver after the pass. -/
def Pass.receiver : Pass → Receiver
  | again r _ => r
  | done _ _ r => r

/-- One pass: a line is read and decoded. -/
def pass (r : Receiver) (clock : Clock) : Pass :=
  match r.inlet.readLine clock r.deadline r.lineLimit.toNat with
  | (.error reason, clock, inlet) => .done (.error (.io reason)) clock { r with inlet }
  | (.expired, clock, inlet) => .done .expired clock { r with inlet }
  | (.stalled, clock, inlet) => .done .stalled clock { r with inlet }
  | (.ok line, clock, inlet) =>
    if line.isEmpty then
      match r.progress.decodeLast r.held with
      | (answer, progress, held) => .done (.ofExcept answer) clock { r with inlet, progress, held }
    else
      match r.progress.decode (r.held ++ line) with
      | (.ok none, progress, held) => .again { r with inlet, progress, held } clock
      | (answer, progress, held) => .done (.ofExcept answer) clock { r with inlet, progress, held }

/-- Reading lines is making passes until one is the last. -/
theorem readLines_eq_pass (r : Receiver) (clock : Clock) :
    r.readLines clock =
      match r.pass clock with
      | .again r clock => r.readLines clock
      | .done outcome clock r => (outcome, clock, r) := by
  rcases hl : r.inlet.readLine clock r.deadline r.lineLimit.toNat with ⟨read, later, inlet⟩
  unfold pass
  rw [hl]
  cases read with
  | ok line =>
    rw [readLines_of_readLine hl]
    dsimp only
    split
    · rfl
    · rcases r.progress.decode (r.held ++ line) with ⟨error | _ | head, q, held⟩ <;> rfl
  | error reason | expired | stalled =>
    rw [readLines]
    split <;> rename_i h <;> rw [hl] at h <;> cases h
    rfl

/-- What a pass can come to, by the line that is read and what it decodes to. -/
inductive Steps (r : Receiver) (clock : Clock) : Pass → Prop
  | failed {reason : String} {later : Clock} {inlet : Inlet}
      (hl : r.inlet.readLine clock r.deadline r.lineLimit.toNat = (.error reason, later, inlet)) :
      Steps r clock (.done (.error (.io reason)) later { r with inlet })
  | expired {later : Clock} {inlet : Inlet}
      (hl : r.inlet.readLine clock r.deadline r.lineLimit.toNat = (.expired, later, inlet)) :
      Steps r clock (.done .expired later { r with inlet })
  | stalled {later : Clock} {inlet : Inlet}
      (hl : r.inlet.readLine clock r.deadline r.lineLimit.toNat = (.stalled, later, inlet)) :
      Steps r clock (.done .stalled later { r with inlet })
  | last {answer : Except ReceiveError (Option Head)} {later : Clock} {inlet : Inlet}
      {progress : Head.Progress} {held : Bytes} {outcome : Outcome ReceiveError (Option Head)}
      (hl : r.inlet.readLine clock r.deadline r.lineLimit.toNat = (.ok [], later, inlet))
      (hd : r.progress.decodeLast r.held = (answer, progress, held))
      (ho : .ofExcept answer = outcome) :
      Steps r clock (.done outcome later { r with inlet, progress, held })
  | decoded {answer : Except ReceiveError (Option Head)} {line : Bytes} {later : Clock}
      {inlet : Inlet} {progress : Head.Progress} {held : Bytes}
      {outcome : Outcome ReceiveError (Option Head)}
      (hl : r.inlet.readLine clock r.deadline r.lineLimit.toNat = (.ok line, later, inlet))
      (hd : r.progress.decode (r.held ++ line) = (answer, progress, held)) (ha : answer ≠ .ok none)
      (ho : .ofExcept answer = outcome) :
      Steps r clock (.done outcome later { r with inlet, progress, held })
  | again {line : Bytes} {later : Clock} {inlet : Inlet} {progress : Head.Progress} {held : Bytes}
      (hl : r.inlet.readLine clock r.deadline r.lineLimit.toNat = (.ok line, later, inlet))
      (hn : line ≠ [])
      (hd : r.progress.decodeLines (r.held ++ line) = (.ok none, progress, held)) :
      Steps r clock (.again { r with inlet, progress, held } later)

theorem steps_of_pass {p : Pass} (h : r.pass clock = p) : r.Steps clock p := by
  subst h
  rcases hl : r.inlet.readLine clock r.deadline r.lineLimit.toNat with ⟨read, later, inlet⟩
  unfold pass
  rw [hl]
  cases read with
  | error reason => exact .failed hl
  | expired => exact .expired hl
  | stalled => exact .stalled hl
  | ok line =>
    dsimp only
    split_ifs with he
    · obtain rfl := List.isEmpty_iff.1 he
      exact .last hl rfl rfl
    · rcases hd : r.progress.decode (r.held ++ line) with ⟨error | _ | head, q, held⟩
      · exact .decoded hl hd (by simp) rfl
      · exact .again hl (by simpa using he) (Head.Progress.decode_eq_ok_iff.1 hd)
      · exact .decoded hl hd (by simp) rfl

theorem weight_pass_lt (h : r.pass clock = .again r' clock') :
    r'.inlet.weight < r.inlet.weight := by
  cases steps_of_pass h with
  | again hl hn hd =>
    have hle := Inlet.length_add_weight_gather_le hl
    have hpos := List.length_pos_iff.2 hn
    dsimp only
    omega

/-- The receiver and the clock at the beginning of each pass. -/
def passes (r : Receiver) (clock : Clock) : List (Receiver × Clock) :=
  (r, clock) ::
    match _h : r.pass clock with
    | .again r clock => passes r clock
    | .done .. => []
termination_by r.inlet.weight
decreasing_by exact weight_pass_lt _h

theorem passes_of_again (h : r.pass clock = .again r' clock') :
    r.passes clock = (r, clock) :: r'.passes clock' := by
  rw [passes]
  split <;> rename_i hp <;> rw [h] at hp <;> cases hp
  rfl

theorem passes_of_done {outcome : Outcome ReceiveError (Option Head)}
    (h : r.pass clock = .done outcome clock' r') : r.passes clock = [(r, clock)] := by
  rw [passes]
  split
  · rename_i hp
    rw [h] at hp
    cases hp
  · rfl

/-- Induction along the passes. -/
theorem passInduction {motive : Receiver → Clock → Prop}
    (done : ∀ r clock outcome clock' r', r.pass clock = .done outcome clock' r' → motive r clock)
    (again : ∀ r clock r' clock', r.pass clock = .again r' clock' → motive r' clock' →
      motive r clock)
    (r : Receiver) (clock : Clock) : motive r clock := by
  induction hn : r.inlet.weight using Nat.strongRecOn generalizing r clock with
  | ind n ih =>
    cases hp : r.pass clock with
    | done outcome clock' r' => exact done r clock outcome clock' r' hp
    | again r' clock' =>
      exact again r clock r' clock' hp (ih _ (hn ▸ weight_pass_lt hp) r' clock' rfl)

/-- What reading lines comes to is what the last pass comes to. -/
theorem exists_last_pass (r : Receiver) (clock : Clock) :
    ∃ last ∈ r.passes clock, ∃ outcome clock' r',
      last.1.pass last.2 = .done outcome clock' r' ∧
        r.readLines clock = (outcome, clock', r') := by
  induction r, clock using passInduction with
  | done r clock outcome clock' r' h =>
    refine ⟨(r, clock), ?_, outcome, clock', r', h, ?_⟩
    · rw [passes]
      exact List.mem_cons_self ..
    · rw [readLines_eq_pass, h]
  | again r clock r' clock' h ih =>
    obtain ⟨last, hm, outcome, clock₂, r₂, hp, hr⟩ := ih
    refine ⟨last, ?_, outcome, clock₂, r₂, hp, ?_⟩
    · rw [passes_of_again h]
      exact List.mem_cons_of_mem _ hm
    · rw [readLines_eq_pass, h]
      exact hr

/-! ## What is held -/

/-- The bytes of the head that are held, in lines that were taken and behind them. -/
def holding (r : Receiver) : Nat :=
  r.progress.received + r.held.length

/-- A byte that a pass takes off the stream is held from then on. -/
theorem holding_of_again (h : r.pass clock = .again r' clock') :
    r'.holding + r'.inlet.bytes.length = r.holding + r.inlet.bytes.length := by
  cases steps_of_pass h with
  | again hl hn hd =>
    have hsum := (Head.Progress.received_of_decodeLines hd).1
    have hb := congrArg List.length (Inlet.gives_gather hl).bytes
    rw [List.length_append] at hsum hb
    simp only [holding]
    omega

/-- No more is held than the limits allow, but for the one byte that shows that it is more. -/
structure Within (r : Receiver) (limits : Limits) : Prop where
  bytes : r.holding ≤ limits.maxHeadBytes.toNat + 1
  values : r.progress.block.headers.valueCount ≤ limits.maxHeaders.toNat

/-- The receiver when it has read some bytes of the next line. -/
def filled (r : Receiver) (line : Bytes) (inlet : Inlet) : Receiver :=
  { r with inlet, held := r.held ++ line }

/-- What every pass begins with, `r` being what the loop began with. -/
structure Reaches (limits : Limits) (r r' : Receiver) : Prop extends Sound r' where
  counted : r'.progress.Counted
  maxBytes : r'.progress.maxBytes = limits.maxHeadBytes
  maxHeaders : r'.progress.block.maxHeaders = limits.maxHeaders.toNat
  ending : r'.inlet.source.ending = r.inlet.source.ending
  grows : r.holding ≤ r'.holding
  draws : r.inlet.Draws (r'.holding - r.holding) r'.inlet

theorem Fresh.reaches {limits : Limits} (hr : r.Fresh limits)
    (hm : limits.maxHeadBytes.toNat < Numeral.maxUnsigned) : Reaches limits r r := by
  refine ⟨hr.sound hm, ?_, ?_, ?_, rfl, Nat.le_refl _, .of_eq rfl _⟩
  all_goals rw [hr.progress]
  · exact ⟨Nat.zero_le _, Nat.zero_le _⟩
  · rfl
  · rfl

namespace Reaches

variable {limits : Limits} {first : Receiver}

/-- A pass that leaves the head unfinished takes a line, and the head grows by it. -/
theorem again (h : Reaches limits first r) (hp : r.pass clock = .again r' clock') :
    Reaches limits first r' ∧ r.holding < r'.holding := by
  cases steps_of_pass hp with
  | @again line _ inlet q held hl hn hd =>
    obtain ⟨hsum, -, -, hmax⟩ := Head.Progress.received_of_decodeLines hd
    obtain ⟨hcounted, hheaders⟩ := h.counted.decodeLines hd
    have hpos := List.length_pos_iff.2 hn
    have hgrows : q.received + held.length = r.holding + line.length := by
      rw [hsum, List.length_append, holding]
      omega
    have hg := Inlet.gives_gather hl
    have hdraws : r.inlet.Draws line.length inlet := ⟨line, Nat.le_refl _, hg.bytes⟩
    have hfirst := h.grows
    refine ⟨⟨h.toSound.decode hl hn hd, hcounted, hmax.trans h.maxBytes,
      hheaders.trans h.maxHeaders, hg.ending.trans h.ending, ?_,
      (h.draws.trans hdraws).mono ?_⟩, ?_⟩
    · show first.holding ≤ q.received + held.length
      omega
    · show _ ≤ q.received + held.length - first.holding
      omega
    · show r.holding < q.received + held.length
      omega

theorem held_or_nil (h : Reaches limits first r) :
    r.held = [] ∧ r.lineLimit.toNat = limits.maxHeadBytes.toNat + 1 - r.holding ∨
      r.inlet.bytes = [] ∧ r.holding ≤ limits.maxHeadBytes.toNat := by
  have hfits := h.fits
  have hlimit := h.toNat_lineLimit
  rw [h.maxBytes] at hfits hlimit
  rcases h.last with hheld | ⟨hbytes, -⟩
  · refine .inl ⟨hheld, ?_⟩
    rw [hheld, List.length_nil] at hfits
    rw [hlimit, holding, hheld, List.length_nil]
    omega
  · exact .inr ⟨hbytes, hfits⟩

theorem within (h : Reaches limits first r) : r.Within limits := by
  have hfits : r.holding ≤ r.progress.maxBytes.toNat := h.fits
  rw [h.maxBytes] at hfits
  exact ⟨Nat.le_succ_of_le hfits, h.maxHeaders ▸ h.counted.bound⟩

/-- Whatever reading a line comes to, the bytes that it takes may be held. -/
theorem exists_taken {outcome : Outcome String Bytes} (h : Reaches limits first r)
    (hl : r.inlet.readLine clock r.deadline r.lineLimit.toNat = (outcome, clock', inlet)) :
    ∃ taken, taken ++ inlet.bytes = r.inlet.bytes ∧
      r.holding + taken.length ≤ limits.maxHeadBytes.toNat + 1 ∧
      ∀ line, outcome = .ok line → line = taken := by
  obtain ⟨taken, hle, hb⟩ := Inlet.draws_gather hl
  refine ⟨taken, hb, ?_, ?_⟩
  · have hfits : r.holding ≤ r.progress.maxBytes.toNat := h.fits
    rw [h.maxBytes] at hfits
    rcases h.held_or_nil with ⟨-, hlimit⟩ | ⟨hbytes, -⟩
    · omega
    · rw [hbytes, List.append_eq_nil_iff] at hb
      rw [hb.1, List.length_nil]
      omega
  · rintro line rfl
    exact List.append_cancel_right ((Inlet.gives_gather hl).bytes.trans hb.symm)

theorem received_add_le {line : Bytes} (h : Reaches limits first r)
    (hl : r.inlet.readLine clock r.deadline r.lineLimit.toNat = (.ok line, clock', inlet)) :
    r.progress.received + (r.held ++ line).length ≤ limits.maxHeadBytes.toNat + 1 := by
  obtain ⟨taken, -, ht, hline⟩ := h.exists_taken hl
  obtain rfl := hline line rfl
  rw [List.length_append, ← Nat.add_assoc]
  exact ht

theorem draws_line {outcome : Outcome String Bytes} (h : Reaches limits first r)
    (hl : r.inlet.readLine clock r.deadline r.lineLimit.toNat = (outcome, clock', inlet)) :
    first.inlet.Draws (limits.maxHeadBytes.toNat + 1 - first.holding) inlet := by
  obtain ⟨taken, hb, ht, -⟩ := h.exists_taken hl
  have hgrows := h.grows
  exact (h.draws.trans ⟨taken, Nat.le_refl _, hb⟩).mono (by omega)

theorem within_filled {taken : Bytes} (h : Reaches limits first r)
    (ht : r.holding + taken.length ≤ limits.maxHeadBytes.toNat + 1) (inlet : Inlet) :
    (r.filled taken inlet).Within limits := by
  refine ⟨?_, ?_⟩
  · simp only [Receiver.filled, holding, List.length_append] at ht ⊢
    omega
  · exact h.maxHeaders ▸ h.counted.bound

/-- What decoding leaves of bytes that may be held may be held. -/
theorem within_of_holds {bytes left : Bytes} {q : Head.Progress} (h : Reaches limits first r)
    (hh : r.progress.Holds bytes q left)
    (hb : r.progress.received + bytes.length ≤ limits.maxHeadBytes.toNat + 1) (inlet : Inlet) :
    Within { r with inlet, progress := q, held := left } limits :=
  ⟨Nat.le_trans hh.bytes hb, h.maxHeaders ▸ hh.maxHeaders ▸ hh.counted.bound⟩

/-- Whatever a pass comes to, what is left may be held. -/
theorem within_pass (h : Reaches limits first r) (clock : Clock) :
    (r.pass clock).receiver.Within limits := by
  have hfits : r.holding ≤ limits.maxHeadBytes.toNat := h.maxBytes ▸ h.fits
  generalize hp : r.pass clock = p
  cases steps_of_pass hp with
  | failed | expired | stalled => exact ⟨h.within.bytes, h.within.values⟩
  | last hl hd =>
    exact h.within_of_holds (Head.Progress.holds_decodeLast h.counted hd)
      (Nat.le_succ_of_le hfits) _
  | decoded hl hd =>
    exact h.within_of_holds (Head.Progress.holds_decode h.counted hd) (h.received_add_le hl) _
  | again hl hn hd =>
    exact h.within_of_holds (Head.Progress.holds_decodeLines h.counted hd) (h.received_add_le hl) _

/-- Whatever a pass comes to, no more bytes are taken than there is room for. -/
theorem draws_pass (h : Reaches limits first r) (clock : Clock) :
    first.inlet.Draws (limits.maxHeadBytes.toNat + 1 - first.holding)
      (r.pass clock).receiver.inlet := by
  generalize hp : r.pass clock = p
  cases steps_of_pass hp with
  | failed hl | expired hl | stalled hl | last hl | decoded hl | again hl => exact h.draws_line hl

/-- A head that is too large is found so when one byte shows it. -/
theorem size_of_pass {size limit : Nat} (h : Reaches limits first r)
    (hp : r.pass clock = .done (.error (.headTooLarge size limit)) clock' r') :
    size = limits.maxHeadBytes.toNat + 1 ∧ limit = limits.maxHeadBytes.toNat := by
  have hfits : r.progress.received + r.held.length ≤ limits.maxHeadBytes.toNat :=
    h.maxBytes ▸ h.fits
  have hcount : ∃ bytes q left,
      r.progress.decodeLines bytes = (.error (.headTooLarge size limit), q, left) ∧
        r.progress.received + bytes.length ≤ limits.maxHeadBytes.toNat + 1 := by
    cases steps_of_pass hp with
    | last hl hd ho =>
      obtain rfl := Outcome.ofExcept_eq_error_iff.1 ho
      obtain ⟨q, left, hlines⟩ := Head.Progress.decodeLines_of_decodeLast hd
      exact ⟨_, q, left, hlines, Nat.le_succ_of_le hfits⟩
    | decoded hl hd ha ho =>
      obtain rfl := Outcome.ofExcept_eq_error_iff.1 ho
      obtain ⟨q, hlines, -⟩ := Head.Progress.decode_eq_error_iff.1 hd
      exact ⟨_, q, _, hlines, h.received_add_le hl⟩
  obtain ⟨bytes, q, left, hd, hle⟩ := hcount
  obtain ⟨rfl, hlt, hsize⟩ := Head.Progress.size_of_decodeLines hd
  rw [h.maxBytes] at hlt ⊢
  exact ⟨by omega, rfl⟩

theorem flows_line (h : Reaches limits first r)
    (hf : r.inlet.Flows (limits.maxHeadBytes.toNat + 1 - r.holding)) :
    r.inlet.Flows r.lineLimit.toNat := by
  rcases h.held_or_nil with ⟨-, hlimit⟩ | ⟨hbytes, hle⟩
  · rwa [hlimit]
  · refine ⟨hf.pieces, .inl (hf.enough.resolve_right fun hl => ?_)⟩
    rw [hbytes, List.length_nil] at hl
    omega

/-- Where no read has to wait, no pass does, and it leaves it so. -/
theorem flows_pass (h : Reaches limits first r) (clock : Clock)
    (hf : r.inlet.Flows (limits.maxHeadBytes.toNat + 1 - r.holding)) :
    match r.pass clock with
    | .again r' _ => r'.inlet.Flows (limits.maxHeadBytes.toNat + 1 - r'.holding)
    | .done outcome _ _ => outcome ≠ .expired ∧ outcome ≠ .stalled := by
  have hline := h.flows_line hf
  generalize hp : r.pass clock = p
  cases steps_of_pass hp with
  | failed hl => simp
  | expired hl => exact absurd rfl (hline.gather (Nat.le_refl _) hl).1
  | stalled hl => exact absurd rfl (hline.gather (Nat.le_refl _) hl).2.1
  | @last answer _ _ _ _ _ hl hd ho | @decoded answer _ _ _ _ _ _ hl hd ha ho =>
    subst ho
    cases answer <;> simp [Outcome.ofExcept]
  | @again line _ inlet q held hl hn hd =>
    have hleft := (hline.gather (Nat.le_refl _) hl).2.2 line rfl
    rcases h.held_or_nil with ⟨-, hlimit⟩ | ⟨hbytes, -⟩
    · have hsum := (Head.Progress.received_of_decodeLines hd).1
      have hholding : holding { r with inlet, progress := q, held } = r.holding + line.length := by
        rw [List.length_append] at hsum
        simp only [holding]
        omega
      rw [hlimit, Nat.sub_sub, ← hholding] at hleft
      exact hleft
    · have hb := (Inlet.gives_gather hl).bytes
      rw [hbytes, List.append_eq_nil_iff] at hb
      exact absurd hb.1 hn

/-- What holds when the loop begins holds when each pass does. -/
theorem of_mem_passes (h : Reaches limits first r) {start : Receiver × Clock}
    (hm : start ∈ r.passes clock) : Reaches limits first start.1 := by
  induction r, clock using passInduction with
  | done r clock outcome clock' r' hp =>
    rw [passes_of_done hp, List.mem_singleton] at hm
    exact hm ▸ h
  | again r clock r' clock' hp ih =>
    rw [passes_of_again hp, List.mem_cons] at hm
    rcases hm with rfl | hm
    · exact h
    · exact ih (h.again hp).1 hm

/-- Every pass but the last takes a byte that fits. -/
theorem length_passes_le (h : Reaches limits first r) (clock : Clock) :
    (r.passes clock).length + r.holding ≤ limits.maxHeadBytes.toNat + 1 := by
  induction r, clock using passInduction with
  | done r clock outcome clock' r' hp =>
    have hfits : r.holding ≤ r.progress.maxBytes.toNat := h.fits
    rw [h.maxBytes] at hfits
    rw [passes_of_done hp, List.length_singleton]
    omega
  | again r clock r' clock' hp ih =>
    obtain ⟨hr, hlt⟩ := h.again hp
    have := ih hr
    rw [passes_of_again hp, List.length_cons]
    omega

theorem not_late_of_flows {outcome : Outcome ReceiveError (Option Head)}
    (h : Reaches limits first r)
    (hf : r.inlet.Flows (limits.maxHeadBytes.toNat + 1 - r.holding))
    (hr : r.readLines clock = (outcome, clock', r')) :
    outcome ≠ .expired ∧ outcome ≠ .stalled := by
  induction r, clock using passInduction with
  | done r clock read clock₁ r₁ hp =>
    have hlate := h.flows_pass clock hf
    rw [readLines_eq_pass, hp] at hr
    rw [hp] at hlate
    cases hr
    exact hlate
  | again r clock r₁ clock₁ hp ih =>
    have hflows := h.flows_pass clock hf
    rw [readLines_eq_pass, hp] at hr
    rw [hp] at hflows
    exact ih (h.again hp).1 hflows hr

end Reaches

/-! ## What lies behind -/

/-- The receiver with more behind its stream, and another end. -/
def followedBy (r : Receiver) (more : List Piece) (ending : Ending) : Receiver :=
  { r with inlet := r.inlet.followedBy more ending }

/-- The pass with more behind the stream, and another end. -/
def Pass.followedBy (more : List Piece) (ending : Ending) : Pass → Pass
  | again r clock => again (r.followedBy more ending) clock
  | done outcome clock r => done outcome clock (r.followedBy more ending)

namespace Reaches

variable {limits : Limits} {first : Receiver}

theorem pass_followedBy (h : Reaches limits first r)
    (hb : limits.maxHeadBytes.toNat < r.holding + r.inlet.bytes.length) (clock : Clock)
    (more : List Piece) (ending : Ending) :
    (r.followedBy more ending).pass clock = (r.pass clock).followedBy more ending := by
  have hlimit : r.lineLimit.toNat ≤ r.inlet.bytes.length := by
    rcases h.held_or_nil with ⟨-, hlimit⟩ | ⟨hbytes, hle⟩
    · omega
    · rw [hbytes, List.length_nil] at hb
      omega
  rcases hl : r.inlet.readLine clock r.deadline r.lineLimit.toNat with ⟨read, later, inlet⟩
  have hread : (r.followedBy more ending).inlet.readLine clock (r.followedBy more ending).deadline
      (r.followedBy more ending).lineLimit.toNat = (read, later, inlet.followedBy more ending) :=
    Inlet.gather_followedBy hlimit hl more ending
  unfold pass
  rw [hl, hread]
  cases read with
  | ok line =>
    dsimp only [followedBy]
    split_ifs
    · rfl
    · rcases r.progress.decode (r.held ++ line) with ⟨error | _ | head, q, left⟩ <;> rfl
  | _ => rfl

/-- The loop takes no notice of what is behind the bytes that a head may have, and one more. -/
theorem readLines_followedBy {outcome : Outcome ReceiveError (Option Head)}
    (h : Reaches limits first r)
    (hb : limits.maxHeadBytes.toNat < r.holding + r.inlet.bytes.length)
    (hr : r.readLines clock = (outcome, clock', r')) (more : List Piece) (ending : Ending) :
    (r.followedBy more ending).readLines clock = (outcome, clock', r'.followedBy more ending) ∧
      (r.followedBy more ending).passes clock =
        (r.passes clock).map fun start => (start.1.followedBy more ending, start.2) := by
  induction r, clock using passInduction with
  | done r clock read clock₁ r₁ hp =>
    have hpass := h.pass_followedBy hb clock more ending
    rw [hp, Pass.followedBy] at hpass
    rw [readLines_eq_pass, hp] at hr
    cases hr
    rw [readLines_eq_pass, hpass, passes_of_done hpass, passes_of_done hp]
    exact ⟨rfl, rfl⟩
  | again r clock r₁ clock₁ hp ih =>
    have hpass := h.pass_followedBy hb clock more ending
    rw [hp, Pass.followedBy] at hpass
    rw [readLines_eq_pass, hp] at hr
    obtain ⟨hlines, hpasses⟩ := ih (h.again hp).1 (holding_of_again hp ▸ hb) hr
    rw [readLines_eq_pass, hpass, passes_of_again hpass, passes_of_again hp, hpasses]
    exact ⟨hlines, rfl⟩

end Reaches

/-! ## Heads -/

/-- The receiver when the loop is over: an error gives the head up. -/
def after (r : Receiver) (read : Outcome ReceiveError (Option Head)) : Receiver :=
  match read with
  | .error _ | .expired => r.reset
  | .ok _ | .stalled => r

theorem readHead_of_readLines {read : Outcome ReceiveError (Option Head)}
    (h : r.readLines clock.begin = (read, clock', r')) :
    r.readHead clock = (read.within .timeout, clock', r'.after read) := by
  unfold readHead
  rw [h]
  cases read <;> rfl

theorem inlet_after (r : Receiver) (read : Outcome ReceiveError (Option Head)) :
    (r.after read).inlet = r.inlet := by
  cases read <;> rfl

theorem after_followedBy (r : Receiver) (read : Outcome ReceiveError (Option Head))
    (more : List Piece) (ending : Ending) :
    (r.followedBy more ending).after read = (r.after read).followedBy more ending := by
  cases read <;> rfl

/-- Reading a head costs no more than its limits, whatever the stream is and wherever it goes: so
many passes, bytes taken and held, and header values; and what comes of it is decided before the
rest of the stream is looked at. -/
theorem readHead_costs {limits : Limits} (hr : r.Fresh limits)
    (hm : limits.maxHeadBytes.toNat < Numeral.maxUnsigned) (clock : Clock) :
    (r.passes clock.begin).length ≤ limits.maxHeadBytes.toNat + 1 ∧
    (∀ start ∈ r.passes clock.begin,
      start.1.Within limits ∧ (start.1.pass start.2).receiver.Within limits ∧
      ∃ taken inlet,
        (start.1.inlet.readLine start.2 start.1.deadline start.1.lineLimit.toNat).2.2 = inlet ∧
        taken ++ inlet.bytes = start.1.inlet.bytes ∧
        (start.1.filled taken inlet).Within limits) ∧
    ∃ outcome later r',
      r.readHead clock = (outcome, later, r') ∧
      r.inlet.Draws (limits.maxHeadBytes.toNat + 1) r'.inlet ∧
      (∀ head, outcome = .ok (some head) →
        head.size ≤ limits.maxHeadBytes.toNat ∧
          head.headers.valueCount ≤ limits.maxHeaders.toNat) ∧
      (∀ size limit, outcome = .error (.headTooLarge size limit) →
        size = limits.maxHeadBytes.toNat + 1 ∧ limit = limits.maxHeadBytes.toNat) ∧
      (r.inlet.Flows (limits.maxHeadBytes.toNat + 1) → ¬outcome.IsLate) ∧
      (limits.maxHeadBytes.toNat < r.inlet.bytes.length → ∀ more ending,
        (r.followedBy more ending).readHead clock =
            (outcome, later, r'.followedBy more ending) ∧
          (r.followedBy more ending).passes clock.begin =
            (r.passes clock.begin).map fun start =>
              (start.1.followedBy more ending, start.2)) := by
  have hreaches := hr.reaches hm
  have hnothing : r.holding = 0 := by
    rw [holding, hr.progress, hr.held]
    rfl
  refine ⟨?_, fun start hstart => ?_, ?_⟩
  · have := hreaches.length_passes_le clock.begin
    omega
  · have hstarts := hreaches.of_mem_passes hstart
    rcases hl : start.1.inlet.readLine start.2 start.1.deadline start.1.lineLimit.toNat with
      ⟨read, later, inlet⟩
    obtain ⟨taken, hb, ht, -⟩ := hstarts.exists_taken hl
    exact ⟨hstarts.within, hstarts.within_pass start.2, taken, inlet, rfl, hb,
      hstarts.within_filled ht inlet⟩
  · obtain ⟨last, hlast, read, later, left, hpass, hlines⟩ := exists_last_pass r clock.begin
    have hlasts := hreaches.of_mem_passes hlast
    have hhead := readHead_of_readLines hlines
    have hdraws := hlasts.draws_pass last.2
    rw [hpass, hnothing, Nat.sub_zero] at hdraws
    refine ⟨_, later, _, hhead, ?_, ?_, ?_, ?_, ?_⟩
    · rw [inlet_after]
      exact hdraws
    · intro head hok
      rw [hok] at hhead
      obtain ⟨written, -, hw⟩ := isWritten_of_readHead hr hm hhead
      exact ⟨hw.size_le, hw.valueCount_le⟩
    · intro size limit herror
      cases read with
      | error error =>
        cases herror
        exact hlasts.size_of_pass hpass
      | _ => cases herror
    · intro hf
      obtain ⟨hexpired, hstalled⟩ := hreaches.not_late_of_flows (by rwa [hnothing]) hlines
      cases read with
      | ok answer => exact id
      | error error => exact (reads_of_readLines hreaches.toSound hlines).toClass_ne_timeout
      | expired => exact absurd rfl hexpired
      | stalled => exact absurd rfl hstalled
    · intro hb more ending
      obtain ⟨hbehind, hpasses⟩ :=
        hreaches.readLines_followedBy (by omega) hlines more ending
      refine ⟨?_, hpasses⟩
      rw [readHead_of_readLines hbehind, after_followedBy]

theorem readHead_costs_of_endless :
    ∃ outcome later, ∃ r' : Receiver,
      (∀ more ending,
        ((start { pieces := [.chunk [65, 65, 65], .chunk [65, 65]] } { maxHeadBytes := 4 }
          0).followedBy more ending).readHead {} = (outcome, later, r'.followedBy more ending)) ∧
      ¬outcome.IsLate ∧
      (Inlet.buffered { pieces := [.chunk [65, 65, 65], .chunk [65, 65]] }).Draws 5 r'.inlet := by
  have hfresh : (start { pieces := [.chunk [65, 65, 65], .chunk [65, 65]] } { maxHeadBytes := 4 }
      0).Fresh { maxHeadBytes := 4 } := ⟨rfl, rfl⟩
  obtain ⟨-, -, outcome, later, r', -, hdraws, -, -, hlate, hbehind⟩ :=
    readHead_costs hfresh (by decide) {}
  refine ⟨outcome, later, r', fun more ending => (hbehind (by decide) more ending).1, ?_, hdraws⟩
  exact hlate ⟨by simp [start, Inlet.buffered], .inl nofun⟩

end Receiver

end Courier
