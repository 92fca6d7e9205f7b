import Courier.Proofs.Head.Chunks
import Courier.Proofs.Receiver.Messages
import Courier.Proofs.Relay.Stream
import Courier.Proofs.Sender

/-!
# Messages that are there

A head that stands in a stream is read, whatever is behind it and however the stream ends
(`Receiver.Fresh.readMessage`), and a message whose body stands in a stream is sent to a sink that
takes everything (`Sender.carries_send`): each ends well unless it is too late.
-/

namespace Courier

namespace Body

/-- What is complete stays as it is. -/
theorem checkComplete_of_complete {α : Type} {body : Body} {size : α → Nat}
    {outcome : Outcome BodyError α} (h : ∀ value, outcome = .ok value → body.length ≤ size value) :
    body.checkComplete size outcome = outcome := by
  cases outcome with
  | ok value => exact checkComplete_eq_ok_iff.2 ⟨rfl, h value rfl⟩
  | _ => rfl

/-- A body that is there is copied to a sink that takes everything, unless it is too late. -/
theorem carries_copy {body body' : Body} {outer : Deadline} {c c' : Channel}
    {outcome : Outcome BodyError Nat} (hc : body.consumed = false)
    (hl : body.length ≤ c.inlet.bytes.length) (ho : c.outlet.IsOpen)
    (h : body.copy outer c = (outcome, body', c')) :
    c.Carries (fun e => e.toClass = .timeout)
      (c.inlet.Timely c.clock body.deadline ∧ c.inlet.Timely c.clock outer)
      (c.inlet.bytes.take body.length) outcome c' := by
  rw [copy, hc, if_neg Bool.false_ne_true] at h
  split_ifs at h with hz
  · cases h
    rw [hz, List.take_zero]
    exact .ok _ (.refl ..) ho
  · rcases hr : Transfer.run c (body.deadline.earliest outer) body.length with ⟨moved, c₁⟩
    have hrun := (Transfer.carries_run ho hl hr).mono Inlet.timely_earliest_iff.2
    have hio : c.Carries (fun e => e.toClass = .timeout)
        (c.inlet.Timely c.clock body.deadline ∧ c.inlet.Timely c.clock outer)
        (c.inlet.bytes.take body.length) (moved.mapError BodyError.io) c₁ :=
      hrun.mapError (by rintro _ ⟨⟩)
    -- A transfer that ended well moved the whole body, so nothing is incomplete.
    have hcomplete : ∀ total, moved = .ok total → body.length ≤ total := by
      rintro total rfl
      have hn := (Transfer.moves_run hr).count
      rw [List.length_take, Nat.min_eq_left hl] at hn
      exact Nat.le_of_eq hn.symm
    rw [hr] at h
    dsimp only at h
    split_ifs at h
    · rw [checkComplete_of_complete (by simpa using hcomplete)] at h
      cases h
      exact hio.within rfl
    · rw [checkComplete_of_complete (by simpa using hcomplete)] at h
      cases h
      exact hio

end Body

namespace Message

theorem carries_writeBody {m m' : Message} {outer : Deadline} {headSize : Nat} {c c' : Channel}
    {outcome : Outcome SendError Nat} (hc : m.body.consumed = false)
    (hl : m.body.length ≤ c.inlet.bytes.length) (ho : c.outlet.IsOpen)
    (h : m.writeBody outer headSize c = (outcome, m', c')) :
    c.Carries (fun e => e.toClass = .timeout)
      (c.inlet.Timely c.clock m.body.deadline ∧ c.inlet.Timely c.clock outer)
      (c.inlet.bytes.take m.body.length) outcome c' := by
  rcases hcopy : m.body.copy outer c with ⟨copied, body, c₁⟩
  have hcarries := Body.carries_copy hc hl ho hcopy
  rw [writeBody, hcopy] at h
  cases copied with
  | ok count =>
    obtain ⟨hg, ho₁⟩ := hcarries.after count rfl
    obtain ⟨o, hf, ho₂⟩ := ho₁.exists_flush
    simp only [Channel.flush, hf] at h
    cases h
    exact .ok _ hg ho₂
  | error error =>
    cases h
    exact ⟨hcarries.endsWell, by rintro _ ⟨⟩⟩
  | expired =>
    cases h
    exact .expired hcarries.endsWell
  | stalled =>
    cases h
    exact .stalled hcarries.endsWell

/-- A message whose body is there is written to a sink that takes everything, unless it is too
late. -/
theorem carries_write {m m' : Message} {outer : Deadline} {c c' : Channel}
    {outcome : Outcome SendError Nat} (hc : m.body.consumed = false)
    (hm : m.head.bodySize = m.body.length) (hl : m.body.length ≤ c.inlet.bytes.length)
    (ho : c.outlet.IsOpen) (h : m.write outer c = (outcome, m', c')) :
    c.Carries (fun e => e.toClass = .timeout)
      (c.inlet.Timely c.clock m.body.deadline ∧ c.inlet.Timely c.clock outer)
      (c.inlet.bytes.take m.body.length) outcome c' := by
  obtain ⟨o, hp, ho₁⟩ := ho.exists_push m.head.encode
  rw [write, hc, if_neg Bool.false_ne_true, if_neg (not_not.2 hm), Channel.push, hp] at h
  have hcarries : Channel.Carries _ _ _ _ outcome c' :=
    carries_writeBody (c := { c with outlet := o }) hc hl ho₁ h
  exact ⟨hcarries.endsWell, hcarries.after⟩

end Message

namespace Sender

/-- A message whose body is there is sent to a sink that takes everything, unless it is too late. -/
theorem carries_send {s s' : Sender} {m m' : Message} {clock clock' : Clock} {inlet inlet' : Inlet}
    {outcome : Outcome SendError Nat} (hc : m.body.consumed = false)
    (hm : m.head.bodySize = m.body.length) (hl : m.body.length ≤ inlet.bytes.length)
    (ho : s.outlet.IsOpen) (h : s.send m clock inlet = (outcome, m', clock', inlet', s')) :
    s'.deadline = s.deadline ∧
      Channel.Carries (fun e => e.toClass = .timeout)
        (inlet.Timely clock m.body.deadline ∧ inlet.Timely clock s.deadline)
        ⟨clock, inlet, s.outlet⟩ (inlet.bytes.take m.body.length) outcome
        ⟨clock', inlet', s'.outlet⟩ := by
  unfold send at h
  rcases hw : m.write s.deadline { clock := clock.begin, inlet, outlet := s.outlet } with
    ⟨written, m₁, c⟩
  rw [hw] at h
  cases h
  have hg := Inlet.gives_of_still clock.still_begin inlet
  have hcarries := Message.carries_write hc hm hl ho hw
  have htimeout : SendError.timeout.toClass = .timeout := rfl
  have htimely : inlet.Timely clock m.body.deadline ∧ inlet.Timely clock s.deadline →
      inlet.Timely clock.begin m.body.deadline ∧ inlet.Timely clock.begin s.deadline :=
    And.imp hg.timely_iff.2 hg.timely_iff.2
  have hwithin := (hcarries.within htimeout).mono htimely
  exact ⟨rfl, hwithin.endsWell, fun value he =>
    ⟨hg.trans (hwithin.after value he).1, (hwithin.after value he).2⟩⟩

end Sender

namespace Receiver

variable {r r' : Receiver} {clock clock' : Clock} {limits : Limits}

/-! ## Heads -/

/-- Bytes that a receiver holds while a head is still to come are whole lines' only. -/
theorem Sound.held_eq_nil_of_decodeLines {q : Head.Progress} {left : Bytes} {head : Head}
    (hs : r.Sound)
    (hd : r.progress.decodeLines (r.held ++ r.inlet.bytes) = (.ok (some head), q, left)) :
    r.held = [] := by
  rcases hs.last with h | ⟨hb, hf⟩
  · exact h
  · rw [hb, List.append_nil, Head.Progress.decodeLines_rest _ (Line.cut?_eq_none_iff.2 hf)] at hd
    split_ifs at hd <;> cases hd

/-- Where a head is still to come there is a whole line, and the receiver may take all of it. -/
theorem Sound.takeLine_of_decodeLines {q : Head.Progress} {left : Bytes} {head : Head}
    (hs : r.Sound)
    (hd : r.progress.decodeLines (r.held ++ r.inlet.bytes) = (.ok (some head), q, left)) :
    (Inlet.takeLine r.lineLimit.toNat r.inlet.bytes).getLast? = some Bytes.lineFeed := by
  have hfits := hs.fits
  have hheld := hs.held_eq_nil_of_decodeLines hd
  rw [hheld, List.length_nil, Nat.add_zero] at hfits
  rw [hheld, List.nil_append] at hd
  rw [hs.toNat_lineLimit]
  obtain ⟨content, rest, -, -, hw⟩ | ⟨-, hn⟩ :=
    Inlet.takeLine_cases (r.progress.maxBytes.toNat - r.progress.received + 1) r.inlet.bytes
  · rw [hw, List.getLast?_concat]
  · -- Without a line feed where the limit allows one, there is no head.
    by_cases hm : r.progress.maxBytes.toNat < r.progress.received + r.inlet.bytes.length
    · obtain ⟨-, error, q', left', he⟩ := Head.Progress.overruns_of_notMem hfits hn hm
      rw [hd] at he
      cases he
    · rw [List.take_of_length_le (by omega)] at hn
      rw [Head.Progress.decodeLines_rest _ (Line.cut?_eq_none_iff.2 hn), if_neg hm] at hd
      cases hd

/-- Lines that make a head are read, unless it is too late. -/
theorem endsWell_readLines {outcome : Outcome ReceiveError (Option Head)} {q : Head.Progress}
    {left : Bytes} {head : Head} (hs : r.Sound)
    (hd : r.progress.decodeLines (r.held ++ r.inlet.bytes) = (.ok (some head), q, left))
    (h : r.readLines clock = (outcome, clock', r')) :
    outcome.EndsWell (fun _ => False) (r.inlet.Timely clock r.deadline) := by
  fun_induction readLines r clock generalizing outcome clock' r' with
  | case1 r clock reason clock₁ inlet hl =>
    exact (Inlet.endsWell_readLine (hs.takeLine_of_decodeLines hd) hl).1.elim
  | case2 r clock clock₁ inlet hl =>
    cases h
    exact Inlet.endsWell_readLine (hs.takeLine_of_decodeLines hd) hl
  | case3 r clock clock₁ inlet hl =>
    cases h
    exact Inlet.endsWell_readLine (hs.takeLine_of_decodeLines hd) hl
  | case4 r clock line clock₁ inlet hl he answer p held hp =>
    have hw := hs.takeLine_of_decodeLines hd
    rw [← Inlet.takeLine_of_readLine hl, List.isEmpty_iff.1 he] at hw
    cases hw
  | case5 r clock line clock₁ inlet hl he p held hp ih =>
    have hn : line ≠ [] := by simpa using he
    have hp := Head.Progress.decode_eq_ok_iff.1 hp
    have hg := Inlet.gives_gather hl
    rw [← hg.bytes, ← List.append_assoc, Head.Progress.decodeLines_append hp] at hd
    exact (ih (hs.decode hl hn hp) hd h).mono hg.timely_iff.2
  | case6 r clock line clock₁ inlet hl he answer p held ha hp =>
    cases h
    cases answer with
    | ok answer => trivial
    | error error =>
      -- What is wrong with the first lines stays wrong with more behind them.
      have hg := Inlet.gives_gather hl
      obtain ⟨p', hp', -⟩ := Head.Progress.decode_eq_error_iff.1 hp
      have hfits := Nat.le_trans (Nat.le_add_right ..) hs.fits
      obtain ⟨final, q', left', hf, -⟩ :=
        Head.Progress.decodeLines_append_of_error hfits hp' inlet.bytes
      rw [List.append_assoc, hg.bytes, hd] at hf
      cases hf

/-- A message whose head stands before the receiver is read, unless it is too late. -/
theorem Fresh.readMessage {outcome : Outcome ReceiveError (Option Message)} {written rest : Bytes}
    {head : Head} (hr : r.Fresh limits) (hm : limits.maxHeadBytes.toNat < Numeral.maxUnsigned)
    (hw : Head.IsWritten limits written head) (hb : r.inlet.bytes = written ++ rest)
    (h : r.readMessage clock = (outcome, clock', r')) :
    outcome.EndsWell (fun e => e.toClass = .timeout) (r.inlet.Timely clock r.deadline) ∧
      ∀ answer, outcome = .ok answer →
        answer = some { head, body := { length := head.bodySize, deadline := r.deadline } } ∧
        r.inlet.Gives clock written r'.inlet clock' ∧ r'.Fresh limits ∧
        r'.deadline = r.deadline := by
  have hd : r.progress.decodeLines (r.held ++ r.inlet.bytes) =
      (.ok (some head), .start limits, rest) := by
    rw [hr.progress, hr.held, List.nil_append, hb]
    exact Head.Progress.decodeLines_start_eq_some_iff.2 ⟨⟨written, rfl, hw⟩, rfl⟩
  unfold Receiver.readMessage at h
  rcases hread : r.readHead clock with ⟨read, clock₁, r₁⟩
  rw [hread] at h
  cases h
  obtain ⟨lines, r₂, hlines, rfl, hleft⟩ := exists_readLines_of_readHead hread
  have hs := hr.sound hm
  have hbegin := Inlet.gives_of_still clock.still_begin r.inlet
  refine ⟨?_, fun answer he => ?_⟩
  · have hends := (endsWell_readLines hs hd hlines).mono hbegin.timely_iff.2
    have htimeout : ReceiveError.timeout.toClass = .timeout := rfl
    exact ((hends.imp fun _ => False.elim).within htimeout).map _
  · obtain ⟨answer', hok, rfl⟩ := Outcome.map_eq_ok_iff.1 he
    obtain rfl := Outcome.within_eq_ok_iff.1 hok
    obtain rfl := hleft answer' rfl
    have hreads := reads_of_readLines hs hlines
    obtain ⟨hdeadline, given, hg⟩ := gives_readLines hlines
    cases hreads with
    | head hd' hh =>
      rw [hd] at hd'
      obtain ⟨rfl, hp, rfl⟩ : head = _ ∧ _ = _ ∧ rest = _ := by simpa using hd'
      obtain rfl : given = written := List.append_cancel_right (hg.bytes.trans hb)
      refine ⟨?_, hbegin.trans hg, ⟨hp.symm, hh⟩, hdeadline⟩
      rw [Option.map_some, hdeadline]
    | nothing _ hnil =>
      rw [hb] at hnil
      exact absurd (List.append_eq_nil_iff.1 (List.append_eq_nil_iff.1 hnil).2).1 hw.ne_nil

end Receiver

end Courier
