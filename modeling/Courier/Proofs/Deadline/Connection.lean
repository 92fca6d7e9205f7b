import Courier.Proofs.Deadline.Stream
import Courier.Proofs.Service

/-!
# One deadline for a whole connection

What a connection does for its user is punctual (`Outcome.Punctual`): it gives an answer by the
deadline of the connection, or at once if that has passed, and blames the time only when the time
is over. This holds for each operation of the two ends, and so for the run of a service, which is
one operation after the other under the one deadline (`punctual_serve`).

A body that is relayed may have a deadline of its own. The earlier of both counts for how long it
takes, and the error tells which one it was (`Message.meets_write`).
-/

namespace Courier

/-- An operation has an answer by the moment, or as soon as it has begun, and does not blame the
time before the moment. -/
structure Outcome.Punctual {ε α : Type} (toClass : ε → FailureClass) (outcome : Outcome ε α)
    (moment : Time) (clock later : Clock) : Prop extends Clock.Keeps moment clock later where
  answers : outcome ≠ .expired ∧ outcome ≠ .stalled
  timeout : ∀ error, outcome = .error error → toClass error = .timeout → moment ≤ later.now

namespace Outcome

variable {ε ε' α β : Type} {toClass : ε → FailureClass} {toClass' : ε' → FailureClass}
  {outcome : Outcome ε α} {moment : Time} {clock later last : Clock}

namespace Punctual

theorem ok (value : α) (h : Clock.Keeps moment clock later) :
    (Outcome.ok value).Punctual toClass moment clock later :=
  ⟨h, ⟨by rintro ⟨⟩, by rintro ⟨⟩⟩, by rintro _ ⟨⟩⟩

theorem error {error : ε} (h : Clock.Keeps moment clock later) (he : toClass error ≠ .timeout) :
    (Outcome.error error : Outcome ε α).Punctual toClass moment clock later := by
  refine ⟨h, ⟨by rintro ⟨⟩, by rintro ⟨⟩⟩, fun other ho hc => ?_⟩
  cases ho
  exact absurd hc he

theorem after (h : Clock.Keeps moment clock later)
    (h' : outcome.Punctual toClass moment later last) :
    outcome.Punctual toClass moment clock last :=
  ⟨h.trans h'.toKeeps, h'.answers, h'.timeout⟩

theorem map (h : outcome.Punctual toClass moment clock later) (f : α → β) :
    (outcome.map f).Punctual toClass moment clock later := by
  refine ⟨h.toKeeps, ?_, fun error he => h.timeout error ?_⟩
  · obtain ⟨hx, hs⟩ := h.answers
    cases outcome <;> simp_all [Outcome.map]
  · cases outcome <;> cases he
    rfl

theorem mapError (h : outcome.Punctual toClass moment clock later) {f : ε → ε'}
    (hf : ∀ error, toClass' (f error) = toClass error) :
    (outcome.mapError f).Punctual toClass' moment clock later := by
  refine ⟨h.toKeeps, ?_, fun error he hc => ?_⟩
  · obtain ⟨hx, hs⟩ := h.answers
    cases outcome <;> simp_all [Outcome.mapError]
  · cases outcome <;> cases he
    exact h.timeout _ rfl (hf _ ▸ hc)

/-- An error is as punctual under another name. -/
theorem reword {error : ε} {error' : ε'}
    (h : (Outcome.error error : Outcome ε α).Punctual toClass moment clock later)
    (he : toClass' error' = toClass error) :
    (Outcome.error error' : Outcome ε' β).Punctual toClass' moment clock later := by
  refine ⟨h.toKeeps, ⟨by rintro ⟨⟩, by rintro ⟨⟩⟩, fun other ho hc => ?_⟩
  cases ho
  exact h.timeout error rfl (he ▸ hc)

end Punctual

/-- An error puts the blame on the time only if it was late. -/
def Blames (toClass : ε → FailureClass) (outcome : Outcome ε α) (late : Prop) : Prop :=
  ∀ error, outcome = .error error → toClass error = .timeout → late

namespace Blames

variable {late : Prop}

theorem ok (value : α) : (Outcome.ok value : Outcome ε α).Blames toClass late := by
  rintro _ ⟨⟩

theorem error {error : ε} (h : toClass error = .timeout → late) :
    (Outcome.error error : Outcome ε α).Blames toClass late := by
  rintro _ ⟨⟩
  exact h

theorem expired : (Outcome.expired : Outcome ε α).Blames toClass late := by
  rintro _ ⟨⟩

end Blames

/-- Who gives the end of its time a name always has an answer. -/
theorem Meets.punctual_within (h : outcome.Meets moment clock later) (e : ε)
    (he : outcome.Blames toClass (moment ≤ later.now)) :
    (outcome.within e).Punctual toClass moment clock later := by
  have hends := h.ends
  refine ⟨h.toKeeps, ?_, fun error ho hc => ?_⟩
  · cases outcome <;> simp_all [Outcome.within]
  · cases outcome with
    | error other =>
      cases ho
      exact he error rfl hc
    | expired => exact h.expired rfl
    | _ => cases ho

end Outcome

/-! ## Bodies -/

namespace Body

variable {body body' : Body} {moment : Time}

theorem punctual_checkComplete {α : Type} {outcome : Outcome BodyError α} {clock later : Clock}
    (h : outcome.Punctual BodyError.toClass moment clock later) (size : α → Nat) :
    (body.checkComplete size outcome).Punctual BodyError.toClass moment clock later := by
  cases outcome with
  | ok value =>
    simp only [checkComplete]
    split_ifs
    · exact .error h.toKeeps (by rintro ⟨⟩)
    · exact h
  | _ => exact h

theorem punctual_read {clock clock' : Clock} {inlet inlet' : Inlet}
    {outcome : Outcome BodyError Bytes} (ho : clock.Outlasts moment)
    (hd : body.deadline = some moment)
    (h : body.read clock inlet = (outcome, body', clock', inlet')) :
    outcome.Punctual BodyError.toClass moment clock clock' := by
  unfold read at h
  split_ifs at h
  · cases h
    exact .error (Clock.Still.keeps ⟨rfl, rfl⟩ moment) (by rintro ⟨⟩)
  · rcases hr : inlet.readUpTo clock.begin body.deadline body.length with ⟨given, later, i⟩
    rw [hr] at h
    cases h
    have hk := clock.still_begin.keeps moment
    rw [hd] at hr
    refine punctual_checkComplete (.after hk ?_) _
    apply ((Inlet.meets_gather (hk.outlasts ho) hr).mapError BodyError.io).punctual_within
    intro error he hc
    cases given <;> cases he
    cases hc

/-- A copy is over at the earlier of two deadlines, and the body blames the time only if its own
has passed. -/
theorem meets_copy {outer : Deadline} {c c' : Channel} {outcome : Outcome BodyError Nat}
    (ho : c.clock.Outlasts moment) (hd : body.deadline.earliest outer = some moment)
    (h : body.copy outer c = (outcome, body', c')) :
    outcome.Meets moment c.clock c'.clock ∧
      outcome.Blames BodyError.toClass (body.deadline.passed c'.clock.now = true) ∧
      (outcome = .expired → body.deadline.passed c'.clock.now = false) := by
  unfold copy at h
  split_ifs at h
  · cases h
    exact ⟨.error _ (Clock.Still.keeps ⟨rfl, rfl⟩ moment), .error (by rintro ⟨⟩), by rintro ⟨⟩⟩
  · cases h
    exact ⟨.ok _ (Clock.Still.keeps ⟨rfl, rfl⟩ moment), .ok _, by rintro ⟨⟩⟩
  · rcases hr : Transfer.run c (body.deadline.earliest outer) body.length with ⟨moved, c₁⟩
    rw [hr] at h
    cases h
    rw [hd] at hr
    obtain ⟨hk, hends, hexpired⟩ := Transfer.meets_run ho hr
    cases moved with
    | ok count =>
      simp only [Outcome.mapError, Outcome.within, ite_self, checkComplete]
      split_ifs
      · exact ⟨.error _ hk, .error (by rintro ⟨⟩), by rintro ⟨⟩⟩
      · exact ⟨.ok _ hk, .ok _, by rintro ⟨⟩⟩
    | error reason =>
      simp only [Outcome.mapError, Outcome.within, ite_self, checkComplete]
      exact ⟨.error _ hk, .error (by rintro ⟨⟩), by rintro ⟨⟩⟩
    | expired =>
      simp only [Outcome.mapError, Outcome.within]
      split_ifs with hp
      · exact ⟨.error _ hk, .error fun _ => hp, by rintro ⟨⟩⟩
      · exact ⟨.of_le hk (hexpired rfl), .expired, fun _ => Bool.eq_false_iff.2 hp⟩
    | stalled => exact absurd rfl hends

theorem punctual_copy {c c' : Channel} {outcome : Outcome BodyError Nat}
    (ho : c.clock.Outlasts moment) (hd : body.deadline = some moment)
    (h : body.copy none c = (outcome, body', c')) :
    outcome.Punctual BodyError.toClass moment c.clock c'.clock := by
  have he : body.deadline.earliest none = some moment := by rw [hd]; rfl
  obtain ⟨hm, herror, hexpired⟩ := meets_copy ho he h
  refine ⟨hm.toKeeps, ⟨fun ho => ?_, hm.ends⟩, fun error ho hc => ?_⟩
  · have hp := hexpired ho
    rw [hd] at hp
    exact absurd (hm.expired ho) (of_decide_eq_false hp)
  · have hp := herror error ho hc
    rw [hd] at hp
    exact Deadline.passed_some_iff.1 hp

end Body

/-! ## The writing end -/

namespace Message

variable {m m' : Message} {moment : Time} {c c' : Channel} {outcome : Outcome SendError Nat}

theorem meets_writeBody {headSize : Nat} (ho : c.clock.Outlasts moment)
    (h : m.writeBody (some moment) headSize c = (outcome, m', c')) :
    outcome.Meets moment c.clock c'.clock ∧
      outcome.Blames SendError.toClass (m.body.deadline.passed c'.clock.now = true) := by
  obtain ⟨early, hle, hd⟩ := Deadline.exists_earliest moment m.body.deadline
  rw [Deadline.earliest_comm] at hd
  unfold writeBody at h
  rcases hcopy : m.body.copy (some moment) c with ⟨copied, body, c₁⟩
  obtain ⟨⟨hk, hends, hx⟩, herror, hexpired⟩ := Body.meets_copy (ho.mono hle) hd hcopy
  have hk := hk.mono hle
  rw [hcopy] at h
  cases copied with
  | ok count =>
    rcases hf : c₁.flush (some moment) with ⟨flushed, c₂⟩
    simp only [hf] at h
    cases h
    refine ⟨.after hk (((Channel.meets_flush (hk.outlasts ho) hf).mapError _).map _), ?_⟩
    intro error he hc
    cases flushed <;> cases he
    cases hc
  | error error =>
    cases h
    exact ⟨.error _ hk, .error (herror error rfl)⟩
  | expired =>
    cases h
    refine ⟨.of_le hk ?_, .expired⟩
    -- The body's own deadline has not passed, so the one around it has.
    have hp := Deadline.passed_earliest m.body.deadline (some moment) c'.clock.now
    rw [hd, hexpired rfl, Bool.false_or] at hp
    exact Deadline.passed_some_iff.1 (hp.symm.trans (Deadline.passed_some_iff.2 (hx rfl)))
  | stalled => exact absurd rfl hends

theorem meets_write (ho : c.clock.Outlasts moment)
    (h : m.write (some moment) c = (outcome, m', c')) :
    outcome.Meets moment c.clock c'.clock ∧
      outcome.Blames SendError.toClass (m.body.deadline.passed c'.clock.now = true) := by
  have hnow : Clock.Keeps moment c.clock c.clock := Clock.Still.keeps ⟨rfl, rfl⟩ moment
  unfold write at h
  split_ifs at h
  · cases h
    exact ⟨.error _ hnow, .error (by rintro ⟨⟩)⟩
  · cases h
    exact ⟨.error _ hnow, .error (by rintro ⟨⟩)⟩
  · rcases hp : c.push (some moment) m.head.encode with ⟨pushed, c₁⟩
    obtain ⟨hk, hends, hx⟩ := Channel.meets_push ho hp
    rw [hp] at h
    cases pushed with
    | ok done =>
      obtain ⟨hm, herror⟩ := meets_writeBody (hk.outlasts ho) h
      exact ⟨.after hk hm, herror⟩
    | error reason =>
      cases h
      exact ⟨.error _ hk, .error (by rintro ⟨⟩)⟩
    | expired =>
      cases h
      exact ⟨.of_le hk (hx rfl), .expired⟩
    | stalled => exact absurd rfl hends

end Message

namespace Sender

variable {s s' : Sender} {clock clock' : Clock} {moment : Time}

theorem deadline_send {m m' : Message} {inlet inlet' : Inlet} {outcome : Outcome SendError Nat}
    (h : s.send m clock inlet = (outcome, m', clock', inlet', s')) : s'.deadline = s.deadline := by
  unfold send at h
  rcases hw : m.write s.deadline { clock := clock.begin, inlet, outlet := s.outlet } with
    ⟨written, m₁, c⟩
  rw [hw] at h
  cases h
  rfl

/-- Sending is over at the sender's deadline, and blames the time when that has passed or the
body's own deadline has. -/
theorem keeps_send {m m' : Message} {inlet inlet' : Inlet} {outcome : Outcome SendError Nat}
    (ho : clock.Outlasts moment) (hd : s.deadline = some moment)
    (h : s.send m clock inlet = (outcome, m', clock', inlet', s')) :
    Clock.Keeps moment clock clock' ∧ outcome ≠ .expired ∧ outcome ≠ .stalled ∧
      outcome.Blames SendError.toClass
        ((m.body.deadline.earliest (some moment)).passed clock'.now = true) := by
  unfold send at h
  rcases hw : m.write s.deadline { clock := clock.begin, inlet, outlet := s.outlet } with
    ⟨written, m₁, c⟩
  rw [hw] at h
  cases h
  rw [hd] at hw
  have hk := clock.still_begin.keeps moment
  obtain ⟨hm, herror⟩ := Message.meets_write (hk.outlasts ho) hw
  have hends := hm.ends
  refine ⟨hk.trans hm.toKeeps, ?_, ?_, fun error he hc => ?_⟩
  · cases written <;> simp_all [Outcome.within]
  · cases written <;> simp_all [Outcome.within]
  · rw [Deadline.passed_earliest, Bool.or_eq_true]
    cases written with
    | error other =>
      cases he
      exact .inl (herror error rfl hc)
    | expired => exact .inr (Deadline.passed_some_iff.2 (hm.expired rfl))
    | _ => cases he

theorem punctual_send {m m' : Message} {inlet inlet' : Inlet} {outcome : Outcome SendError Nat}
    (ho : clock.Outlasts moment) (hd : s.deadline = some moment)
    (hb : ∀ early ∈ m.body.deadline, moment ≤ early)
    (h : s.send m clock inlet = (outcome, m', clock', inlet', s')) :
    outcome.Punctual SendError.toClass moment clock clock' := by
  obtain ⟨hk, hx, hs, ht⟩ := keeps_send ho hd h
  have he : m.body.deadline.earliest (some moment) = some moment := by
    cases hbody : m.body.deadline with
    | none => rfl
    | some early => exact congrArg some (Nat.min_eq_right (hb early hbody))
  refine ⟨hk, ⟨hx, hs⟩, fun error ho hc => ?_⟩
  have hp := ht error ho hc
  rw [he] at hp
  exact Deadline.passed_some_iff.1 hp

theorem punctual_close {outcome : Outcome SendError Unit} (ho : clock.Outlasts moment)
    (hd : s.deadline = some moment) (h : s.close clock = (outcome, clock', s')) :
    outcome.Punctual SendError.toClass moment clock clock' := by
  unfold close at h
  rcases hs : Outlet.settle clock.begin s.deadline s.outlet.close with ⟨settled, later, o⟩
  rw [hs] at h
  cases h
  rw [hd] at hs
  have hk := clock.still_begin.keeps moment
  refine .after hk ?_
  apply ((Outlet.meets_settle (hk.outlasts ho) hs).mapError SendError.io).punctual_within
  intro error he hc
  cases settled <;> cases he
  cases hc

end Sender

/-! ## The reading end -/

namespace Head.Progress

theorem toClass_of_decode {p q : Progress} {bytes left : Bytes} {error : ReceiveError}
    (h : p.decode bytes = (.error error, q, left)) : error.toClass = .framing := by
  obtain ⟨q', hd, -⟩ := decode_eq_error_iff.1 h
  exact (isFault_of_decodeLines hd).toClass

theorem toClass_of_decodeLast {p q : Progress} {bytes left : Bytes} {error : ReceiveError}
    (h : p.decodeLast bytes = (.error error, q, left)) : error.toClass = .framing := by
  unfold decodeLast at h
  split at h
  · dsimp only at h
    split_ifs at h
    · cases h
    · cases h
      rfl
  · exact toClass_of_decode h

end Head.Progress

namespace Receiver

variable {r r' : Receiver} {clock clock' : Clock} {moment : Time}

theorem meets_readLines {outcome : Outcome ReceiveError (Option Head)} (ho : clock.Outlasts moment)
    (hd : r.deadline = some moment) (h : r.readLines clock = (outcome, clock', r')) :
    outcome.Meets moment clock clock' ∧
      outcome.Blames ReceiveError.toClass False := by
  fun_induction readLines r clock generalizing outcome clock' r' with
  | case1 r clock reason clock₁ inlet hl =>
    rw [hd] at hl
    cases h
    exact ⟨.error _ (Inlet.meets_gather ho hl).toKeeps, .error (by rintro ⟨⟩)⟩
  | case2 r clock clock₁ inlet hl =>
    rw [hd] at hl
    obtain ⟨hk, -, hx⟩ := Inlet.meets_gather ho hl
    cases h
    exact ⟨.of_le hk (hx rfl), .expired⟩
  | case3 r clock clock₁ inlet hl =>
    rw [hd] at hl
    exact absurd rfl (Inlet.meets_gather ho hl).ends
  | case4 r clock line clock₁ inlet hl he answer q held hdecode =>
    rw [hd] at hl
    have hk := (Inlet.meets_gather ho hl).toKeeps
    cases h
    cases answer with
    | ok answer => exact ⟨.ok _ hk, .ok _⟩
    | error error =>
      refine ⟨.error _ hk, .error ?_⟩
      rw [Head.Progress.toClass_of_decodeLast hdecode]
      rintro ⟨⟩
  | case5 r clock line clock₁ inlet hl he q held hdecode ih =>
    rw [hd] at hl
    have hk := (Inlet.meets_gather ho hl).toKeeps
    obtain ⟨hm, hc⟩ := ih (hk.outlasts ho) hd h
    exact ⟨.after hk hm, hc⟩
  | case6 r clock line clock₁ inlet hl he answer q held ha hdecode =>
    rw [hd] at hl
    have hk := (Inlet.meets_gather ho hl).toKeeps
    cases h
    cases answer with
    | ok answer => exact ⟨.ok _ hk, .ok _⟩
    | error error =>
      refine ⟨.error _ hk, .error ?_⟩
      rw [Head.Progress.toClass_of_decode hdecode]
      rintro ⟨⟩

theorem punctual_readHead {outcome : Outcome ReceiveError (Option Head)}
    (ho : clock.Outlasts moment) (hd : r.deadline = some moment)
    (h : r.readHead clock = (outcome, clock', r')) :
    outcome.Punctual ReceiveError.toClass moment clock clock' := by
  obtain ⟨read, left, hr, rfl, -⟩ := exists_readLines_of_readHead h
  have hk := clock.still_begin.keeps moment
  obtain ⟨hm, hc⟩ := meets_readLines (hk.outlasts ho) hd hr
  exact .after hk (hm.punctual_within _ fun error he ht => (hc error he ht).elim)

theorem punctual_readMessage {outcome : Outcome ReceiveError (Option Message)}
    (ho : clock.Outlasts moment) (hd : r.deadline = some moment)
    (h : r.readMessage clock = (outcome, clock', r')) :
    outcome.Punctual ReceiveError.toClass moment clock clock' := by
  unfold readMessage at h
  rcases hr : r.readHead clock with ⟨read, later, r₁⟩
  rw [hr] at h
  cases h
  exact (punctual_readHead ho hd hr).map _

/-- A message has the deadline of the receiver it comes from. -/
theorem deadline_of_readMessage {m : Message}
    (h : r.readMessage clock = (.ok (some m), clock', r')) :
    r'.deadline = r.deadline ∧ m.body.deadline = r.deadline := by
  obtain ⟨head, hr, rfl⟩ := exists_readHead_of_readMessage h
  obtain ⟨hd, -⟩ := gives_readLines (readLines_of_readHead hr)
  exact ⟨hd, hd⟩

end Receiver

/-! ## Serving -/

namespace Service

variable {σ : Type} {moment : Time}

theorem punctual_examine {maxBody : Nat} {m : Message} {r r' : Receiver} {clock clock' : Clock}
    {outcome : Outcome ServeError Demand} (ho : clock.Outlasts moment)
    (hd : m.body.deadline = some moment) (h : examine maxBody m r clock = (outcome, clock', r')) :
    outcome.Punctual ServeError.toClass moment clock clock' := by
  have hnow : Clock.Keeps moment clock clock := Clock.Still.keeps ⟨rfl, rfl⟩ moment
  unfold examine at h
  split at h
  · cases h
    exact .ok _ hnow
  · split_ifs at h
    · cases h
      exact .ok _ hnow
    · rcases hb : m.body.read clock r.inlet with ⟨read, body, later, inlet⟩
      rw [hb] at h
      cases h
      have hp := Body.punctual_read ho hd hb
      exact (hp.mapError (f := fun error => ServeError.receive (.body error)) fun _ => rfl).map _

theorem punctual_demand {maxBody : Nat} {r r' : Receiver} {clock clock' : Clock}
    {outcome : Outcome ServeError Demand} (ho : clock.Outlasts moment)
    (hd : r.deadline = some moment) (h : demand maxBody r clock = (outcome, clock', r')) :
    outcome.Punctual ServeError.toClass moment clock clock' := by
  unfold demand at h
  rcases hr : r.readMessage clock with ⟨read, later, r₁⟩
  have hp := Receiver.punctual_readMessage ho hd hr
  rw [hr] at h
  rcases read with (_ | m) | error | _ | _
  · cases h
    exact .ok _ hp.toKeeps
  · have hm := (Receiver.deadline_of_readMessage hr).2.trans hd
    exact .after hp.toKeeps (punctual_examine (hp.outlasts ho) hm h)
  · cases h
    exact hp.reword rfl
  · exact absurd rfl hp.answers.1
  · exact absurd rfl hp.answers.2

theorem punctual_answer {response : Response} {s s' : Session σ}
    {outcome : Outcome ServeError Unit} (ho : s.clock.Outlasts moment)
    (hd : s.connection.sender.deadline = some moment)
    (h : answer response s = (outcome, s')) :
    outcome.Punctual ServeError.toClass moment s.clock s'.clock := by
  unfold answer at h
  split at h
  · cases h
    exact .error (Clock.Still.keeps ⟨rfl, rfl⟩ moment) (by rintro ⟨⟩)
  · rename_i outgoing hb
    have hbody : ∀ early ∈ outgoing.message.body.deadline, moment ≤ early := by
      obtain ⟨m, rfl, -⟩ := Response.exists_built hb
      rw [m.body_eq]
      rintro _ ⟨⟩
    rcases hsend : s.connection.sender.send outgoing.message s.clock outgoing.inlet with
      ⟨sent, m, clock, inlet, sender⟩
    have hp := Sender.punctual_send ho hd hbody hsend
    rw [hsend] at h
    cases sent with
    | ok count =>
      rcases hclose : sender.close clock with ⟨closed, later, sender'⟩
      simp only [hclose] at h
      cases h
      have hd' := (Sender.deadline_send hsend).trans hd
      refine .after hp.toKeeps ?_
      exact (Sender.punctual_close (hp.outlasts ho) hd' hclose).mapError fun _ => rfl
    | error error =>
      cases h
      exact hp.reword rfl
    | expired => exact absurd rfl hp.answers.1
    | stalled => exact absurd rfl hp.answers.2

theorem punctual_reply {router : Router σ} (hr : router.IsImmediate) {s s' : Session σ}
    {d : Demand} {outcome : Outcome ServeError Unit} (ho : s.clock.Outlasts moment)
    (hd : s.connection.sender.deadline = some moment)
    (h : reply router s d = (outcome, s')) :
    outcome.Punctual ServeError.toClass moment s.clock s'.clock := by
  cases d with
  | nothing =>
    cases h
    exact .ok _ (Clock.Still.keeps ⟨rfl, rfl⟩ moment)
  | refused response => exact punctual_answer ho hd h
  | request request =>
    obtain ⟨response, state, hdispatch⟩ := hr.exists_dispatch request s.state
    simp only [reply, hdispatch] at h
    exact punctual_answer (s := { s with state }) ho hd h

theorem punctual_serve {router : Router σ} (hr : router.IsImmediate) {maxBody : Nat}
    {s s' : Session σ} {outcome : Outcome ServeError Unit} (ho : s.clock.Outlasts moment)
    (hreceiver : s.connection.receiver.deadline = some moment)
    (hsender : s.connection.sender.deadline = some moment)
    (h : serve router maxBody s = (outcome, s')) :
    outcome.Punctual ServeError.toClass moment s.clock s'.clock := by
  rcases hd : demand maxBody s.connection.receiver s.clock with ⟨found, clock, r⟩
  have hp := punctual_demand ho hreceiver hd
  by_cases hn : ∀ d, found ≠ .ok d
  · rw [serve_of_no_demand router hd hn] at h
    cases h
    exact hp.map _
  · obtain ⟨d, rfl⟩ := not_forall_not.1 hn
    rw [serve_of_demand router hd] at h
    exact .after hp.toKeeps (punctual_reply (s := s.heard clock r) hr (hp.outlasts ho) hsender h)

end Service

namespace Connection

/-- One deadline bounds everything that is done on a connection. Whatever the streams do, reading a
head or a message, reading or copying the body of one, writing a message, closing, and serving with
handlers each have an answer by the deadline, or at once if it has passed; and none of them blames
the time before the deadline. A message with a body that has to be there earlier may blame the time
earlier, and is no longer on its way either. -/
theorem punctual_of_deadline {deadline : Time} {clock : Clock} (ho : clock.Outlasts deadline) :
    (∀ r : Receiver, r.deadline = some deadline →
      (r.readHead clock).1.Punctual ReceiveError.toClass deadline clock (r.readHead clock).2.1 ∧
      (r.readMessage clock).1.Punctual ReceiveError.toClass deadline clock
        (r.readMessage clock).2.1 ∧
      ∀ m, (r.readMessage clock).1 = .ok (some m) → m.body.deadline = some deadline) ∧
    (∀ body : Body, body.deadline = some deadline →
      (∀ inlet, (body.read clock inlet).1.Punctual BodyError.toClass deadline clock
        (body.read clock inlet).2.2.1) ∧
      ∀ inlet outlet,
        (body.copy none { clock, inlet, outlet }).1.Punctual BodyError.toClass deadline clock
          (body.copy none { clock, inlet, outlet }).2.2.clock) ∧
    (∀ s : Sender, s.deadline = some deadline →
      (∀ m inlet, Clock.Keeps deadline clock (s.send m clock inlet).2.2.1 ∧
        (s.send m clock inlet).1 ≠ .expired ∧ (s.send m clock inlet).1 ≠ .stalled ∧
        ((∀ early ∈ m.body.deadline, deadline ≤ early) →
          (s.send m clock inlet).1.Punctual SendError.toClass deadline clock
            (s.send m clock inlet).2.2.1)) ∧
      (s.close clock).1.Punctual SendError.toClass deadline clock (s.close clock).2.1) ∧
    ∀ {σ : Type} {router : Router σ}, router.IsImmediate → ∀ maxBody (s : Service.Session σ),
      s.clock = clock → s.connection.receiver.deadline = some deadline →
      s.connection.sender.deadline = some deadline →
      (Service.serve router maxBody s).1.Punctual ServeError.toClass deadline clock
        (Service.serve router maxBody s).2.clock := by
  refine ⟨fun r hd => ⟨?_, ?_, fun m hm => ?_⟩, fun body hd => ⟨fun inlet => ?_, ?_⟩,
    fun s hd => ⟨fun m inlet => ?_, ?_⟩, ?_⟩
  · exact Receiver.punctual_readHead ho hd rfl
  · exact Receiver.punctual_readMessage ho hd rfl
  · exact (Receiver.deadline_of_readMessage (Prod.ext hm rfl)).2.trans hd
  · exact Body.punctual_read ho hd rfl
  · exact fun inlet outlet => Body.punctual_copy (c := { clock, inlet, outlet }) ho hd rfl
  · rcases hsend : s.send m clock inlet with ⟨outcome, m', clock', inlet', s'⟩
    obtain ⟨hk, hx, hs, -⟩ := Sender.keeps_send ho hd hsend
    exact ⟨hk, hx, hs, fun hb => Sender.punctual_send ho hd hb hsend⟩
  · exact Sender.punctual_close ho hd rfl
  · rintro σ router hr maxBody s rfl hreceiver hsender
    exact Service.punctual_serve hr ho hreceiver hsender rfl

/-- The connection of a client that sends a byte now and then, and never all of a head. -/
def ofTrickle : Connection :=
  (start
    { pieces := [.chunk [71], .pause 4, .chunk [69], .pause 4, .chunk [84], .pause 4, .chunk [32]]
      ending := .silence } {} {} 0).setDeadline (some 10)

theorem punctual_of_trickle :
    ∃ s', Service.serve ({} : Router Unit) 0 { clock := {}, connection := ofTrickle, state := () } =
        (.error (.receive .timeout), s') ∧ s'.clock.now = 10 := by
  have ho : ({} : Clock).Outlasts 10 := by rintro _ ⟨⟩
  have hr : ({} : Router Unit).IsImmediate := ⟨by rintro _ ⟨⟩, by rintro _ ⟨⟩⟩
  obtain ⟨-, -, -, hserve⟩ := punctual_of_deadline ho
  have hp := hserve hr 0 { clock := {}, connection := ofTrickle, state := () } rfl rfl rfl
  rcases hs : Service.serve ({} : Router Unit) 0
    { clock := {}, connection := ofTrickle, state := () } with ⟨outcome, s'⟩
  obtain rfl : outcome = .error (.receive .timeout) := by
    rw [← (Prod.mk.inj hs).1]
    decide +kernel
  rw [hs] at hp
  exact ⟨s', rfl, Nat.le_antisymm hp.now (hp.timeout _ rfl rfl)⟩

end Connection

end Courier
