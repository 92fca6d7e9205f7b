import Courier.Proofs.Stream.Source
import Courier.Stream.Inlet.Waiting

/-!
# What an inlet gives and when

Whatever the buffer holds and wherever the pieces of the source are cut, a read that waits gives
what is wanted of all that is still to come (`first_of_gather`): the first line of it, or so many
bytes. A stream that finishes gives them in time if all of it is there in time (`exists_gather`).

`Inlet.Gives` is what every step of a read has in common: some bytes are taken from the front, and
how and when the stream ends stays as it is. `Inlet.Draws` is what is left of it when a read fails
or ends too late: what was taken is lost, but it is no more than was asked for (`draws_gather`).
-/

namespace Courier

/-! ## What is wanted -/

namespace Inlet

theorem length_takeLine_le_limit (limit : Nat) (bytes : Bytes) :
    (takeLine limit bytes).length ≤ limit := by
  fun_induction takeLine limit bytes <;> simp_all

/-- A line that has its line feed stays the first one whatever follows. -/
theorem takeLine_append_of_whole {limit : Nat} {held : Bytes}
    (hw : (takeLine limit held).getLast? = some Bytes.lineFeed) (more : Bytes) :
    takeLine limit (held ++ more) = takeLine limit held := by
  fun_induction takeLine limit held with
  | case1 => cases hw
  | case2 => cases hw
  | case3 limit rest => simp only [List.cons_append, takeLine, if_true]
  | case4 limit b rest hb ih =>
    simp only [List.cons_append, takeLine, if_neg hb]
    rw [ih]
    cases ht : takeLine limit rest with
    | nil =>
      rw [ht] at hw
      exact absurd (Option.some.inj hw) hb
    | cons first others =>
      rw [ht, List.getLast?_cons_cons] at hw
      exact hw

/-- A line that has no line feed goes on with what follows, as far as the limit allows. -/
theorem takeLine_append_of_open {limit : Nat} {held : Bytes}
    (hw : (takeLine limit held).getLast? ≠ some Bytes.lineFeed) (more : Bytes) :
    takeLine limit (held ++ more) =
      takeLine limit held ++
        takeLine (limit - (takeLine limit held).length)
          (held.drop (takeLine limit held).length ++ more) := by
  fun_induction takeLine limit held with
  | case1 => simp [takeLine]
  | case2 => simp
  | case3 => exact absurd rfl hw
  | case4 limit b rest hb ih =>
    simp only [List.cons_append, takeLine, if_neg hb, List.length_cons, List.drop_succ_cons]
    rw [ih, Nat.succ_sub_succ]
    intro hl
    apply hw
    cases ht : takeLine limit rest with
    | nil =>
      rw [ht] at hl
      cases hl
    | cons first others => rwa [List.getLast?_cons_cons, ← ht]

/-- The first line is whole, or it is what the limit allows of bytes without a line feed. -/
theorem takeLine_cases (limit : Nat) (bytes : Bytes) :
    (∃ content rest, bytes = content ++ Bytes.lineFeed :: rest ∧ Bytes.lineFeed ∉ content ∧
        takeLine limit bytes = content ++ [Bytes.lineFeed]) ∨
      takeLine limit bytes = bytes.take limit ∧ Bytes.lineFeed ∉ bytes.take limit := by
  fun_induction takeLine limit bytes with
  | case1 => exact .inr ⟨rfl, List.not_mem_nil⟩
  | case2 => exact .inr ⟨by simp, by simp⟩
  | case3 limit rest => exact .inl ⟨[], rest, rfl, List.not_mem_nil, rfl⟩
  | case4 limit b rest hb ih =>
    have hne : Bytes.lineFeed ≠ b := fun h => hb h.symm
    obtain ⟨content, left, he, hn, ht⟩ | ⟨ht, hn⟩ := ih
    · exact .inl ⟨b :: content, left, congrArg _ he, List.not_mem_cons_of_ne_of_not_mem hne hn,
        congrArg _ ht⟩
    · rw [List.take_succ_cons]
      exact .inr ⟨congrArg _ ht, List.not_mem_cons_of_ne_of_not_mem hne hn⟩

end Inlet

namespace Wanted

variable {wanted : Wanted} {limit : Nat} {held : Bytes}

theorem room_pos (wanted : Wanted) (hl : limit ≠ 0) (capacity : Nat) :
    0 < wanted.room capacity limit := by
  cases wanted <;> simp only [room] <;> omega

theorem length_first_le (wanted : Wanted) (limit : Nat) (held : Bytes) :
    (wanted.first limit held).length ≤ limit := by
  cases wanted
  · exact List.length_take_le ..
  · exact Inlet.length_takeLine_le_limit ..

/-- Nothing behind it makes a difference to what is whole. -/
theorem first_append_of_whole (hw : wanted.isWhole (wanted.first limit held) = true)
    (more : Bytes) : wanted.first limit (held ++ more) = wanted.first limit held := by
  cases wanted
  · cases hw
  · exact Inlet.takeLine_append_of_whole (of_decide_eq_true hw) more

/-- What is not whole goes on with what follows, as far as the limit allows. -/
theorem first_append_of_open (hw : wanted.isWhole (wanted.first limit held) = false)
    (more : Bytes) :
    wanted.first limit (held ++ more) =
      wanted.first limit held ++
        wanted.first (limit - (wanted.first limit held).length)
          (held.drop (wanted.first limit held).length ++ more) := by
  cases wanted
  · rw [first, first, first, List.take_append, List.length_take]
    rcases Nat.le_total limit held.length with hl | hl
    · rw [Nat.min_eq_left hl, Nat.sub_self, Nat.sub_eq_zero_of_le hl, List.take_zero,
        List.take_zero]
    · rw [Nat.min_eq_right hl, List.drop_length, List.nil_append]
  · exact Inlet.takeLine_append_of_open (of_decide_eq_false hw) more

end Wanted

namespace Inlet

/-- The moment at which all bytes are there. -/
def settled (i : Inlet) (now : Time) : Time :=
  i.source.settled now

/-- One inlet and its clock become another by giving bytes. -/
structure Gives (i : Inlet) (clock : Clock) (given : Bytes) (i' : Inlet) (clock' : Clock) :
    Prop where
  bytes : given ++ i'.bytes = i.bytes
  ending : i'.source.ending = i.source.ending
  settled : i'.settled clock'.now = i.settled clock.now
  horizon : clock'.horizon = clock.horizon

theorem Gives.refl (i : Inlet) (clock : Clock) : Gives i clock [] i clock :=
  ⟨rfl, rfl, rfl, rfl⟩

theorem Gives.trans {i i' i'' : Inlet} {clock clock' clock'' : Clock} {given more : Bytes}
    (h : Gives i clock given i' clock') (h' : Gives i' clock' more i'' clock'') :
    Gives i clock (given ++ more) i'' clock'' :=
  ⟨by rw [List.append_assoc, h'.bytes, h.bytes], h'.ending.trans h.ending,
    h'.settled.trans h.settled, h'.horizon.trans h.horizon⟩

theorem Gives.begin {i i' : Inlet} {clock clock' : Clock} {given : Bytes}
    (h : Gives i clock.begin given i' clock') : Gives i clock given i' clock' :=
  ⟨h.bytes, h.ending, by rw [h.settled, Clock.now_begin], h.horizon.trans clock.horizon_begin⟩

theorem Gives.allows {i i' : Inlet} {clock clock' : Clock} {given : Bytes} {deadline : Deadline}
    (h : Gives i clock given i' clock') (ha : clock.Allows deadline (i.settled clock.now)) :
    clock'.Allows deadline (i'.settled clock'.now) := by
  unfold Clock.Allows
  rwa [h.settled, h.horizon]

/-! ## Reads that do not wait -/

section

variable {i i' : Inlet} {clock clock' : Clock} {limit : Nat} {wanted : Wanted}
  {result : ReadResult}

theorem gives_load {room : Nat} (h : i.load clock room = (result, clock', i')) :
    Gives i clock [] i' clock' := by
  have hb := bytes_load h
  unfold load at h
  split at h
  · rcases hr : i.source.read clock room with ⟨shown, clock₁, source⟩
    obtain ⟨he, -, hh, hs⟩ := Source.read_keeps hr
    rw [hr] at h
    cases h
    exact ⟨hb, he, hs, hh⟩
  · cases h
    exact .refl i clock

theorem gives_read (h : i.read wanted clock limit = (result, clock', i')) :
    Gives i clock result.bytes i' clock' := by
  obtain ⟨shown, loaded, hl, rfl, rfl⟩ := exists_load_of_read h
  exact (gives_load hl).trans
    ⟨loaded.take_append_bytes_consume (isPrefix_of_load hl), rfl, rfl, rfl⟩

theorem length_read_le (h : i.read wanted clock limit = (result, clock', i')) :
    result.bytes.length ≤ limit := by
  obtain ⟨shown, loaded, -, rfl, -⟩ := exists_load_of_read h
  rw [bytes_map_first]
  exact wanted.length_first_le ..

/-- An inlet that is asked for bytes it has does not come to its end. -/
theorem bytes_ne_nil (hl : limit ≠ 0) (hb : limit ≤ i.bytes.length) : i.bytes ≠ [] := by
  rintro hn
  rw [hn, List.length_nil] at hb
  omega

/-- A read gives bytes, or there is a pause at the head of the source, or it is at its end. -/
theorem read_cases (hl : limit ≠ 0) (h : i.read wanted clock limit = (result, clock', i')) :
    (∃ seen ≠ [], result = .data seen) ∨
      (∃ wake rest, result = .pending (some wake) ∧
        i'.source.pieces = .notBefore wake :: rest) ∨
      result = i.source.ending.answer ∧ i.bytes = [] := by
  by_cases hb : result.bytes = []
  · obtain ⟨hbuffer, source, rfl, hr⟩ := source_of_read hl h hb
    obtain ⟨given, hg, he⟩ | hp | ⟨he, hn⟩ := Source.read_cases (wanted.room_pos hl _) hr
    · rw [he] at hb
      exact absurd hb hg
    · exact .inr (.inl hp)
    · exact .inr (.inr ⟨he, by rw [bytes, hbuffer, hn, List.append_nil]⟩)
  · cases result with
    | data seen => exact .inl ⟨seen, hb, rfl⟩
    | failed reason => exact absurd rfl hb
    | pending wake => exact absurd rfl hb

/-- A read that gives nothing has found the end of the stream. -/
theorem end_of_read (hl : limit ≠ 0) (h : i.read wanted clock limit = (.data [], clock', i')) :
    i.bytes = [] ∧ i.source.ending = .finish := by
  obtain ⟨seen, hs, hd⟩ | ⟨wake, rest, hd, -⟩ | ⟨ha, hb⟩ := read_cases hl h
  · cases hd
    exact absurd rfl hs
  · cases hd
  · refine ⟨hb, ?_⟩
    cases hending : i.source.ending <;> rw [hending] at ha <;> cases ha

/-- What a read gives is wanted of what is still to come, and if it is not whole, so is what is
wanted of the rest. -/
theorem first_of_read {seen : Bytes} (hl : limit ≠ 0)
    (h : i.read wanted clock limit = (.data seen, clock', i')) :
    ((seen.isEmpty || wanted.isWhole seen) = true → wanted.first limit i.bytes = seen) ∧
      (wanted.isWhole seen = false →
        wanted.first limit i.bytes =
          seen ++ wanted.first (limit - seen.length) i'.bytes) := by
  obtain ⟨shown, loaded, hload, hs, rfl⟩ := exists_load_of_read h
  cases shown <;> cases hs
  rename_i held
  have hbuffer : loaded.buffer = held := buffer_load hload
  have hb : i.bytes = held ++ loaded.source.bytes := by rw [← bytes_load hload, bytes, hbuffer]
  refine ⟨fun hw => ?_, fun hw => ?_⟩
  · rcases Bool.or_eq_true_iff.1 hw with he | hw
    · rw [List.isEmpty_iff.1 he] at h ⊢
      rw [(end_of_read hl h).1, wanted.first_nil]
    · rw [hb, Wanted.first_append_of_whole hw]
  · rw [hb, Wanted.first_append_of_open hw, ← hbuffer]
    rfl

end

/-- After a pause at the head of the source it goes on where it was. -/
theorem gives_skip {i : Inlet} {clock later : Clock} {deadline : Deadline} {wake : Time}
    {rest : List Piece} (hp : i.source.pieces = .notBefore wake :: rest)
    (hw : clock.wait (some wake) deadline = (.ready, later)) :
    Gives i clock [] (i.skip later.now) later := by
  obtain ⟨hn, hh⟩ := Clock.now_of_ready hw
  refine ⟨i.bytes_skip later.now, rfl, ?_, hh⟩
  simp only [settled, Source.settled, skip, Source.skip, hp, hn]
  exact Piece.settled_skip ..

theorem gives_read_skip {i i' : Inlet} {clock clock' later : Clock} {deadline : Deadline}
    {wake : Option Time} {limit : Nat} {wanted : Wanted} (hl : limit ≠ 0)
    (hr : i.read wanted clock limit = (.pending wake, clock', i'))
    (hw : clock'.wait wake deadline = (.ready, later)) :
    Gives i clock [] (i'.skip later.now) later := by
  obtain ⟨moment, rfl, -⟩ := Clock.wake_le_of_ready hw
  obtain ⟨seen, -, he⟩ | ⟨wake, rest, he, hp⟩ | ⟨he, -⟩ := read_cases hl hr
  · cases he
  · cases he
    exact (gives_read hr).trans (gives_skip hp hw)
  · exact absurd he.symm (Ending.answer_ne_pending _ _)

/-- Nobody who reads in time has to stop at the pause before which a read stopped. -/
theorem exists_wait {i : Inlet} {clock : Clock} {deadline : Deadline} {wake : Time}
    {rest : List Piece} (hp : i.source.pieces = .notBefore wake :: rest)
    (ha : clock.Allows deadline (i.settled clock.now)) :
    ∃ later, clock.wait (some wake) deadline = (.ready, later) := by
  refine Clock.exists_ready ha ?_ (Source.le_settled ..)
  simp only [settled, Source.settled, hp]
  exact Piece.wake_le_settled ..

/-- All of a stream that finishes is there in time. -/
def InTime (i : Inlet) (clock : Clock) (deadline : Deadline) : Prop :=
  i.source.ending = .finish ∧ clock.Allows deadline (i.settled clock.now)

theorem Gives.inTime {i i' : Inlet} {clock clock' : Clock} {given : Bytes} {deadline : Deadline}
    (h : Gives i clock given i' clock') (hi : i.InTime clock deadline) :
    i'.InTime clock' deadline :=
  ⟨h.ending.trans hi.1, h.allows hi.2⟩

theorem InTime.begin {i : Inlet} {clock : Clock} {deadline : Deadline}
    (hi : i.InTime clock deadline) : i.InTime clock.begin deadline :=
  (Gives.refl i clock.begin).begin.inTime hi

theorem exists_read {i i' : Inlet} {clock clock' : Clock} {deadline : Deadline} {limit : Nat}
    {wanted : Wanted} {result : ReadResult} (hl : limit ≠ 0) (hi : i.InTime clock deadline)
    (h : i.read wanted clock limit = (result, clock', i')) :
    (∃ seen, result = .data seen) ∨
      ∃ wake later, result = .pending wake ∧ clock'.wait wake deadline = (.ready, later) := by
  obtain ⟨seen, -, he⟩ | ⟨wake, rest, he, hp⟩ | ⟨he, -⟩ := read_cases hl h
  · exact .inl ⟨seen, he⟩
  · obtain ⟨later, hw⟩ := exists_wait hp ((gives_read h).allows hi.2)
    exact .inr ⟨_, later, he, hw⟩
  · rw [hi.1] at he
    exact .inl ⟨[], he⟩

/-! ## Reads that wait -/

section

variable {i i' : Inlet} {clock clock' : Clock} {deadline : Deadline} {limit : Nat}
  {wanted : Wanted} {bytes : Bytes}

theorem gives_gather (h : gather wanted i clock deadline limit = (.ok bytes, clock', i')) :
    Gives i clock bytes i' clock' := by
  fun_induction gather wanted i clock deadline limit generalizing bytes clock' i' with
  | case1 i clock =>
    cases h
    exact .refl i clock
  | case3 i clock limit hl clock₁ i₁ wake hr later hw ih =>
    exact (gives_read_skip hl hr hw).trans (ih h)
  | case6 i clock limit hl clock₁ i₁ seen hr he =>
    cases h
    exact gives_read hr
  | case7 i clock limit hl seen clock₁ i₁ hr he outcome clock₂ i₂ hn ih =>
    cases outcome <;> cases h
    exact (gives_read hr).trans (ih hn)
  | _ => cases h

/-- What was read is what is wanted of all that was still to come. -/
theorem first_of_gather (h : gather wanted i clock deadline limit = (.ok bytes, clock', i')) :
    bytes = wanted.first limit i.bytes := by
  fun_induction gather wanted i clock deadline limit generalizing bytes clock' i' with
  | case1 i clock =>
    cases h
    exact (List.length_eq_zero_iff.1 (Nat.le_zero.1 (wanted.length_first_le 0 i.bytes))).symm
  | case3 i clock limit hl clock₁ i₁ wake hr later hw ih =>
    rw [ih h, ← (gives_read_skip hl hr hw).bytes, List.nil_append]
  | case6 i clock limit hl clock₁ i₁ seen hr he =>
    cases h
    exact ((first_of_read hl hr).1 he).symm
  | case7 i clock limit hl seen clock₁ i₁ hr he outcome clock₂ i₂ hn ih =>
    cases outcome <;> cases h
    rw [Bool.or_eq_true, not_or] at he
    rw [(first_of_read hl hr).2 (Bool.eq_false_iff.2 he.2), ih hn]
  | _ => cases h

theorem exists_gather (wanted : Wanted) (limit : Nat) (hi : i.InTime clock deadline) :
    ∃ bytes clock' i', gather wanted i clock deadline limit = (.ok bytes, clock', i') := by
  fun_induction gather wanted i clock deadline limit with
  | case1 i clock => exact ⟨_, _, _, rfl⟩
  | case2 i clock limit hl reason clock₁ i₁ hr =>
    obtain ⟨seen, he⟩ | ⟨wake, later, he, -⟩ := exists_read hl hi hr <;> cases he
  | case3 i clock limit hl clock₁ i₁ wake hr later hw ih =>
    exact ih ((gives_read_skip hl hr hw).inTime hi)
  | case4 i clock limit hl clock₁ i₁ wake hr later hw
  | case5 i clock limit hl clock₁ i₁ wake hr later hw =>
    obtain ⟨seen, he⟩ | ⟨wake, later, he, hready⟩ := exists_read hl hi hr <;> cases he
    rw [hw] at hready
    cases hready
  | case6 i clock limit hl clock₁ i₁ seen hr he => exact ⟨_, _, _, rfl⟩
  | case7 i clock limit hl seen clock₁ i₁ hr he outcome clock₂ i₂ hn ih =>
    obtain ⟨bytes, clock', i', ho⟩ := ih ((gives_read hr).inTime hi)
    rw [hn] at ho
    cases ho
    exact ⟨_, _, _, rfl⟩

/-- A read that waits fails where the stream does. -/
theorem ending_of_gather {reason : String}
    (h : gather wanted i clock deadline limit = (.error reason, clock', i')) :
    i.source.ending = .failure reason := by
  fun_induction gather wanted i clock deadline limit generalizing clock' i' with
  | case2 i clock limit hl reason clock₁ i₁ hr =>
    cases h
    obtain ⟨seen, -, he⟩ | ⟨wake, rest, he, -⟩ | ⟨he, -⟩ := read_cases hl hr
    · cases he
    · cases he
    · cases hi : i.source.ending <;> rw [hi] at he <;> cases he
      rfl
  | case3 i clock limit hl clock₁ i₁ wake hr later hw ih =>
    exact (gives_read_skip hl hr hw).ending ▸ ih h
  | case7 i clock limit hl seen clock₁ i₁ hr he outcome clock₂ i₂ hn ih =>
    cases outcome <;> cases h
    exact (gives_read hr).ending ▸ ih hn
  | _ => cases h

/-- Nothing is read at the end of the stream, and nowhere else. -/
theorem end_of_gather (hl : limit ≠ 0)
    (h : gather wanted i clock deadline limit = (.ok [], clock', i')) :
    i.bytes = [] ∧ i.source.ending = .finish := by
  fun_induction gather wanted i clock deadline limit generalizing clock' i' with
  | case1 => exact absurd rfl hl
  | case3 i clock limit hn wake clock₁ i₁ hr later hw ih =>
    have hg := gives_read_skip hn hr hw
    obtain ⟨hb, he⟩ := ih hl h
    exact ⟨hg.bytes.symm.trans hb, hg.ending.symm.trans he⟩
  | case6 i clock limit hn clock₁ i₁ seen hr he =>
    cases h
    exact end_of_read hn hr
  | case7 i clock limit hn seen clock₁ i₁ hr he outcome clock₂ i₂ hr' ih =>
    obtain ⟨ho, -, -⟩ : outcome.map (seen ++ ·) = .ok [] ∧ _ ∧ _ := by simpa using h
    cases outcome with
    | ok more =>
      obtain ⟨rfl, -⟩ := List.append_eq_nil_iff.1 (Outcome.ok.inj ho)
      exact absurd rfl he
    | _ => cases ho
  | _ => cases h

end

theorem takeLine_of_readLine {i i' : Inlet} {clock clock' : Clock} {deadline : Deadline}
    {limit : Nat} {line : Bytes} (h : i.readLine clock deadline limit = (.ok line, clock', i')) :
    line = takeLine limit i.bytes :=
  first_of_gather h

theorem take_of_readUpTo {i i' : Inlet} {clock clock' : Clock} {deadline : Deadline} {limit : Nat}
    {bytes : Bytes} (h : i.readUpTo clock deadline limit = (.ok bytes, clock', i')) :
    bytes = i.bytes.take limit :=
  first_of_gather h

/-- The next bytes of a stream that is all there in time are read. -/
theorem exists_readUpTo {i : Inlet} {clock : Clock} {deadline : Deadline}
    (hi : i.InTime clock deadline) (limit : Nat) :
    ∃ clock' i', i.readUpTo clock deadline limit = (.ok (i.bytes.take limit), clock', i') := by
  obtain ⟨bytes, clock', i', hr⟩ := exists_gather .bytes limit hi
  obtain rfl : bytes = i.bytes.take limit := first_of_gather hr
  exact ⟨clock', i', hr⟩

/-! ## What is taken -/

/-- Some bytes are taken from the front, and no more than `limit` of them. -/
def Draws (i : Inlet) (limit : Nat) (i' : Inlet) : Prop :=
  ∃ taken, taken.length ≤ limit ∧ taken ++ i'.bytes = i.bytes

theorem Draws.of_eq {i i' : Inlet} (h : i'.bytes = i.bytes) (limit : Nat) : i.Draws limit i' :=
  ⟨[], Nat.zero_le _, h⟩

theorem Draws.mono {i i' : Inlet} {limit more : Nat} (h : i.Draws limit i') (hl : limit ≤ more) :
    i.Draws more i' := by
  obtain ⟨taken, ht, he⟩ := h
  exact ⟨taken, Nat.le_trans ht hl, he⟩

/-- It does not matter what is held in advance. -/
theorem Draws.congr {i i' i'' : Inlet} {limit : Nat} (hb : i'.bytes = i.bytes)
    (h : i'.Draws limit i'') : i.Draws limit i'' := by
  obtain ⟨taken, ht, he⟩ := h
  exact ⟨taken, ht, he.trans hb⟩

/-- Bytes are taken where others were. -/
theorem Draws.append {i i' i'' : Inlet} {limit : Nat} {seen : Bytes} (hl : seen.length ≤ limit)
    (hb : seen ++ i'.bytes = i.bytes) (h : i'.Draws (limit - seen.length) i'') :
    i.Draws limit i'' := by
  obtain ⟨taken, ht, he⟩ := h
  refine ⟨seen ++ taken, ?_, ?_⟩
  · rw [List.length_append]
    omega
  · rw [List.append_assoc, he, hb]

/-- One takes what the other leaves. -/
theorem Draws.trans {i i' i'' : Inlet} {limit more : Nat} (h : i.Draws limit i')
    (h' : i'.Draws more i'') : i.Draws (limit + more) i'' := by
  obtain ⟨taken, hl, hb⟩ := h
  obtain ⟨next, hn, hb'⟩ := h'
  refine ⟨taken ++ next, ?_, by rw [List.append_assoc, hb', hb]⟩
  rw [List.length_append]
  omega

/-- Whatever a read that waits comes to, no more bytes are taken than were asked for. -/
theorem draws_gather {i i' : Inlet} {clock clock' : Clock} {deadline : Deadline} {limit : Nat}
    {wanted : Wanted} {outcome : Outcome String Bytes}
    (h : gather wanted i clock deadline limit = (outcome, clock', i')) : i.Draws limit i' := by
  fun_induction gather wanted i clock deadline limit generalizing outcome clock' i' with
  | case1 i clock =>
    cases h
    exact .of_eq rfl _
  | case2 i clock limit hl reason clock₁ i₁ hr | case4 i clock limit hl wake clock₁ i₁ hr
  | case5 i clock limit hl wake clock₁ i₁ hr =>
    cases h
    exact .of_eq (append_bytes_read hr) _
  | case3 i clock limit hl wake clock₁ i₁ hr later hw ih =>
    have hb : (i₁.skip later.now).bytes = i.bytes :=
      (i₁.bytes_skip later.now).trans (append_bytes_read hr)
    exact .congr hb (ih h)
  | case6 i clock limit hl seen clock₁ i₁ hr he =>
    cases h
    exact ⟨seen, length_read_le hr, append_bytes_read hr⟩
  | case7 i clock limit hl seen clock₁ i₁ hr he outcome clock₂ i₂ hn ih =>
    cases h
    exact .append (length_read_le hr) (append_bytes_read hr) (ih hn)

/-! ## Everything at hand -/

/-- The stream finishes, and there is no pause before any of it. -/
def AtHand (i : Inlet) : Prop :=
  i.source.ending = .finish ∧ ∀ piece ∈ i.source.pieces, ∃ bytes, piece = .chunk bytes

theorem atHand_direct (bytes : Bytes) : (direct (.ofBytes bytes)).AtHand :=
  ⟨rfl, fun _ hp => ⟨bytes, List.mem_singleton.1 hp⟩⟩

theorem bytes_direct (bytes : Bytes) : (direct (.ofBytes bytes)).bytes = bytes :=
  Source.bytes_ofBytes bytes

/-- A read of a source without pauses leaves one. -/
theorem forall_chunk_of_read {i i' : Inlet} {clock clock' : Clock} {limit : Nat} {wanted : Wanted}
    {result : ReadResult} (hp : ∀ piece ∈ i.source.pieces, ∃ bytes, piece = .chunk bytes)
    (h : i.read wanted clock limit = (result, clock', i')) :
    ∀ piece ∈ i'.source.pieces, ∃ bytes, piece = .chunk bytes := by
  obtain ⟨shown, loaded, hl, -, rfl⟩ := exists_load_of_read h
  show ∀ piece ∈ loaded.source.pieces, _
  unfold load at hl
  split at hl
  · cases hl
    exact Piece.forall_chunk_read hp
  · cases hl
    exact hp

theorem AtHand.read {i i' : Inlet} {clock clock' : Clock} {limit : Nat} {result : ReadResult}
    (ha : i.AtHand) (h : i.read .bytes clock limit = (result, clock', i')) : i'.AtHand :=
  ⟨(gives_read h).ending.trans ha.1, forall_chunk_of_read ha.2 h⟩

/-- What is at hand is read without waiting. -/
theorem AtHand.exists_data {i i' : Inlet} {clock clock' : Clock} {limit : Nat} {result : ReadResult}
    (ha : i.AtHand) (hl : limit ≠ 0) (h : i.read .bytes clock limit = (result, clock', i')) :
    ∃ seen, result = .data seen := by
  obtain ⟨seen, -, hd⟩ | ⟨wake, rest, -, hp⟩ | ⟨he, -⟩ := read_cases hl h
  · exact ⟨seen, hd⟩
  · obtain ⟨bytes, hb⟩ := (ha.read h).2 (.notBefore wake) (hp ▸ List.mem_cons_self ..)
    cases hb
  · rw [ha.1] at he
    exact ⟨[], he⟩

end Inlet

end Courier
