import Courier.Proofs.Stream.Inlet

/-!
# What a read depends on

A read that is satisfied does not look at what comes after it. Put anything behind an inlet, and any
end: as long as the inlet itself has the bytes that are asked for, reading gives the same, takes as
long, and leaves what was put there as it was (`gather_followedBy`).

Nor does a read wait that has no reason to: if there are no pauses, and the stream ends or has the
bytes that are asked for, it is not too late (`Flows.gather`).
-/

namespace Courier

namespace Piece

theorem read_append {max : Nat} {ending : Ending} {clock clock' : Clock} {pieces left : List Piece}
    {result : ReadResult} (hb : contents pieces ≠ [])
    (h : read max ending clock pieces = (result, clock', left)) (more : List Piece)
    (other : Ending) : read max other clock (pieces ++ more) = (result, clock', left ++ more) := by
  fun_induction read max ending clock pieces with
  | case1 | case2 | case3 => exact absurd rfl hb
  | case4 clock held rest he ih =>
    rw [contents_cons, content, List.isEmpty_iff.1 he, List.nil_append] at hb
    rw [List.cons_append, read, if_pos he]
    exact ih hb h
  | case5 clock held rest he hm =>
    cases h
    rw [List.cons_append, read, if_neg he, if_pos hm]
  | case6 clock held rest he hm =>
    cases h
    rw [List.cons_append, read, if_neg he, if_neg hm, List.cons_append]
  | case7 clock length rest hs ih =>
    rw [List.cons_append, read, if_pos hs]
    exact ih hb h
  | case8 clock length rest hs =>
    cases h
    rw [List.cons_append, read, if_neg hs]
    rfl
  | case9 clock moment rest hs ih =>
    rw [List.cons_append, read, if_pos hs]
    exact ih hb h
  | case10 clock moment rest hs =>
    cases h
    rw [List.cons_append, read, if_neg hs]

end Piece

theorem Source.pieces_of_read {s s' : Source} {clock clock' : Clock} {max : Nat}
    {result : ReadResult} (h : s.read clock max = (result, clock', s')) :
    Piece.read max s.ending clock s.pieces = (result, clock', s'.pieces) := by
  simp only [read, Prod.mk.injEq] at h
  obtain ⟨hr, hc, rfl⟩ := h
  exact Prod.ext hr (Prod.ext hc rfl)

/-- The source with more behind it, and another end. -/
def Source.followedBy (s : Source) (more : List Piece) (ending : Ending) : Source :=
  { pieces := s.pieces ++ more, ending }

theorem Source.read_followedBy {s s' : Source} {clock clock' : Clock} {max : Nat}
    {result : ReadResult} (hb : s.bytes ≠ []) (h : s.read clock max = (result, clock', s'))
    (more : List Piece) (ending : Ending) :
    (s.followedBy more ending).read clock max = (result, clock', s'.followedBy more ending) := by
  have hr := Piece.read_append hb (pieces_of_read h) more ending
  simp only [read, followedBy, hr]

namespace Inlet

variable {i i' : Inlet} {clock clock' : Clock} {deadline : Deadline} {limit total : Nat}
  {wanted : Wanted}

/-- The inlet with more behind it, and another end. -/
def followedBy (i : Inlet) (more : List Piece) (ending : Ending) : Inlet :=
  { i with source := i.source.followedBy more ending }

@[simp] theorem buffer_followedBy (i : Inlet) (more : List Piece) (ending : Ending) :
    (i.followedBy more ending).buffer = i.buffer := rfl

@[simp] theorem capacity_followedBy (i : Inlet) (more : List Piece) (ending : Ending) :
    (i.followedBy more ending).capacity = i.capacity := rfl

@[simp] theorem source_followedBy (i : Inlet) (more : List Piece) (ending : Ending) :
    (i.followedBy more ending).source = i.source.followedBy more ending := rfl

theorem bytes_source (hb : i.bytes ≠ []) (he : i.buffer.isEmpty) : i.source.bytes ≠ [] := by
  rwa [bytes, List.isEmpty_iff.1 he, List.nil_append] at hb

theorem load_followedBy {room : Nat} {result : ReadResult} (hb : i.bytes ≠ [])
    (h : i.load clock room = (result, clock', i')) (more : List Piece) (ending : Ending) :
    (i.followedBy more ending).load clock room = (result, clock', i'.followedBy more ending) := by
  rw [load, buffer_followedBy, source_followedBy]
  unfold load at h
  split_ifs at h ⊢ with he
  · rcases hr : i.source.read clock room with ⟨given, clock₁, source⟩
    rw [Source.read_followedBy (bytes_source hb he) hr]
    rw [hr] at h
    cases h
    rfl
  · cases h
    rfl

theorem read_followedBy {result : ReadResult} (hb : i.bytes ≠ [])
    (h : i.read wanted clock limit = (result, clock', i')) (more : List Piece) (ending : Ending) :
    (i.followedBy more ending).read wanted clock limit =
      (result, clock', i'.followedBy more ending) := by
  obtain ⟨shown, loaded, hl, rfl, rfl⟩ := exists_load_of_read h
  rw [read, capacity_followedBy, load_followedBy hb hl]
  rfl

/-- A pause at the head of an inlet is passed over in the same way. -/
theorem skip_followedBy {wake : Time} {rest : List Piece}
    (hp : i.source.pieces = .notBefore wake :: rest) (now : Time) (more : List Piece)
    (ending : Ending) :
    (i.followedBy more ending).skip now = (i.skip now).followedBy more ending := by
  simp only [skip, followedBy, Source.skip, Source.followedBy, hp, List.cons_append, Piece.skip]
  split <;> rfl

/-! ## Reads that wait -/

/-- One step of a read that waits. -/
theorem gather_step (wanted : Wanted) (i : Inlet) (clock : Clock) (deadline : Deadline)
    (hl : limit ≠ 0) :
    gather wanted i clock deadline limit =
      match i.read wanted clock limit with
      | (.failed reason, clock, i) => (.error reason, clock, i)
      | (.pending wake, clock, i) =>
        match clock.wait wake deadline with
        | (.ready, clock) => gather wanted (i.skip clock.now) clock deadline limit
        | (.expired, clock) => (.expired, clock, i)
        | (.stalled, clock) => (.stalled, clock, i)
      | (.data seen, clock, i) =>
        if seen.isEmpty || wanted.isWhole seen then (.ok seen, clock, i)
        else
          match gather wanted i clock deadline (limit - seen.length) with
          | (outcome, clock, i) => (outcome.map (seen ++ ·), clock, i) := by
  rw [gather, if_neg hl]
  split <;> rename_i hr <;> rw [hr]
  dsimp only
  split <;> rename_i hw <;> rw [hw]

/-- Reading bytes that are there takes no notice of what is behind them. -/
theorem gather_followedBy {outcome : Outcome String Bytes} (hb : limit ≤ i.bytes.length)
    (h : gather wanted i clock deadline limit = (outcome, clock', i')) (more : List Piece)
    (ending : Ending) :
    gather wanted (i.followedBy more ending) clock deadline limit =
      (outcome, clock', i'.followedBy more ending) := by
  fun_induction gather wanted i clock deadline limit generalizing outcome clock' i' with
  | case1 i clock =>
    cases h
    rw [gather, if_pos rfl]
  | case2 i clock limit hl reason clock₁ i₁ hr =>
    cases h
    rw [gather_step _ _ _ _ hl, read_followedBy (bytes_ne_nil hl hb) hr]
  | case3 i clock limit hl wake clock₁ i₁ hr later hw ih =>
    have hn := bytes_ne_nil hl hb
    rw [gather_step _ _ _ _ hl, read_followedBy hn hr]
    dsimp only
    rw [hw]
    obtain ⟨seen, -, he⟩ | ⟨wake, rest, -, hp⟩ | ⟨-, he⟩ := read_cases hl hr
    · cases he
    · dsimp only
      rw [skip_followedBy hp]
      refine ih ?_ h
      have : i₁.bytes = i.bytes := append_bytes_read hr
      rwa [bytes_skip, this]
    · exact absurd he hn
  | case4 i clock limit hl wake clock₁ i₁ hr later hw
  | case5 i clock limit hl wake clock₁ i₁ hr later hw =>
    cases h
    rw [gather_step _ _ _ _ hl, read_followedBy (bytes_ne_nil hl hb) hr]
    dsimp only
    rw [hw]
  | case6 i clock limit hl clock₁ i₁ seen hr he =>
    cases h
    rw [gather_step _ _ _ _ hl, read_followedBy (bytes_ne_nil hl hb) hr]
    dsimp only
    rw [if_pos he]
  | case7 i clock limit hl seen clock₁ i₁ hr he outcome clock₂ i₂ hn ih =>
    cases h
    have hbytes : seen ++ i₁.bytes = i.bytes := append_bytes_read hr
    have hlength : limit - seen.length ≤ i₁.bytes.length := by
      rw [← hbytes, List.length_append] at hb
      omega
    rw [gather_step _ _ _ _ hl, read_followedBy (bytes_ne_nil hl hb) hr]
    dsimp only
    rw [if_neg he, ih hlength hn]

/-! ## Streams without pauses -/

/-- No read has to wait: there are no pauses, and there are `total` bytes if the stream does not end
behind them. -/
structure Flows (i : Inlet) (total : Nat) : Prop where
  pieces : ∀ piece ∈ i.source.pieces, ∃ bytes, piece = .chunk bytes
  enough : i.source.ending ≠ .silence ∨ total ≤ i.bytes.length

theorem Flows.read {result : ReadResult} (hi : i.Flows total) (hl : limit ≠ 0) (ht : limit ≤ total)
    (h : i.read wanted clock limit = (result, clock', i')) :
    i'.Flows (total - result.bytes.length) ∧ ∀ wake, result ≠ .pending wake := by
  have hpieces := forall_chunk_of_read hi.pieces h
  refine ⟨⟨hpieces, ?_⟩, ?_⟩
  · rw [(gives_read h).ending]
    refine hi.enough.imp id fun hle => ?_
    rw [← append_bytes_read h, List.length_append] at hle
    omega
  · rintro wake rfl
    obtain ⟨seen, -, he⟩ | ⟨moment, rest, -, hp⟩ | ⟨he, hn⟩ := read_cases hl h
    · cases he
    · obtain ⟨bytes, hb⟩ := hpieces _ (hp ▸ List.mem_cons_self ..)
      cases hb
    · rcases hi.enough with hs | hle
      · cases hending : i.source.ending <;> rw [hending] at he hs <;> cases he
        exact hs rfl
      · rw [hn, List.length_nil] at hle
        omega

/-- Nobody waits for bytes if there is no need to wait for as many as are asked for. -/
theorem Flows.gather {outcome : Outcome String Bytes} (hi : i.Flows total) (hl : limit ≤ total)
    (h : gather wanted i clock deadline limit = (outcome, clock', i')) :
    outcome ≠ .expired ∧ outcome ≠ .stalled ∧
      ∀ bytes, outcome = .ok bytes → i'.Flows (total - bytes.length) := by
  fun_induction Inlet.gather wanted i clock deadline limit
    generalizing outcome clock' i' total with
  | case1 i clock =>
    cases h
    simpa using hi
  | case2 i clock limit hn reason clock₁ i₁ hr =>
    cases h
    simp
  | case3 i clock limit hn wake clock₁ i₁ hr | case4 i clock limit hn wake clock₁ i₁ hr
  | case5 i clock limit hn wake clock₁ i₁ hr => exact absurd rfl ((hi.read hn hl hr).2 _)
  | case6 i clock limit hn seen clock₁ i₁ hr he =>
    cases h
    simpa [ReadResult.bytes] using (hi.read hn hl hr).1
  | case7 i clock limit hn seen clock₁ i₁ hr he outcome clock₂ i₂ hr' ih =>
    cases h
    have hleft : i₁.Flows (total - seen.length) := (hi.read hn hl hr).1
    obtain ⟨hexpired, hstalled, hok⟩ := ih hleft (Nat.sub_le_sub_right hl _) hr'
    cases outcome with
    | ok bytes =>
      have hlast := hok bytes rfl
      rw [← Nat.sub_add_eq] at hlast
      simpa [Outcome.map] using hlast
    | error reason => simp [Outcome.map]
    | expired => exact absurd rfl hexpired
    | stalled => exact absurd rfl hstalled

end Inlet

end Courier
