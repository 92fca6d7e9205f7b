import Courier.Proofs.Receiver.Messages

/-!
# Deliveries

Two receivers that have the same before them do not tell how the bytes were cut or when they came,
if all of them come in time: both take the same lines (`Abreast.readLine`), so that they stay
abreast (`Abreast.readLines`) and read the same head (`Abreast.readHead`).
-/

namespace Courier.Receiver

/-- Two receivers have got equally far and have the same before them, all of it in time. -/
structure Abreast (r₁ : Receiver) (clock₁ : Clock) (r₂ : Receiver) (clock₂ : Clock) : Prop where
  progress : r₂.progress = r₁.progress
  held : r₂.held = r₁.held
  bytes : r₂.inlet.bytes = r₁.inlet.bytes
  inTime₁ : r₁.inlet.InTime clock₁ r₁.deadline
  inTime₂ : r₂.inlet.InTime clock₂ r₂.deadline

namespace Abreast

variable {r₁ r₁' r₂ r₂' : Receiver} {clock₁ clock₁' clock₂ clock₂' : Clock}

theorem begin (h : Abreast r₁ clock₁ r₂ clock₂) : Abreast r₁ clock₁.begin r₂ clock₂.begin :=
  ⟨h.progress, h.held, h.bytes, h.inTime₁.begin, h.inTime₂.begin⟩

/-- The other receiver takes the same line, and what both make of it keeps them abreast. -/
theorem readLine {line : Bytes} {inlet₁ : Inlet} (h : Abreast r₁ clock₁ r₂ clock₂)
    (hl : r₁.inlet.readLine clock₁ r₁.deadline r₁.lineLimit.toNat = (.ok line, clock₁', inlet₁)) :
    ∃ clock₂' inlet₂,
      r₂.inlet.readLine clock₂ r₂.deadline r₂.lineLimit.toNat = (.ok line, clock₂', inlet₂) ∧
      ∀ progress held, Abreast { r₁ with inlet := inlet₁, progress, held } clock₁'
        { r₂ with inlet := inlet₂, progress, held } clock₂' := by
  obtain ⟨other, clock₂', inlet₂, hl₂⟩ := Inlet.exists_gather .line r₂.lineLimit.toNat h.inTime₂
  have hsame : other = line := by
    rw [Inlet.takeLine_of_readLine hl₂, Inlet.takeLine_of_readLine hl, lineLimit, lineLimit,
      h.progress, h.bytes]
  subst hsame
  have hg₁ := Inlet.gives_gather hl
  have hg₂ := Inlet.gives_gather hl₂
  have hb : inlet₂.bytes = inlet₁.bytes :=
    List.append_cancel_left (hg₂.bytes.trans (h.bytes.trans hg₁.bytes.symm))
  exact ⟨clock₂', inlet₂, hl₂,
    fun _ _ => ⟨rfl, rfl, hb, hg₁.inTime h.inTime₁, hg₂.inTime h.inTime₂⟩⟩

theorem readLines {outcome₁ outcome₂ : Outcome ReceiveError (Option Head)}
    (h : Abreast r₁ clock₁ r₂ clock₂) (h₁ : r₁.readLines clock₁ = (outcome₁, clock₁', r₁'))
    (h₂ : r₂.readLines clock₂ = (outcome₂, clock₂', r₂')) :
    outcome₂ = outcome₁ ∧ Abreast r₁' clock₁' r₂' clock₂' := by
  fun_induction Receiver.readLines r₁ clock₁ generalizing r₂ clock₂ outcome₁ clock₁' r₁' with
  | case4 r₁ clock₁ line later inlet hl he answer q held hd =>
    obtain ⟨clock, inlet₂, hl₂, hstep⟩ := h.readLine hl
    rw [readLines_of_readLine hl₂, if_pos he, h.progress, h.held, hd] at h₂
    cases h₁
    cases h₂
    exact ⟨rfl, hstep q held⟩
  | case5 r₁ clock₁ line later inlet hl he q held hd ih =>
    obtain ⟨clock, inlet₂, hl₂, hstep⟩ := h.readLine hl
    rw [readLines_of_readLine hl₂, if_neg he, h.progress, h.held, hd] at h₂
    exact ih (hstep q held) h₁ h₂
  | case6 r₁ clock₁ line later inlet hl he answer q held ha hd =>
    obtain ⟨clock, inlet₂, hl₂, hstep⟩ := h.readLine hl
    rw [readLines_of_readLine hl₂, if_neg he, h.progress, h.held, hd] at h₂
    cases h₁
    rcases answer with error | _ | head
    case ok.none => exact (ha rfl).elim
    all_goals
      cases h₂
      exact ⟨rfl, hstep q held⟩
  | _ r₁ clock₁ =>
    -- The line would have come too late, or not at all.
    rename_i hl
    obtain ⟨line, later, inlet, he⟩ := Inlet.exists_gather .line r₁.lineLimit.toNat h.inTime₁
    cases hl.symm.trans he

theorem readHead {outcome₁ outcome₂ : Outcome ReceiveError (Option Head)}
    (h : Abreast r₁ clock₁ r₂ clock₂) (h₁ : r₁.readHead clock₁ = (outcome₁, clock₁', r₁'))
    (h₂ : r₂.readHead clock₂ = (outcome₂, clock₂', r₂')) :
    outcome₂ = outcome₁ ∧
      ∀ answer, outcome₁ = .ok answer → Abreast r₁' clock₁' r₂' clock₂' := by
  obtain ⟨read₁, left₁, hr₁, rfl, hleft₁⟩ := exists_readLines_of_readHead h₁
  obtain ⟨read₂, left₂, hr₂, rfl, hleft₂⟩ := exists_readLines_of_readHead h₂
  obtain ⟨rfl, hab⟩ := h.begin.readLines hr₁ hr₂
  refine ⟨rfl, fun answer he => ?_⟩
  rw [hleft₁ answer he, hleft₂ answer he]
  exact hab

end Abreast

end Courier.Receiver
