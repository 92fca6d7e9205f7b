import Courier.Outcome
import Mathlib.Data.List.Forall2

/-!
# Outcomes that are successes

An outcome with its value or its error changed is a success exactly when it was one before, and so
is a result. Steps that give results are a success one after the other exactly when each of them is
(`foldlM_cons_eq_ok_iff`), and what each of them keeps is kept by all (`foldlM_keeps`). So are the
results for the members of a list (`mapM_eq_ok_iff`), and otherwise the first that is an error
counts (`mapM_eq_error_iff`).
-/

namespace Courier

namespace Outcome

variable {ε ε' α β : Type}

theorem map_id (o : Outcome ε α) : o.map id = o := by
  cases o <;> rfl

@[simp]
theorem map_eq_ok_iff {f : α → β} {o : Outcome ε α} {b : β} :
    o.map f = .ok b ↔ ∃ a, o = .ok a ∧ f a = b := by
  cases o <;> simp [map]

@[simp]
theorem mapError_eq_ok_iff {f : ε → ε'} {o : Outcome ε α} {a : α} :
    o.mapError f = .ok a ↔ o = .ok a := by
  cases o <;> simp [mapError]

@[simp]
theorem within_eq_ok_iff {e : ε} {o : Outcome ε α} {a : α} : o.within e = .ok a ↔ o = .ok a := by
  cases o <;> simp [within]

@[simp]
theorem ofExcept_eq_ok_iff {e : Except ε α} {a : α} : ofExcept e = .ok a ↔ e = .ok a := by
  cases e <;> simp [ofExcept]

@[simp]
theorem ofExcept_eq_error_iff {e : Except ε α} {error : ε} :
    ofExcept e = .error error ↔ e = .error error := by
  cases e <;> simp [ofExcept]

end Outcome

/-! ## Results -/

section Results

variable {ε α β : Type} {x : Except ε α}

theorem map_eq_ok_iff {f : α → β} {b : β} : x.map f = .ok b ↔ ∃ a, x = .ok a ∧ f a = b := by
  cases x <;> simp [Except.map]

theorem exists_map_eq_ok_iff {f : α → β} : (∃ b, x.map f = .ok b) ↔ ∃ a, x = .ok a := by
  cases x <;> simp [Except.map]

theorem map_eq_error_iff {f : α → β} {error : ε} : x.map f = .error error ↔ x = .error error := by
  cases x <;> simp [Except.map]

/-- With only one error that is possible, what is not a success is that error. -/
theorem eq_error_iff_of_forall {error : ε} (h : ∀ other, x = .error other → other = error) :
    x = .error error ↔ ¬ ∃ a, x = .ok a := by
  cases x with
  | ok a => simp
  | error other => simp [h other rfl]

theorem bind_eq_ok_iff {f : α → Except ε β} {b : β} :
    x >>= f = .ok b ↔ ∃ a, x = .ok a ∧ f a = .ok b := by
  cases x <;> simp [bind, Except.bind]

theorem bind_eq_error_iff {f : α → Except ε β} {error : ε} :
    x >>= f = .error error ↔ x = .error error ∨ ∃ a, x = .ok a ∧ f a = .error error := by
  cases x <;> simp [bind, Except.bind]

end Results

section Steps

variable {ε σ α : Type} {f : σ → α → Except ε σ} {s s' : σ} {l l' : List α}

theorem foldlM_cons_eq_ok_iff {a : α} :
    (a :: l).foldlM f s = .ok s' ↔ ∃ next, f s a = .ok next ∧ l.foldlM f next = .ok s' := by
  rw [List.foldlM_cons, bind_eq_ok_iff]

theorem foldlM_append_eq_ok_iff :
    (l ++ l').foldlM f s = .ok s' ↔
      ∃ next, l.foldlM f s = .ok next ∧ l'.foldlM f next = .ok s' := by
  rw [List.foldlM_append, bind_eq_ok_iff]

/-- Steps none of which can fail are a success. -/
theorem exists_foldlM (hf : ∀ a ∈ l, ∀ s, ∃ s', f s a = .ok s') (s : σ) :
    ∃ s', l.foldlM f s = .ok s' := by
  induction l generalizing s with
  | nil => exact ⟨s, rfl⟩
  | cons a rest ih =>
    obtain ⟨ha, hrest⟩ := List.forall_mem_cons.1 hf
    obtain ⟨next, hnext⟩ := ha s
    obtain ⟨s', hs'⟩ := ih hrest next
    exact ⟨s', foldlM_cons_eq_ok_iff.2 ⟨next, hnext, hs'⟩⟩

theorem foldlM_keeps {P : σ → Prop} (hs : P s)
    (hf : ∀ a ∈ l, ∀ s s', P s → f s a = .ok s' → P s') (hl : l.foldlM f s = .ok s') : P s' := by
  induction l generalizing s with
  | nil =>
    cases hl
    exact hs
  | cons a rest ih =>
    obtain ⟨ha, hrest⟩ := List.forall_mem_cons.1 hf
    obtain ⟨next, hnext, hl⟩ := foldlM_cons_eq_ok_iff.1 hl
    exact ih (ha s next hs hnext) hrest hl

end Steps

section Lists

variable {ε α β : Type} {f : α → Except ε β} {l : List α}

theorem exists_forall₂_iff {R : α → β → Prop} :
    (∃ l', List.Forall₂ R l l') ↔ ∀ a ∈ l, ∃ b, R a b := by
  induction l with
  | nil => simp
  | cons a rest ih =>
    rw [List.forall_mem_cons, ← ih]
    constructor
    · rintro ⟨_, _ | ⟨hb, hbs⟩⟩
      exact ⟨⟨_, hb⟩, _, hbs⟩
    · rintro ⟨⟨b, hb⟩, bs, hbs⟩
      exact ⟨b :: bs, .cons hb hbs⟩

theorem mapM_eq_ok_iff {l' : List β} :
    l.mapM f = .ok l' ↔ List.Forall₂ (fun a b => f a = .ok b) l l' := by
  induction l generalizing l' with
  | nil => cases l' <;> simp [pure, Except.pure]
  | cons a rest ih =>
    rw [List.mapM_cons, bind_eq_ok_iff]
    constructor
    · rintro ⟨b, hb, h⟩
      obtain ⟨bs, hbs, he⟩ := bind_eq_ok_iff.1 h
      cases he
      exact .cons hb (ih.1 hbs)
    · rintro (_ | ⟨hb, hbs⟩)
      exact ⟨_, hb, bind_eq_ok_iff.2 ⟨_, ih.2 hbs, rfl⟩⟩

/-- Results for the members of a list end with the first that is an error. -/
theorem mapM_eq_error_iff {error : ε} :
    l.mapM f = .error error ↔
      ∃ before a after, l = before ++ a :: after ∧ (∀ b ∈ before, ∃ c, f b = .ok c) ∧
        f a = .error error := by
  induction l with
  | nil => simp [pure, Except.pure]
  | cons a rest ih =>
    have hrest : ∀ b, (rest.mapM f >>= fun bs => pure (b :: bs)) = .error error ↔
        rest.mapM f = .error error := by
      intro b
      rw [bind_eq_error_iff]
      simp [pure, Except.pure]
    simp only [List.mapM_cons, bind_eq_error_iff (x := f a), hrest, ih]
    constructor
    · rintro (ha | ⟨b, hb, before, bad, after, rfl, hbefore, hbad⟩)
      · exact ⟨[], a, rest, rfl, nofun, ha⟩
      · exact ⟨a :: before, bad, after, rfl, List.forall_mem_cons.2 ⟨⟨b, hb⟩, hbefore⟩, hbad⟩
    · rintro ⟨before, bad, after, hl, hbefore, hbad⟩
      cases before with
      | nil =>
        cases hl
        exact .inl hbad
      | cons first before =>
        cases hl
        obtain ⟨⟨b, hb⟩, hbefore⟩ := List.forall_mem_cons.1 hbefore
        exact .inr ⟨b, hb, before, bad, after, rfl, hbefore, hbad⟩

theorem mapM_flatMap {γ : Type} {g : γ → List α} {l : List γ} :
    (l.flatMap g).mapM f = (l.mapM fun c => (g c).mapM f).map List.flatten := by
  induction l with
  | nil => rfl
  | cons c rest ih =>
    rw [List.flatMap_cons, List.mapM_append, List.mapM_cons, ih]
    cases (g c).mapM f with
    | error error => rfl
    | ok first => cases rest.mapM fun c => (g c).mapM f <;> rfl

end Lists

end Courier
