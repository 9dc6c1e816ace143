import Mathlib.Data.List.Basic
/-!
# Rules for programs that can fail half way

A method that takes `&mut self` and leaves through `?` keeps the writes it made
before the error.  `EStateM` has that meaning, and `Triple` speaks about both
ways out: `Q` for a returned value, `E` for an error, each with the state left
behind.
-/

namespace Support.Fallible

variable {ε σ α β : Type}

/-- From a state in `P`, returning a value establishes `Q` and failing
establishes `E`. -/
def Triple (P : σ → Prop) (x : EStateM ε σ α) (Q : α → σ → Prop)
    (E : ε → σ → Prop) : Prop :=
  ∀ s, P s → match x.run s with
    | .ok a t => Q a t
    | .error e t => E e t

theorem bind_eq_ok {x : Except ε α} {f : α → Except ε β} {b : β} :
    (x >>= f) = .ok b ↔ ∃ a, x = .ok a ∧ f a = .ok b := by
  cases x with
  | error e => exact ⟨nofun, fun ⟨_, h, _⟩ => nomatch h⟩
  | ok a => exact ⟨fun h => ⟨a, rfl, h⟩, fun ⟨_, rfl, h⟩ => h⟩

/-- A check passes: the computation returns a value. -/
def Passes (x : Except ε α) : Prop := ∃ a, x = .ok a

theorem passes_ok (a : α) : Passes (.ok a : Except ε α) := ⟨a, rfl⟩

theorem not_passes_error (e : ε) : ¬Passes (.error e : Except ε α) := nofun

theorem passes_bind_iff {x : Except ε α} {f : α → Except ε β} {P Q : Prop} (hx : Passes x ↔ P)
    (hf : ∀ a, x = .ok a → (Passes (f a) ↔ Q)) : Passes (x >>= f) ↔ P ∧ Q := by
  rw [← hx]
  cases x with
  | error e => exact iff_of_false (not_passes_error e) fun h => not_passes_error e h.1
  | ok a => exact (hf a rfl).trans (and_iff_right (passes_ok a)).symm

/-- What is only packed into a value afterwards decides alone. -/
theorem passes_return_iff {x : Except ε α} {f : α → β} :
    Passes (x >>= fun a => Pure.pure (f a)) ↔ Passes x := by
  cases x with
  | error e => exact iff_of_false (not_passes_error e) (not_passes_error e)
  | ok a => exact iff_of_true (passes_ok (f a)) (passes_ok a)

/-- Programs that go on alike after the value that `x` returns are equal from `s`. -/
theorem run_bind_congr {x : EStateM ε σ α} {f g : α → EStateM ε σ β} {s : σ}
    (h : ∀ a t, x.run s = .ok a t → f a = g a) : (x >>= f).run s = (x >>= g).run s := by
  rw [EStateM.run_bind, EStateM.run_bind]
  cases hx : x.run s with
  | ok a t => simp only [h a t hx]
  | error e t => rfl

/-- The operator `?` on a result that no state enters. -/
theorem run_ofExcept_bind (x : Except ε α) (f : α → EStateM ε σ β) (s : σ) :
    (MonadExcept.ofExcept x >>= f).run s =
      match x with
      | .ok a => (f a).run s
      | .error e => .error e s := by
  cases x <;> rfl

namespace Triple

variable {P P' : σ → Prop} {Q Q' : α → σ → Prop} {E E' : ε → σ → Prop}

theorem intro {x : EStateM ε σ α} (h : ∀ s, P s → match x.run s with
    | .ok a t => Q a t
    | .error e t => E e t) : Triple P x Q E := h

theorem ok {x : EStateM ε σ α} (h : Triple P x Q E) {s t : σ} {a : α} (hs : P s)
    (hx : x.run s = .ok a t) : Q a t := by
  have := h s hs
  rwa [hx] at this

theorem error {x : EStateM ε σ α} (h : Triple P x Q E) {s t : σ} {e : ε} (hs : P s)
    (hx : x.run s = .error e t) : E e t := by
  have := h s hs
  rwa [hx] at this

theorem consequence {x : EStateM ε σ α} (h : Triple P x Q E)
    (hP : ∀ s, P' s → P s) (hQ : ∀ a s, Q a s → Q' a s) (hE : ∀ e s, E e s → E' e s) :
    Triple P' x Q' E' := by
  intro s hs
  have := h s (hP s hs)
  cases hx : x.run s with
  | ok a t =>
      rw [hx] at this
      exact hQ a t this
  | error e t =>
      rw [hx] at this
      exact hE e t this

theorem pure {a : α} (h : ∀ s, P s → Q a s) :
    Triple (ε := ε) P (Pure.pure a) Q E := by
  intro s hs
  exact h s hs

theorem throw {e : ε} (h : ∀ s, P s → E e s) :
    Triple P (MonadExcept.throw e : EStateM ε σ α) Q E := by
  intro s hs
  exact h s hs

theorem bind {x : EStateM ε σ α} {f : α → EStateM ε σ β} {R : α → σ → Prop}
    {Q : β → σ → Prop} (hx : Triple P x R E) (hf : ∀ a, Triple (R a) (f a) Q E) :
    Triple P (x >>= f) Q E := by
  intro s hs
  have := hx s hs
  rw [EStateM.run_bind]
  cases hr : x.run s with
  | ok a t =>
      rw [hr] at this
      exact hf a t this
  | error e t =>
      rw [hr] at this
      exact this

theorem exists_pre {ι : Type} {I : ι → σ → Prop} {x : EStateM ε σ α}
    (h : ∀ i, Triple (I i) x Q E) : Triple (fun s => ∃ i, I i s) x Q E := by
  rintro s ⟨i, hs⟩
  exact h i s hs

theorem and_pre {φ : Prop} {x : EStateM ε σ α} (h : φ → Triple P x Q E) :
    Triple (fun s => P s ∧ φ) x Q E := by
  rintro s ⟨hs, hφ⟩
  exact h hφ s hs

/-- Reading the state first: the rest may use that it is still the current one. -/
theorem get_bind {f : σ → EStateM ε σ α}
    (h : ∀ s, P s → Triple (fun t => t = s) (f s) Q E) :
    Triple P (MonadState.get >>= f) Q E := by
  intro s hs
  exact h s hs s rfl

theorem set {t : σ} {Q : PUnit → σ → Prop} (h : ∀ s, P s → Q ⟨⟩ t) :
    Triple (ε := ε) P (MonadStateOf.set t) Q E := by
  intro s hs
  exact h s hs

/-- The loop rule.  The invariant is indexed by the elements already visited, so
that what one iteration settles about its element is kept to the end. -/
theorem forM {xs : List α} {f : α → EStateM ε σ PUnit} {I : List α → σ → Prop}
    (body : ∀ done x rest, xs = done ++ x :: rest →
      Triple (I done) (f x) (fun _ => I (done ++ [x])) E) :
    Triple (I []) (xs.forM f) (fun _ => I xs) E := by
  suffices h : ∀ done rest, xs = done ++ rest →
      Triple (I done) (rest.forM f) (fun _ => I xs) E from h [] xs rfl
  intro done rest
  induction rest generalizing done with
  | nil =>
      intro hxs
      rw [List.append_nil] at hxs
      subst hxs
      exact Triple.pure fun _ h => h
  | cons x rest ih =>
      intro hxs
      have hnext : xs = (done ++ [x]) ++ rest := by simpa using hxs
      exact Triple.bind (body done x rest hxs) fun _ => ih (done ++ [x]) hnext

/-- The loop rule for an invariant that says nothing about the visited elements. -/
theorem forM_invariant {xs : List α} {f : α → EStateM ε σ PUnit} {I : σ → Prop}
    (body : ∀ x, Triple I (f x) (fun _ => I) E) :
    Triple I (xs.forM f) (fun _ => I) E :=
  forM (I := fun _ => I) fun _ x _ _ => body x

end Triple

-- A rule is applied to a program as it stands; unfolding would run the program instead.
attribute [irreducible] Triple

end Support.Fallible
