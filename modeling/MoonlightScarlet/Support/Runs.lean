import Mathlib.Data.List.Basic
/-!
# Runs of a labelled step function

A system is a partial step `σ → ℓ → Option σ`: a label is one atomic action and
`none` means the action is not enabled.  A run is a list of labels.  The rules
below reduce a statement about every state of every run to one step.
-/

namespace Support.Runs

variable {σ ℓ : Type*}

/-- The state after the labels of a run, if every label was enabled. -/
def run (step : σ → ℓ → Option σ) : σ → List ℓ → Option σ
  | s, [] => some s
  | s, l :: ls => (step s l).bind fun t => run step t ls

/-- Every state that the run visits satisfies `P`, its first and last included. -/
def Always (step : σ → ℓ → Option σ) (P : σ → Prop) : σ → List ℓ → Prop
  | s, [] => P s
  | s, l :: ls => P s ∧ ∀ t, step s l = some t → Always step P t ls

/-- Every step that the run takes meets `C` in the state in which it is taken. -/
def Meets (step : σ → ℓ → Option σ) (C : σ → ℓ → Prop) : σ → List ℓ → Prop
  | _, [] => True
  | s, l :: ls => ∀ t, step s l = some t → C s l ∧ Meets step C t ls

instance Meets.decidable (step : σ → ℓ → Option σ) (C : σ → ℓ → Prop)
    [∀ s l, Decidable (C s l)] : ∀ s ls, Decidable (Meets step C s ls)
  | _, [] => isTrue trivial
  | s, l :: ls =>
      match h : step s l with
      | none => isTrue fun _ ht => nomatch h.symm.trans ht
      | some t =>
          have := Meets.decidable step C t ls
          decidable_of_iff (C s l ∧ Meets step C t ls)
            ⟨fun hmeets _ hu => Option.some.inj (h.symm.trans hu) ▸ hmeets,
              fun hmeets => hmeets t h⟩

@[simp] theorem run_nil (step : σ → ℓ → Option σ) (s : σ) :
    run step s [] = some s := rfl

@[simp] theorem run_cons (step : σ → ℓ → Option σ) (s : σ) (l : ℓ) (ls : List ℓ) :
    run step s (l :: ls) = (step s l).bind fun t => run step t ls := rfl

theorem Meets.of_forall {step : σ → ℓ → Option σ} {C : ℓ → Prop} {ls : List ℓ}
    (h : ∀ l ∈ ls, C l) (s : σ) : Meets step (fun _ => C) s ls := by
  induction ls generalizing s with
  | nil => exact trivial
  | cons l ls ih =>
      exact fun t _ => ⟨h l (by simp), ih (fun l hl => h l (by simp [hl])) t⟩

theorem Meets.mono {step : σ → ℓ → Option σ} {C D : σ → ℓ → Prop} {s : σ} {ls : List ℓ}
    (h : Meets step C s ls) (hCD : ∀ s l, C s l → D s l) : Meets step D s ls := by
  induction ls generalizing s with
  | nil => exact trivial
  | cons l ls ih => exact fun t ht => ⟨hCD s l (h t ht).1, ih (h t ht).2⟩

theorem Meets.and {step : σ → ℓ → Option σ} {C D : σ → ℓ → Prop} {s : σ} {ls : List ℓ}
    (hC : Meets step C s ls) (hD : Meets step D s ls) :
    Meets step (fun s l => C s l ∧ D s l) s ls := by
  induction ls generalizing s with
  | nil => exact trivial
  | cons l ls ih =>
      exact fun t ht => ⟨⟨(hC t ht).1, (hD t ht).1⟩, ih (hC t ht).2 (hD t ht).2⟩

theorem Meets.and_forall {step : σ → ℓ → Option σ} {C : σ → ℓ → Prop} {D : ℓ → Prop} {s : σ}
    {ls : List ℓ} (h : Meets step C s ls) (hD : ∀ l ∈ ls, D l) :
    Meets step (fun s l => C s l ∧ D l) s ls := by
  induction ls generalizing s with
  | nil => exact trivial
  | cons l ls ih =>
      exact fun t ht => ⟨⟨(h t ht).1, hD l (by simp)⟩,
        ih (h t ht).2 fun l hl => hD l (by simp [hl])⟩

/-- The invariant rule for runs whose every step meets a condition. -/
theorem Always.of_meets {step : σ → ℓ → Option σ} {I P : σ → Prop} {C : σ → ℓ → Prop}
    (hstep : ∀ s l t, I s → C s l → step s l = some t → I t) (hP : ∀ s, I s → P s)
    {s : σ} (hs : I s) {ls : List ℓ} (hmeets : Meets step C s ls) : Always step P s ls := by
  induction ls generalizing s with
  | nil => exact hP s hs
  | cons l ls ih =>
      refine ⟨hP s hs, fun t ht => ?_⟩
      obtain ⟨hC, hrest⟩ := hmeets t ht
      exact ih (hstep s l t hs hC ht) hrest

theorem Always.of_invariant {step : σ → ℓ → Option σ} {I P : σ → Prop}
    (hstep : ∀ s l t, I s → step s l = some t → I t) (hP : ∀ s, I s → P s)
    {s : σ} (hs : I s) (ls : List ℓ) : Always step P s ls :=
  Always.of_meets (fun s l t hI _ => hstep s l t hI) hP hs
    (Meets.of_forall (C := fun _ => True) (fun _ _ => trivial) s)

theorem Always.of_run {step : σ → ℓ → Option σ} {P : σ → Prop} {s t : σ}
    {ls : List ℓ} (h : Always step P s ls) (hrun : run step s ls = some t) : P t := by
  induction ls generalizing s with
  | nil =>
      simp only [run_nil, Option.some.injEq] at hrun
      exact hrun ▸ h
  | cons l ls ih =>
      simp only [run_cons, Option.bind_eq_some_iff] at hrun
      obtain ⟨u, hu, hrest⟩ := hrun
      exact ih (h.2 u hu) hrest

theorem invariant_of_meets {step : σ → ℓ → Option σ} {I : σ → Prop} {C : σ → ℓ → Prop}
    (hstep : ∀ s l t, I s → C s l → step s l = some t → I t) {s t : σ} {ls : List ℓ} (hs : I s)
    (hmeets : Meets step C s ls) (hrun : run step s ls = some t) : I t :=
  (Always.of_meets hstep (fun _ h => h) hs hmeets).of_run hrun

theorem Always.head {step : σ → ℓ → Option σ} {P : σ → Prop} {s : σ} {ls : List ℓ}
    (h : Always step P s ls) : P s := by
  cases ls with
  | nil => exact h
  | cons => exact h.1

/-- When, under the invariant `J`, a step leaves `P` intact exactly if it meets
`C`, a run stays inside `P` exactly if all of its steps meet `C`. -/
theorem always_iff_meets {step : σ → ℓ → Option σ} {J P : σ → Prop} {L : ℓ → Prop}
    {C : σ → ℓ → Prop}
    (hJ : ∀ s l t, L l → J s → step s l = some t → J t)
    (hP : ∀ s l t, L l → J s → P s → step s l = some t → (P t ↔ C s l))
    {s : σ} (hs : J s) (hPs : P s) {ls : List ℓ} (hls : ∀ l ∈ ls, L l) :
    Always step P s ls ↔ Meets step C s ls := by
  induction ls generalizing s with
  | nil => exact iff_of_true hPs trivial
  | cons l ls ih =>
      have hl : L l := hls l (by simp)
      have ih := fun {s} hs hPs => ih (s := s) hs hPs fun l hl => hls l (by simp [hl])
      constructor
      · rintro ⟨-, hrest⟩ t ht
        have hPt : P t := (hrest t ht).head
        exact ⟨(hP s l t hl hs hPs ht).mp hPt, (ih (hJ s l t hl hs ht) hPt).mp (hrest t ht)⟩
      · intro hmeets
        refine ⟨hPs, fun t ht => ?_⟩
        obtain ⟨hC, hrest⟩ := hmeets t ht
        exact (ih (hJ s l t hl hs ht) ((hP s l t hl hs hPs ht).mpr hC)).mpr hrest

/-- When `I` is kept by every step that meets `C`, and `P` follows from `I` and fails
after any other step, a run stays inside `P` exactly if all of its steps meet `C`. -/
theorem always_iff_meets_of_breaks {step : σ → ℓ → Option σ} {I P : σ → Prop}
    {C : σ → ℓ → Prop} (hkeep : ∀ s l t, I s → C s l → step s l = some t → I t)
    (hP : ∀ s, I s → P s) (hbreak : ∀ s l t, I s → ¬C s l → step s l = some t → ¬P t)
    {s : σ} (hs : I s) (ls : List ℓ) : Always step P s ls ↔ Meets step C s ls := by
  refine ⟨fun halways => ?_, Always.of_meets hkeep hP hs⟩
  induction ls generalizing s with
  | nil => exact trivial
  | cons l ls ih =>
      intro t ht
      have hC : C s l := by
        by_contra hnot
        exact hbreak s l t hs hnot ht (halways.2 t ht).head
      exact ⟨hC, ih (hkeep s l t hs hC ht) (halways.2 t ht)⟩

/-! ## Logs -/

/-- Each entry of a log, the newest first, satisfies `P` with the entries before it. -/
def Logged {α : Type*} (P : List α → α → Prop) : List α → Prop
  | [] => True
  | x :: before => P before x ∧ Logged P before

/-- A property of the entries of a log, each with what was logged before it,
extends to one more entry. -/
theorem forall_split_snoc {α : Type*} {P : List α → α → Prop} {log : List α} {entry : α}
    (hlog : ∀ before x after, log = before ++ x :: after → P before x)
    (hentry : P log entry) {before : List α} {x : α} {after : List α}
    (h : log ++ [entry] = before ++ x :: after) : P before x := by
  rcases List.eq_nil_or_concat after with rfl | ⟨init, last, rfl⟩
  · obtain ⟨rfl, hx⟩ := List.append_inj' h rfl
    cases hx
    exact hentry
  · rw [List.concat_eq_append, ← List.cons_append, ← List.append_assoc] at h
    exact hlog before x init (List.append_inj' h rfl).1

/-- The same for a log that continues another one. -/
theorem forall_split_append {α : Type*} {P : List α → α → Prop} {first last : List α}
    (hfirst : ∀ before x after, first = before ++ x :: after → P before x)
    (hlast : ∀ before x after, last = before ++ x :: after → P (first ++ before) x)
    {before : List α} {x : α} {after : List α} (h : first ++ last = before ++ x :: after) :
    P before x := by
  rcases List.append_eq_append_iff.mp h with ⟨rest, rfl, hrest⟩ | ⟨rest, rfl, hrest⟩
  · exact hlast rest x after hrest
  · cases rest with
    | nil =>
        have hx := hlast [] x after hrest.symm
        rwa [List.append_nil, List.append_nil] at hx
    | cons y rest =>
        obtain ⟨rfl, -⟩ := List.cons.inj hrest
        exact hfirst before x rest rfl

end Support.Runs
