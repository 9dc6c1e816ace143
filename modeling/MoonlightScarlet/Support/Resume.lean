import MoonlightScarlet.Support.Fallible
/-!
# Passes that can be cut off and taken up again

A task looks at the state and names a packet that is still due, with the state
that its acceptance leaves.  A pass asks each task once, in order.  When no later
packet makes an earlier task due again, a pass that was cut off anywhere is
continued exactly by a whole new pass.
-/

namespace Support.Resume

variable {σ π ε : Type*}

/-- The packet that is due in a state, if one is, and the state after it. -/
abbrev Task (σ π : Type*) := σ → Option (π × σ)

/-- The packets of a pass in which every one is accepted, each with the state
after it. -/
def duePackets : List (Task σ π) → σ → List (π × σ)
  | [], _ => []
  | task :: tasks, s =>
      match task s with
      | none => duePackets tasks s
      | some (packet, next) => (packet, next) :: duePackets tasks next

/-- The state after the accepted packets. -/
def after (s : σ) (accepted : List (π × σ)) : σ :=
  accepted.foldl (fun _ entry => entry.2) s

/-- What a sender takes of the packets that are due: the calls are numbered and
the first refusal ends the pass. -/
def offer (send : Nat → π → Except ε Unit) : Nat → List (π × σ) → List (π × σ) × Except ε Unit
  | _, [] => ([], .ok ())
  | n, entry :: due =>
      match send n entry.1 with
      | .ok () => (entry :: (offer send (n + 1) due).1, (offer send (n + 1) due).2)
      | .error e => ([], .error e)

/-- A packet of `later` does not make `task` due again. -/
def Keeps (task later : Task σ π) : Prop :=
  ∀ s packet next, task s = none → later s = some (packet, next) → task next = none

/-- A task is not due again right after its own packet. -/
def Settles (task : Task σ π) : Prop :=
  ∀ s packet next, task s = some (packet, next) → task next = none

@[simp] theorem after_nil (s : σ) : after s ([] : List (π × σ)) = s := rfl

@[simp] theorem after_append (s : σ) (xs ys : List (π × σ)) :
    after s (xs ++ ys) = after (after s xs) ys := List.foldl_append

theorem duePackets_cons_none {task : Task σ π} {s : σ} (h : task s = none)
    (tasks : List (Task σ π)) : duePackets (task :: tasks) s = duePackets tasks s := by
  rw [duePackets, h]

theorem duePackets_cons_some {task : Task σ π} {s next : σ} {packet : π}
    (h : task s = some (packet, next)) (tasks : List (Task σ π)) :
    duePackets (task :: tasks) s = (packet, next) :: duePackets tasks next := by
  rw [duePackets, h]

theorem duePackets_append (xs ys : List (Task σ π)) (s : σ) :
    duePackets (xs ++ ys) s = duePackets xs s ++ duePackets ys (after s (duePackets xs s)) := by
  induction xs generalizing s with
  | nil => rfl
  | cons task tasks ih =>
      rw [List.cons_append]
      cases h : task s with
      | none => rw [duePackets_cons_none h, duePackets_cons_none h, ih]
      | some entry => rw [duePackets_cons_some h, duePackets_cons_some h, ih]; rfl

/-! ## Senders -/

theorem offer_append (send : Nat → π → Except ε Unit) (n : Nat) (xs ys : List (π × σ)) :
    offer send n (xs ++ ys) =
      match (offer send n xs).2 with
      | .ok () => (xs ++ (offer send (n + xs.length) ys).1, (offer send (n + xs.length) ys).2)
      | .error e => ((offer send n xs).1, .error e) := by
  induction xs generalizing n with
  | nil => rfl
  | cons entry xs ih =>
      rw [List.cons_append]
      cases hsend : send n entry.1 with
      | error e => simp only [offer, hsend]
      | ok =>
          simp only [offer, hsend, ih (n + 1)]
          rw [List.length_cons, show n + 1 + xs.length = n + (xs.length + 1) by omega]
          cases (offer send (n + 1) xs).2 <;> rfl

theorem offer_ok {send : Nat → π → Except ε Unit} {n : Nat} {due : List (π × σ)}
    (h : (offer send n due).2 = .ok ()) : (offer send n due).1 = due := by
  induction due generalizing n with
  | nil => rfl
  | cons entry due ih =>
      cases hsend : send n entry.1 with
      | error e => simp [offer, hsend] at h
      | ok =>
          simp only [offer, hsend] at h ⊢
          rw [ih h]

/-- What was accepted is the beginning of what was due. -/
theorem offer_prefix (send : Nat → π → Except ε Unit) (n : Nat) (due : List (π × σ)) :
    (offer send n due).1 <+: due := by
  induction due generalizing n with
  | nil => exact List.nil_prefix
  | cons entry due ih =>
      cases hsend : send n entry.1 with
      | error e =>
          simp only [offer, hsend]
          exact List.nil_prefix
      | ok =>
          simp only [offer, hsend]
          exact (List.prefix_cons_inj entry).mpr (ih (n + 1))

/-- A sender that takes everything. -/
theorem offer_all {send : Nat → π → Except ε Unit} (h : ∀ n packet, send n packet = .ok ())
    (n : Nat) (due : List (π × σ)) : offer send n due = (due, .ok ()) := by
  induction due generalizing n with
  | nil => rfl
  | cons entry due ih => simp only [offer, h, ih]

/-- A sender that takes the first `k` packets and no more. -/
theorem offer_first {send : Nat → π → Except ε Unit} {k : Nat} {e : ε}
    (hok : ∀ n packet, n < k → send n packet = .ok ())
    (herror : ∀ packet, send k packet = .error e) {n : Nat} (hn : n ≤ k) (due : List (π × σ)) :
    offer send n due =
      (due.take (k - n), if k - n < due.length then .error e else .ok ()) := by
  induction due generalizing n with
  | nil => simp [offer]
  | cons entry due ih =>
      rcases Nat.lt_or_ge n k with hlt | hge
      · have hnext : k - n = k - (n + 1) + 1 := by omega
        simp only [offer, hok n entry.1 hlt, ih (by omega : n + 1 ≤ k)]
        rw [hnext, List.take_succ_cons, List.length_cons]
        simp only [Nat.add_lt_add_iff_right]
      · obtain rfl : n = k := by omega
        simp [offer, herror]

/-! ## Taking a pass up again -/

/-- What is settled before the rest of a pass stays settled in all of it. -/
theorem settled_after {task : Task σ π} {tasks : List (Task σ π)}
    (hkeeps : ∀ later ∈ tasks, Keeps task later) {s : σ} (hs : task s = none)
    {first rest : List (π × σ)} (h : duePackets tasks s = first ++ rest) :
    task (after s first) = none := by
  induction tasks generalizing s first with
  | nil =>
      obtain ⟨rfl, -⟩ := List.append_eq_nil_iff.mp h.symm
      exact hs
  | cons later tasks ih =>
      have hrest : ∀ later ∈ tasks, Keeps task later :=
        fun later hlater => hkeeps later (List.mem_cons_of_mem _ hlater)
      cases hdue : later s with
      | none =>
          rw [duePackets_cons_none hdue] at h
          exact ih hrest hs h
      | some entry =>
          rw [duePackets_cons_some hdue] at h
          cases first with
          | nil => exact hs
          | cons entry' first =>
              rw [List.cons_append, List.cons.injEq] at h
              obtain ⟨rfl, h⟩ := h
              exact ih hrest (hkeeps later (List.mem_cons_self ..) s _ _ hs hdue) h

/-- A new pass after the packets in `first` consists of exactly the packets that
were left. -/
theorem duePackets_resume {tasks : List (Task σ π)} (hkeeps : tasks.Pairwise Keeps)
    (hsettles : ∀ task ∈ tasks, Settles task) {s : σ} {first rest : List (π × σ)}
    (h : duePackets tasks s = first ++ rest) : duePackets tasks (after s first) = rest := by
  induction tasks generalizing s first with
  | nil => exact (List.append_eq_nil_iff.mp h.symm).2.symm
  | cons task tasks ih =>
      obtain ⟨hhead, htail⟩ := List.pairwise_cons.mp hkeeps
      have ih := @ih htail fun later hlater => hsettles later (List.mem_cons_of_mem _ hlater)
      -- Once the first task is settled, both passes skip it.
      have hskip {t : σ} {first : List (π × σ)} (ht : task t = none)
          (h : duePackets tasks t = first ++ rest) :
          duePackets (task :: tasks) (after t first) = rest := by
        rw [duePackets_cons_none (settled_after hhead ht h)]
        exact ih h
      cases hdue : task s with
      | none =>
          rw [duePackets_cons_none hdue] at h
          exact hskip hdue h
      | some entry =>
          rw [duePackets_cons_some hdue] at h
          cases first with
          | nil =>
              rw [after_nil, duePackets_cons_some hdue]
              exact h
          | cons entry' first =>
              rw [List.cons_append, List.cons.injEq] at h
              obtain ⟨rfl, h⟩ := h
              exact hskip (t := entry.2) (hsettles task (List.mem_cons_self ..) s _ _ hdue) h

end Support.Resume
