import MoonlightScarlet.Sys.Proofs.Stages
/-!
# Who calls the core

A thread calls through a handle, which exists once its connection was returned, or from
a termination callback.  What it tests under a lock stays true while it holds the lock.
-/

namespace MoonlightScarlet.Sys

open Support.Threads

variable {T : Type}

def Waker.handle : Waker → Option ConnId
  | .control c => some c
  | .termination _ => none

/-- The connection whose handle the thread uses. -/
def Pc.handle : Pc → Option ConnId
  | .call c _ _ => some c
  | .wake waker _ => waker.handle
  | _ => none

/-- What a thread has tested under a lock, while it holds the lock. -/
def Tested (s : Shared T) : Pc → Prop
  | .call c _ .core => (s.states c).active = true
  | .wake waker .wake => s.gateOpen waker = true
  | _ => True

structure Handled (s : Shared T) (pcs : T → Pc) : Prop where
  returned : ∀ c, s.connections c ≠ none → .started c ∈ s.log
  handle : ∀ t c, (pcs t).handle = some c → s.connections c ≠ none
  tested : ∀ t, Tested s (pcs t)

theorem Handled.init : Handled ({} : Shared T) fun _ => .idle where
  returned _ h := absurd rfl h
  handle _ _ := nofun
  tested _ := trivial

/-- The waker has stored its reason. -/
def Shared.Called (s : Shared T) : Waker → Prop
  | .control c => (s.states c).stopRequested = true
  | .termination c => ∃ code, .terminated c code ∈ s.log

/-- What has been called for has a cause in the shared data, and connections are numbered
before anything happens to them. -/
structure Begun (s : Shared T) (pcs : T → Pc) : Prop where
  handle : ∀ c, .returned (.control c) ∈ s.log → s.connections c ≠ none
  called : ∀ waker, .returned waker ∈ s.log ∨ (∃ t pc, pcs t = .wake waker pc) → s.Called waker
  known : ∀ c, .startBegin c ∈ s.log ∨ s.Called (.termination c) → c < s.attempts

theorem Begun.init : Begun ({} : Shared T) fun _ => .idle where
  handle _ := nofun
  called _ := nofun
  known _ := nofun

section Moves

variable {s s' : Shared T} {pcs : T → Pc} {t : T} {pc pc' : Pc}

theorem mem_log (hmove : Move t s pc s' pc') {event : Event}
    (h : event ∈ s.log) : event ∈ s'.log := by
  rcases hmove with hmove | hmove
  · cases hmove with
    | _ => first | exact h | exact List.mem_cons_of_mem _ h
  · cases hmove with
    | _ => first | exact h | exact List.mem_cons_of_mem _ h

theorem returned_step (h : Handled s pcs) (hmove : Move t s pc s' pc') (d : ConnId)
    (hd : s'.connections d ≠ none) : .started d ∈ s'.log := by
  by_cases hold : s.connections d = none
  · by_cases hstarted : pc = .start (.unlock d)
    · subst hstarted
      rcases hmove with hmove | hmove
      · cases hmove
        exact List.mem_cons_self
      · cases hmove
    · exact absurd (connections_eq_none hmove hold hstarted) hd
  · exact mem_log hmove (h.returned d hold)

/-- A connection stays active until its own `stop` deactivates it. -/
theorem active_step (hmove : Move t s pc s' pc') {d : ConnId} (hactive : (s.states d).active = true)
    (hpc : pc ≠ .stop d .deactivate) : (s'.states d).active = true := by
  rcases hmove with hmove | hmove
  · cases hmove with
    | startSucceeded c =>
        by_cases hd : d = c
        · subst hd
          simp [Shared.modifyState]
        · simpa [Shared.modifyState, Shared.record, hd] using hactive
    | stop c hobject => exact active_requestStop.trans hactive
    | deactivate c =>
        have hd : d ≠ c := by
          rintro rfl
          exact hpc rfl
        simpa [Shared.modifyState, hd] using hactive
    | _ => exact hactive
  · cases hmove with
    | requestStop c hobject => exact active_requestStop.trans hactive
    | _ => exact hactive

/-- The gate closes only under the wake lock. -/
theorem gateOpen_step (hmove : Move t s pc s' pc') {waker : Waker}
    (hopen : s.gateOpen waker = true) (hpc : ¬pc.HoldsWake) : s'.gateOpen waker = true := by
  cases waker with
  | control c => exact active_step hmove hopen (by rintro rfl; exact hpc trivial)
  | termination c =>
      rcases hmove with hmove | hmove
      · cases hmove with
        | unregister d => exact absurd trivial hpc
        | register d => rfl
        | _ => exact hopen
      · cases hmove with
        | _ => exact hopen

theorem tested_keep (hlocked : Locked s pcs) (hpc : pcs t = pc) (hmove : Move t s pc s' pc') {u : T}
    (hu : u ≠ t) (h : Tested s (pcs u)) : Tested s' (pcs u) := by
  cases hold : pcs u with
  | call c call upc =>
      rw [hold] at h
      cases upc with
      | core =>
          apply active_step hmove h
          rintro rfl
          exact hu (hlocked.core.unique (hold ▸ trivial) (hpc ▸ trivial))
      | _ => trivial
  | wake waker upc =>
      rw [hold] at h
      cases upc with
      | wake =>
          refine gateOpen_step hmove h fun hwake => ?_
          exact hu (hlocked.wake.unique (hold ▸ trivial) (hpc ▸ hwake))
      | _ => trivial
  | _ => trivial

theorem tested_new (hmove : Move t s pc s' pc') : Tested s' pc' := by
  rcases hmove with hmove | hmove
  · cases hmove with
    | _ => trivial
  · cases hmove with
    | callActive c call hactive => exact hactive
    | gateOpen waker hopen => exact hopen
    | _ => trivial

theorem handle_new (hmove : Move t s pc s' pc') {d : ConnId}
    (hd : pc'.handle = some d) : pc.handle = some d ∨ s.connections d ≠ none := by
  rcases hmove with hmove | hmove
  · cases hmove with
    | _ => cases hd
  · cases hmove with
    | callLock c call hobject hcore =>
        obtain rfl := Option.some.inj hd
        exact .inr (Option.isSome_iff_ne_none.mp hobject)
    | requestStop c hobject =>
        obtain rfl := Option.some.inj hd
        exact .inr (Option.isSome_iff_ne_none.mp hobject)
    | terminated c code hbegun => cases hd
    | _ => first | exact .inl hd | cases hd

theorem stopRequested_requestStop {c : ConnId} :
    ((s.requestStop c).states c).stopRequested = true := by
  simp [Shared.requestStop, Shared.record, Shared.modifyState]

/-- A stop request lasts: only the start of a connection creates its state. -/
theorem stopRequested_step (hmove : Move t s pc s' pc') {d : ConnId}
    (hflag : (s.states d).stopRequested = true) (hpc : pc ≠ .start (.running d)) :
    (s'.states d).stopRequested = true := by
  have hrequest : ∀ c, ((s.requestStop c).states d).stopRequested = true := fun c => by
    by_cases hd : d = c
    · subst hd
      exact stopRequested_requestStop
    · simpa [Shared.requestStop, Shared.record, Shared.modifyState, hd] using hflag
  rcases hmove with hmove | hmove
  · cases hmove with
    | startSucceeded c =>
        have hd : d ≠ c := by
          rintro rfl
          exact hpc rfl
        simpa [Shared.modifyState, Shared.record, hd] using hflag
    | stop c hobject => exact hrequest c
    | deactivate c =>
        by_cases hd : d = c
        · subst hd
          simpa [Shared.modifyState] using hflag
        · simpa [Shared.modifyState, hd] using hflag
    | _ => exact hflag
  · cases hmove with
    | requestStop c hobject => exact hrequest c
    | _ => exact hflag

theorem called_step (hmove : Move t s pc s' pc') {waker : Waker} (hcalled : s.Called waker)
    (hpc : ∀ c, waker = .control c → pc ≠ .start (.running c)) : s'.Called waker := by
  cases waker with
  | control c => exact stopRequested_step hmove hcalled (hpc c rfl)
  | termination c =>
      obtain ⟨code, hcode⟩ := hcalled
      exact ⟨code, mem_log hmove hcode⟩

theorem returned_cases (hmove : Move t s pc s' pc') {waker : Waker}
    (h : .returned waker ∈ s'.log) : .returned waker ∈ s.log ∨ pc = .wake waker .unlock := by
  rcases hmove with hmove | hmove
  · cases hmove with
    | _ => exact .inl (by simpa using h)
  · cases hmove with
    | returned w =>
        simp only [Shared.log_record, List.mem_cons, Event.returned.injEq] at h
        rcases h with rfl | h
        · exact .inr rfl
        · exact .inl h
    | _ => exact .inl (by simpa using h)

theorem wake_cases (hmove : Move t s pc s' pc') {waker : Waker}
    {wpc : WakePc} (h : pc' = .wake waker wpc) :
    (∃ old, pc = .wake waker old) ∨ wpc = .lock ∧ s'.Called waker := by
  rcases hmove with hmove | hmove
  · cases hmove with
    | _ => cases h
  · cases hmove with
    | requestStop c hobject =>
        cases h
        exact .inr ⟨rfl, stopRequested_requestStop⟩
    | terminated c code hbegun =>
        cases h
        exact .inr ⟨rfl, code, List.mem_cons_self⟩
    | wakeLock w hwake =>
        cases h
        exact .inl ⟨_, rfl⟩
    | gateOpen w hopen =>
        cases h
        exact .inl ⟨_, rfl⟩
    | gateClosed w hopen =>
        cases h
        exact .inl ⟨_, rfl⟩
    | wake w =>
        cases h
        exact .inl ⟨_, rfl⟩
    | _ => cases h

theorem attempts_le (hmove : Move t s pc s' pc') : s.attempts ≤ s'.attempts := by
  by_cases hreset : pc = .start .reset
  · subst hreset
    rcases hmove with hmove | hmove
    · cases hmove with
      | reset => exact Nat.le_succ _
    · cases hmove
  · exact Nat.le_of_eq (attempts_eq hmove hreset).symm

theorem startBegin_cases (hmove : Move t s pc s' pc') {c : ConnId}
    (h : .startBegin c ∈ s'.log) : .startBegin c ∈ s.log ∨ pc = .start (.call c) := by
  rcases hmove with hmove | hmove
  · cases hmove with
    | startBegin d =>
        simp only [Shared.log_record, List.mem_cons, Event.startBegin.injEq] at h
        rcases h with rfl | h
        · exact .inr rfl
        · exact .inl h
    | _ => exact .inl (by simpa using h)
  · cases hmove with
    | _ => exact .inl (by simpa using h)

theorem terminated_cases (hmove : Move t s pc s' pc') {c : ConnId}
    {code : Int32} (h : .terminated c code ∈ s'.log) :
    .terminated c code ∈ s.log ∨ .startBegin c ∈ s.log ∧ pc = .idle ∧
      s'.log = .terminated c code :: s.log ∧ s'.terminationError = code := by
  rcases hmove with hmove | hmove
  · cases hmove with
    | _ => exact .inl (by simpa using h)
  · cases hmove with
    | terminated d code hbegun =>
        simp only [Shared.log_record, List.mem_cons, Event.terminated.injEq] at h
        rcases h with ⟨rfl, rfl⟩ | h
        · exact .inr ⟨hbegun, rfl, rfl, rfl⟩
        · exact .inl h
    | _ => exact .inl (by simpa using h)

/-- The error code changes at a reset and in a callback. -/
theorem terminationError_cases (hmove : Move t s pc s' pc') :
    s'.terminationError = s.terminationError ∨ pc = .start .reset ∨
      pc = .idle ∧ ∃ c, s'.log = .terminated c s'.terminationError :: s.log := by
  rcases hmove with hmove | hmove
  · cases hmove with
    | reset => exact .inr (.inl rfl)
    | _ => exact .inl rfl
  · cases hmove with
    | terminated c code hbegun => exact .inr (.inr ⟨rfl, c, rfl⟩)
    | _ => exact .inl rfl

/-- A handle keeps the state of its connection. -/
theorem Begun.object_of_begun (h : Begun s pcs) (hhandled : Handled s pcs) {c : ConnId}
    (hc : .returned (.control c) ∈ s.log ∨ ∃ t pc, pcs t = .wake (.control c) pc) :
    s.connections c ≠ none := by
  rcases hc with hreturned | ⟨u, wpc, hu⟩
  · exact h.handle c hreturned
  · exact hhandled.handle u c (hu ▸ rfl)

theorem Begun.handle_step (h : Begun s pcs) (hhandled : Handled s pcs) (hpc : pcs t = pc)
    (hmove : Move t s pc s' pc') (c : ConnId)
    (hc : .returned (.control c) ∈ s'.log) : s'.connections c ≠ none := by
  apply connections_ne_none hmove
  rcases returned_cases hmove hc with hold | rfl
  · exact h.handle c hold
  · exact hhandled.handle t c (hpc ▸ rfl)

theorem Begun.known_step (h : Begun s pcs) (hlocked : Locked s pcs) (hpc : pcs t = pc)
    (hmove : Move t s pc s' pc') (c : ConnId)
    (hc : .startBegin c ∈ s'.log ∨ s'.Called (.termination c)) : c < s'.attempts := by
  refine Nat.lt_of_lt_of_le ?_ (attempts_le hmove)
  rcases hc with hbegin | ⟨code, hcode⟩
  · rcases startBegin_cases hmove hbegin with hold | rfl
    · exact h.known c (.inl hold)
    · rw [← (hlocked.starting t c (hpc ▸ rfl)).2]
      exact Nat.lt_succ_self c
  · rcases terminated_cases hmove hcode with hold | ⟨hbegun, -⟩
    · exact h.known c (.inr ⟨code, hold⟩)
    · exact h.known c (.inl hbegun)

end Moves

section Steps

variable [DecidableEq T] {s s' : Shared T} {pcs : T → Pc} {t : T} {pc pc' : Pc}

theorem Handled.step (h : Handled s pcs) (hlocked : Locked s pcs) (hpc : pcs t = pc)
    (hmove : Move t s pc s' pc') : Handled s' (Function.update pcs t pc') := by
  refine ⟨returned_step h hmove, fun u d hd => connections_ne_none hmove ?_, fun u => ?_⟩
  · by_cases hu : u = t
    · subst hu
      rw [Function.update_self] at hd
      exact (handle_new hmove hd).elim (fun hold => h.handle u d (hpc ▸ hold)) id
    · rw [Function.update_of_ne hu] at hd
      exact h.handle u d hd
  · by_cases hu : u = t
    · subst hu
      rw [Function.update_self]
      exact tested_new hmove
    · rw [Function.update_of_ne hu]
      exact tested_keep hlocked hpc hmove hu (h.tested u)

theorem Begun.called_step (h : Begun s pcs) (hhandled : Handled s pcs) (hlocked : Locked s pcs)
    (hpc : pcs t = pc) (hmove : Move t s pc s' pc') (waker : Waker)
    (hw : .returned waker ∈ s'.log ∨
      ∃ u wpc, Function.update pcs t pc' u = .wake waker wpc) : s'.Called waker := by
  have hkeep : (.returned waker ∈ s.log ∨ ∃ u wpc, pcs u = .wake waker wpc) → s'.Called waker := by
    refine fun hold => Sys.called_step hmove (h.called waker hold) ?_
    rintro c rfl rfl
    -- The state of a connection without a handle is created here.
    exact h.object_of_begun hhandled hold (hlocked.starting t c (hpc ▸ rfl)).1
  rcases hw with hreturned | ⟨u, wpc, hu⟩
  · rcases returned_cases hmove hreturned with hold | rfl
    · exact hkeep (.inl hold)
    · exact hkeep (.inr ⟨t, _, hpc⟩)
  · by_cases hut : u = t
    · rw [hut, Function.update_self] at hu
      rcases wake_cases hmove hu with ⟨old, rfl⟩ | ⟨-, hcalled⟩
      · exact hkeep (.inr ⟨t, old, hpc⟩)
      · exact hcalled
    · rw [Function.update_of_ne hut] at hu
      exact hkeep (.inr ⟨u, wpc, hu⟩)

theorem Begun.step (h : Begun s pcs) (hhandled : Handled s pcs) (hlocked : Locked s pcs)
    (hpc : pcs t = pc) (hmove : Move t s pc s' pc') : Begun s' (Function.update pcs t pc') where
  handle := h.handle_step hhandled hpc hmove
  called := h.called_step hhandled hlocked hpc hmove
  known := h.known_step hlocked hpc hmove

end Steps

end MoonlightScarlet.Sys
