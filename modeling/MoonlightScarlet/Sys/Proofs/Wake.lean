import MoonlightScarlet.Sys.Proofs.Windows
/-!
# No missed wake

A waker stores its reason before it tries the gate, and a worker tests for the reason
before it waits.  So whoever finishes behind the worker's tests has found the gate open,
and the wake stays in the queue until the worker takes it.
-/

namespace MoonlightScarlet.Sys

open Support.Runs Support.Threads

variable {T : Type}

/-- The worker waits and has not seen the reason of the waker. -/
def Pc.Checked (waker : Waker) : Pc → Prop
  | .wait c .termination => waker = .control c
  | .wait c .frame => waker = .control c ∨ waker = .termination c
  | _ => False

/-- The waker is past its call of the core, made or not. -/
def Finished (s : Shared T) (pcs : T → Pc) (waker : Waker) : Prop :=
  .returned waker ∈ s.log ∨ ∃ t, pcs t = .wake waker .unlock

/-- The connection is neither being started nor alive. -/
def Gone (s : Shared T) (pcs : T → Pc) (c : ConnId) : Prop :=
  ¬s.Live c ∧ ∀ t, (pcs t).starting ≠ some c

/-- A callback may report the code that stands for no error only when nobody can take it for
the report of the newest connection. -/
def Harmless (s : Shared T) (pcs : T → Pc) (c : ConnId) : Prop :=
  ∀ d, d + 1 = s.attempts → Gone s pcs d ∨ d ≠ c ∧ ¬s.Called (.termination d)

structure Woken (s : Shared T) (pcs : T → Pc) : Prop where
  reported : ∀ c, c + 1 = s.attempts → s.Called (.termination c) →
    s.terminationError ≠ noReportedError ∨ Gone s pcs c
  pending : ∀ t waker, (pcs t).Checked waker → Finished s pcs waker → s.queue.woken = true

theorem Woken.init : Woken ({} : Shared T) fun _ => .idle where
  reported _ := nofun
  pending _ _ := nofun

section Moves

variable {s s' : Shared T} {pcs : T → Pc} {t : T} {pc pc' : Pc}

/-- A waker comes to its end by a closed gate or by a wake. -/
theorem unlock_cases (hmove : Move t s pc s' pc') {waker : Waker}
    (h : pc' = .wake waker .unlock) : s.gateOpen waker = false ∨ s'.queue.woken = true := by
  rcases hmove with hmove | hmove
  · cases hmove with
    | _ => cases h
  · cases hmove with
    | gateClosed w hopen =>
        cases h
        exact .inl hopen
    | wake w => exact .inr rfl
    | _ => cases h

/-- A gate that a worker waits behind is open. -/
theorem gateOpen_of_checked (hstaged : Staged s pcs) {u : T} {waker : Waker}
    (h : (pcs u).Checked waker) : s.gateOpen waker = true := by
  cases hu : pcs u with
  | wait c wpc =>
      have hfacts : Facts (.registered c) s := hstaged.thread u _ (hu ▸ rfl)
      have hactive : (s.states c).active = true := (hfacts.active c).mpr rfl
      have hgate : s.videoWakeState = some c := hfacts.inGate
      rw [hu] at h
      cases wpc with
      | termination =>
          cases h
          exact hactive
      | frame =>
          rcases h with rfl | rfl
          · exact hactive
          · simp [Shared.gateOpen, hgate]
  | _ =>
      rw [hu] at h
      exact h.elim

theorem stage_of_checked {waker : Waker} (h : pc.Checked waker) :
    ∃ stage, pc.stage = some stage := by
  cases pc with
  | wait c wpc => exact ⟨_, rfl⟩
  | _ => exact h.elim

/-- Only the worker takes the wake out of the queue. -/
theorem woken_use (hmove : Use t s pc s' pc') (hwoken : s.queue.woken = true)
    (hstage : pc.stage = none) : s'.queue.woken = true := by
  cases hmove with
  | woken c _ => cases hstage
  | wake waker => rfl
  | _ => exact hwoken

theorem Finished.begun {waker : Waker} (h : Finished s pcs waker) :
    .returned waker ∈ s.log ∨ ∃ t pc, pcs t = .wake waker pc :=
  h.imp id fun ⟨t, ht⟩ => ⟨t, _, ht⟩

/-- The worker goes on to wait when nobody has called yet. -/
theorem Woken.worker_step (h : Woken s pcs) (hbegun : Begun s pcs) (hlocked : Locked s pcs)
    (hpc : pcs t = pc) (hmove : Move t s pc s' pc') {waker : Waker} (hchecked : pc'.Checked waker)
    (hfinished : Finished s pcs waker) : s'.queue.woken = true := by
  have hcalled := hbegun.called waker hfinished.begun
  rcases hmove with hmove | hmove
  · cases hmove with
    | _ => exact hchecked.elim
  · cases hmove with
    | wait c hobject hstop =>
        cases hchecked
        exact absurd (hstop.symm.trans hcalled) nofun
    | waitFrame c herror =>
        rcases hchecked with rfl | rfl
        · exact h.pending t (.control c) (hpc ▸ rfl) hfinished
        · have hlive := hlocked.uses t c (hpc ▸ rfl)
          have hlatest := hlocked.latest c ((hlocked.live c).mpr hlive)
          rcases h.reported c hlatest hcalled with hne | hgone
          · exact absurd herror hne
          · exact absurd hlive hgone.1
    | _ => exact hchecked.elim

end Moves

section Steps

variable [DecidableEq T] {s s' : Shared T} {pcs : T → Pc} {t : T} {pc pc' : Pc}

theorem Gone.step (hlocked : Locked s pcs) (hpc : pcs t = pc)
    (hmove : Move t s pc s' pc') {c : ConnId} (hc : c < s.attempts)
    (h : Gone s pcs c) : Gone s' (Function.update pcs t pc') c := by
  obtain ⟨hlive, hstarting⟩ := h
  refine ⟨fun hlive' => ?_, not_starting_step hpc hmove hc hstarting⟩
  rcases live_cases hlocked hpc hmove hlive' with hold | rfl
  · exact hlive hold
  · exact hstarting t (hpc ▸ rfl)

theorem Woken.reported_step (h : Woken s pcs) (hbegun : Begun s pcs) (hlocked : Locked s pcs)
    (hpc : pcs t = pc) (hmove : Move t s pc s' pc')
    (hcode : ∀ c, pc = .idle → s'.log = .terminated c noReportedError :: s.log → Harmless s pcs c)
    (d : ConnId) (hd : d + 1 = s'.attempts) (hcalled : s'.Called (.termination d)) :
    s'.terminationError ≠ noReportedError ∨ Gone s' (Function.update pcs t pc') d := by
  by_cases herror : s'.terminationError = noReportedError
  · obtain ⟨code, hterminated⟩ := hcalled
    have hterminated := terminated_cases hmove hterminated
    have hlt : d < s.attempts := by
      rcases hterminated with hold | ⟨hbegin, -⟩
      · exact hbegun.known d (.inr ⟨code, hold⟩)
      · exact hbegun.known d (.inl hbegin)
    have hreset : pc ≠ .start .reset := by
      rintro rfl
      rcases hmove with hmove | hmove
      · cases hmove
        exact Nat.ne_of_lt hlt (Nat.succ_inj.mp hd)
      · cases hmove
    rw [attempts_eq hmove hreset] at hd
    suffices hgone : Gone s pcs d from .inr (hgone.step hlocked hpc hmove hlt)
    rcases terminationError_cases hmove with hsame | hpc' | ⟨hidle, c, hlog⟩
    · rcases hterminated with hold | ⟨-, hidle, hlog, rfl⟩
      · exact (h.reported d hd ⟨code, hold⟩).resolve_left fun hne => hne (hsame ▸ herror)
      · exact (hcode d hidle (herror ▸ hlog) d hd).resolve_right fun hother => hother.1 rfl
    · exact absurd hpc' hreset
    · refine (hcode c hidle (herror ▸ hlog) d hd).resolve_right fun hother => ?_
      rcases hterminated with hold | ⟨-, -, hlog', -⟩
      · exact hother.2 ⟨code, hold⟩
      · cases hlog.symm.trans hlog'
        exact hother.1 rfl
  · exact .inl herror

theorem finished_cases (hpc : pcs t = pc) (hmove : Move t s pc s' pc')
    {waker : Waker} (h : Finished s' (Function.update pcs t pc') waker) :
    Finished s pcs waker ∨ pc' = .wake waker .unlock := by
  rcases h with hreturned | ⟨u, hu⟩
  · rcases returned_cases hmove hreturned with hold | rfl
    · exact .inl (.inl hold)
    · exact .inl (.inr ⟨t, hpc⟩)
  · by_cases hut : u = t
    · rw [hut, Function.update_self] at hu
      exact .inr hu
    · rw [Function.update_of_ne hut] at hu
      exact .inl (.inr ⟨u, hu⟩)

theorem Woken.pending_step (h : Woken s pcs) (hbegun : Begun s pcs) (hlocked : Locked s pcs)
    (hstaged : Staged s pcs) (hpc : pcs t = pc) (hmove : Move t s pc s' pc') (u : T) (waker : Waker)
    (hchecked : (Function.update pcs t pc' u).Checked waker)
    (hfinished : Finished s' (Function.update pcs t pc') waker) : s'.queue.woken = true := by
  by_cases hut : u = t
  · rw [hut, Function.update_self] at hchecked
    rcases finished_cases hpc hmove hfinished with hold | rfl
    · exact h.worker_step hbegun hlocked hpc hmove hchecked hold
    · exact hchecked.elim
  · rw [Function.update_of_ne hut] at hchecked
    rcases finished_cases hpc hmove hfinished with hold | hunlock
    · -- The worker holds the connection, so another thread can only use it.
      obtain ⟨stage, hstage⟩ := stage_of_checked hchecked
      have hholder := holder_of_stage hlocked rfl hstage
      rcases hmove with hmove | hmove
      · exact absurd (holder_of_lifecycle hlocked hpc hmove hholder) hut
      · apply woken_use hmove (h.pending u waker hchecked hold)
        cases hnone : pc.stage with
        | none => rfl
        | some other =>
            have hother := holder_of_stage hlocked hpc hnone
            exact absurd (Option.some.inj (hholder.symm.trans hother)) hut
    · rcases unlock_cases hmove hunlock with hclosed | hwoken
      · exact nomatch hclosed.symm.trans (gateOpen_of_checked hstaged hchecked)
      · exact hwoken

theorem Woken.step (h : Woken s pcs) (hbegun : Begun s pcs) (hlocked : Locked s pcs)
    (hstaged : Staged s pcs) (hpc : pcs t = pc) (hmove : Move t s pc s' pc')
    (hcode : ∀ c, pc = .idle → s'.log = .terminated c noReportedError :: s.log → Harmless s pcs c) :
    Woken s' (Function.update pcs t pc') where
  reported := h.reported_step hbegun hlocked hpc hmove hcode
  pending := h.pending_step hbegun hlocked hstaged hpc hmove

end Steps

section Runs

variable [DecidableEq T]

/-- A worker is blocked though somebody has finished whose call should have woken it. -/
def Missed (s : System T) : Prop :=
  ∃ t c, s.pcs t = .wait c .frame ∧ s.shared.queue.frames = 0 ∧ s.shared.queue.woken = false ∧
    (.returned (.control c) ∈ s.shared.log ∨ .returned (.termination c) ∈ s.shared.log)

/-- The code that stands for no error is reported without harm. -/
def ReportsError (s : System T) (label : T × Action) : Prop :=
  ∀ c, label.2 = .terminated c noReportedError → Harmless s.shared s.pcs c

theorem woken_of_step {s s' : System T} {label : T × Action} (h : Safe s ∧ Woken s.shared s.pcs)
    (hreports : ReportsError s label) (hstep : Sys.step s label = some s') :
    Safe s' ∧ Woken s'.shared s'.pcs := by
  obtain ⟨⟨shared, pc⟩, hadvance, rfl⟩ := Option.map_eq_some_iff.mp hstep
  have hmove := advance_cases hadvance
  obtain ⟨hsafe, hwoken⟩ := h
  refine ⟨hsafe.move hmove, hwoken.step hsafe.begun hsafe.locked hsafe.staged rfl hmove ?_⟩
  intro c hidle hlog
  rw [hidle] at hadvance
  exact hreports c ((perform_cases hadvance).2 _ hlog)

/-- No worker blocks behind a finished `request_stop` or termination callback, whatever
the order of the steps, if the callbacks report an error. -/
theorem no_missed_wake {labels : List (T × Action)}
    (h : Meets Sys.step ReportsError (System.init : System T) labels) :
    Always Sys.step (fun s => ¬Missed s) (System.init : System T) labels := by
  refine Always.of_meets (fun s l t hs hl ht => woken_of_step hs hl ht) ?_ ⟨.init, .init⟩ h
  rintro s ⟨-, hwoken⟩ ⟨t, c, hpc, -, hqueue, hreturned⟩
  have hwake : s.shared.queue.woken = true := by
    rcases hreturned with hcontrol | htermination
    · exact hwoken.pending t (.control c) (hpc ▸ .inl rfl) (.inl hcontrol)
    · exact hwoken.pending t (.termination c) (hpc ▸ .inr rfl) (.inl htermination)
  exact absurd (hqueue.symm.trans hwake) nofun

end Runs

/-- The host ends the connection while `LiStartConnection` is still running; then the
worker waits. -/
def terminatedDuringStart (code : Int32) : List (Bool × Action) :=
  [(true, .start), (true, .run), (true, .run),
    (false, .terminated 0 code), (false, .run), (false, .run), (false, .run),
    (true, .startReturns true), (true, .run), (true, .run), (true, .run),
    (true, .waitForVideoFrame 0), (true, .run)]

theorem no_missed_wake_terminatedDuringStart :
    ∃ s, run Sys.step System.init (terminatedDuringStart (-100)) = some s ∧ ¬Missed s := by
  have hreports : Meets Sys.step ReportsError System.init (terminatedDuringStart (-100)) := by
    refine (Meets.of_forall (C := fun l => ∀ c, l.2 ≠ .terminated c noReportedError) ?_ _).mono
      fun s l hl c hc => absurd hc (hl c)
    simp [terminatedDuringStart, noReportedError]
  obtain ⟨s, hs⟩ := Option.isSome_iff_exists.mp
    (show (run Sys.step System.init (terminatedDuringStart (-100))).isSome = true by decide)
  exact ⟨s, hs, (no_missed_wake hreports).of_run hs⟩

/-- The code that stands for no error leaves the worker blocked. -/
theorem missed_wake_of_noReportedError :
    ¬Always Sys.step (fun s => ¬Missed s) System.init (terminatedDuringStart noReportedError) := by
  intro h
  have hsome :
      (run Sys.step System.init (terminatedDuringStart noReportedError)).isSome = true := by
    decide
  refine h.of_run (Option.some_get hsome).symm ⟨true, 0, ?_, ?_, ?_, .inr ?_⟩
  · decide +revert
  · decide +revert
  · decide +revert
  · decide +revert

end MoonlightScarlet.Sys
