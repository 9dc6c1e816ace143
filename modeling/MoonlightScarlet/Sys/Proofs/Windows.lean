import MoonlightScarlet.Sys.Proofs.Callers
import MoonlightScarlet.Support.Runs
/-!
# The windows of the core calls

Handles outlive their connection, and the core may call back at any time.  The core is
called nevertheless only while the connection allows the call.
-/

namespace MoonlightScarlet.Sys

open Support.Runs Support.Threads

variable {T : Type}

/-- When the core may be called, given what happened before. -/
def Allowed (before : List Event) : Event → Prop
  | .startBegin _ => inProgress before = none
  | .startEnd c _ => inProgress before = some (.starting c)
  | .stopBegin _ => inProgress before = none
  | .stopEnd c => inProgress before = some (.stopping c)
  | .coreCall c _ => .startEnd c true ∈ before ∧ .started c ∈ before ∧ .stopBegin c ∉ before
  | .wake (.control c) => .started c ∈ before ∧ Registered c before
  | .wake (.termination _) => ∃ c, Registered c before
  | _ => True

section Moves

variable {s s' : Shared T} {pcs : T → Pc} {t : T} {pc pc' : Pc}

/-- Some stage describes the shared data, and a connection that has a handle is past its
creation. -/
theorem exists_facts (hlocked : Locked s pcs) (hstaged : Staged s pcs) :
    ∃ stage, Facts stage s ∧ ∀ c, stage = .created c → s.connections c = none := by
  by_cases hrest : ∀ t, (pcs t).stage = none
  · refine ⟨s.rest, hstaged.rest hrest, fun c hc => ?_⟩
    unfold Shared.rest at hc
    split at hc <;> cases hc
  · obtain ⟨t, ht⟩ := not_forall.mp hrest
    obtain ⟨stage, hstage⟩ := Option.ne_none_iff_exists'.mp ht
    refine ⟨stage, hstaged.thread t stage hstage, fun c hc => ?_⟩
    subst hc
    refine (hlocked.starting t c ?_).1
    cases hpc : pcs t with
    | start pc =>
        rw [hpc] at hstage
        cases pc <;> cases hstage <;> rfl
    | stop d pc =>
        rw [hpc] at hstage
        cases pc <;> cases hstage
    | wait d pc =>
        rw [hpc] at hstage
        cases hstage
    | _ =>
        rw [hpc] at hstage
        cases hstage

/-- An active connection that has a handle is registered. -/
theorem facts_of_active (hlocked : Locked s pcs) (hstaged : Staged s pcs) {c : ConnId}
    (hactive : (s.states c).active = true) (hobject : s.connections c ≠ none) :
    Facts (.registered c) s := by
  obtain ⟨stage, hfacts, hcreated⟩ := exists_facts hlocked hstaged
  have hstage := (hfacts.active c).mp hactive
  cases stage with
  | created d =>
      obtain rfl := Option.some.inj hstage
      exact absurd (hcreated d rfl) hobject
  | registered d =>
      obtain rfl := Option.some.inj hstage
      exact hfacts
  | _ => cases hstage

theorem registered_of_inGate (hlocked : Locked s pcs) (hstaged : Staged s pcs)
    (hgate : s.videoWakeState.isSome = true) : ∃ c, Registered c s.log := by
  obtain ⟨stage, hfacts, -⟩ := exists_facts hlocked hstaged
  rw [hfacts.inGate] at hgate
  obtain ⟨c, hc⟩ := Option.isSome_iff_exists.mp hgate
  exact ⟨c, hfacts.window c hc⟩

/-- Every step calls the core in its window. -/
theorem logged_step (h : Handled s pcs) (hlocked : Locked s pcs) (hstaged : Staged s pcs)
    (hpc : pcs t = pc) (hmove : Move t s pc s' pc')
    (hlog : Logged Allowed s.log) : Logged Allowed s'.log := by
  have hrunning : ∀ {stage}, pc.stage = some stage → inProgress s.log = stage.running :=
    fun hstage => (hstaged.thread t _ (hpc ▸ hstage)).running
  have hactive : ∀ {c}, (s.states c).active = true → pc.handle = some c →
      .started c ∈ s.log ∧ Registered c s.log := fun hactive hhandle =>
    have hobject := h.handle t _ (hpc ▸ hhandle)
    ⟨h.returned _ hobject, (facts_of_active hlocked hstaged hactive hobject).window _ rfl⟩
  have htested := hpc ▸ h.tested t
  rcases hmove with hmove | hmove
  · cases hmove with
    | startBegin c => exact ⟨hrunning rfl, hlog⟩
    | startFailed c => exact ⟨hrunning rfl, hlog⟩
    | startSucceeded c => exact ⟨hrunning rfl, hlog⟩
    | stopBegin c => exact ⟨hrunning rfl, hlog⟩
    | stopEnd c => exact ⟨hrunning rfl, hlog⟩
    | _ => first | exact hlog | exact ⟨trivial, hlog⟩
  · cases hmove with
    | coreCall c call =>
        obtain ⟨hstarted, hregistered⟩ := hactive htested rfl
        exact ⟨⟨hregistered.begun, hstarted, hregistered.notStopped⟩, hlog⟩
    | wake waker =>
        cases waker with
        | control c => exact ⟨hactive htested rfl, hlog⟩
        | termination c =>
            have hregistered := registered_of_inGate hlocked hstaged htested
            exact ⟨hregistered, hlog⟩
    | _ => first | exact hlog | exact ⟨trivial, hlog⟩

end Moves

/-- The invariant of all runs. -/
structure Safe (s : System T) : Prop where
  locked : Locked s.shared s.pcs
  staged : Staged s.shared s.pcs
  handled : Handled s.shared s.pcs
  begun : Begun s.shared s.pcs
  logged : Logged Allowed s.shared.log

theorem Safe.init : Safe (System.init : System T) := ⟨.init, .init, .init, .init, trivial⟩

section Runs

variable [DecidableEq T]

theorem Safe.move {s : System T} {t : T} {shared : Shared T} {pc : Pc} (h : Safe s)
    (hmove : Move t s.shared (s.pcs t) shared pc) : Safe ⟨shared, Function.update s.pcs t pc⟩ where
  locked := h.locked.step rfl hmove
  staged := h.staged.step h.locked rfl hmove
  handled := h.handled.step h.locked rfl hmove
  begun := h.begun.step h.handled h.locked rfl hmove
  logged := logged_step h.handled h.locked h.staged rfl hmove h.logged

theorem Safe.step {s s' : System T} {label : T × Action} (h : Safe s)
    (hstep : Sys.step s label = some s') : Safe s' :=
  step_preserves (fun _ _ _ _ _ h hadvance => h.move (advance_cases hadvance)) h hstep

/-- Over every interleaving of any number of threads, every call of the core is made in
its window. -/
theorem core_call_windows (labels : List (T × Action)) :
    Always Sys.step (fun s : System T => Logged Allowed s.shared.log) System.init labels :=
  Always.of_invariant (fun _ _ _ hs hstep => Safe.step hs hstep) (fun _ hs => hs.logged) Safe.init
    labels

end Runs

end MoonlightScarlet.Sys
