import MoonlightScarlet.Sys.Proofs.Windows
/-!
# Isolation of the connections

The error code and the registration belong to the process.  They speak of the newest
connection as long as no callback of an earlier one arrives behind the next reset, and no
error is read of a connection behind the reset of the next.
-/

namespace MoonlightScarlet.Sys

open Support.Runs Support.Threads

variable {T : Type}

/-- The connection has a reason of its own to end. -/
def Caused (c : ConnId) (log : List Event) : Prop :=
  .stopRequested c ∈ log ∨ ∃ code, .terminated c code ∈ log

/-- What a connection reports is its own. -/
def Isolated (before : List Event) : Event → Prop
  | .readError c (some _) => ∃ code, .terminated c code ∈ before
  | .waitNone c => Caused c before
  | _ => True

/-- The connection was not returned and will not be. -/
def Failed (s : Shared T) (pcs : T → Pc) (c : ConnId) : Prop :=
  s.connections c = none ∧ ∀ t, (pcs t).starting ≠ some c

/-- The queue is new and its connection not yet registered. -/
def Pc.Fresh : Pc → Prop
  | .start (.running _) => True
  | .start (.lock _) => True
  | .start (.register _) => True
  | _ => False

structure Apart (s : Shared T) (pcs : T → Pc) : Prop where
  flag : ∀ c, (s.states c).stopRequested = true → .stopRequested c ∈ s.log
  stopping : ∀ t c pc, pcs t = .stop c pc → .stopRequested c ∈ s.log
  stopped : ∀ c, s.connections c ≠ none → ¬s.Live c → .stopRequested c ∈ s.log
  error : ∀ c, c + 1 = s.attempts → s.terminationError ≠ noReportedError →
    s.Called (.termination c) ∨ Failed s pcs c
  fresh : ∀ t, (pcs t).Fresh → s.queue.woken = false
  woken : s.queue.woken = true → ∀ c, s.videoWakeState = some c → Caused c s.log

theorem Apart.init : Apart ({} : Shared T) fun _ => .idle where
  flag _ := nofun
  stopping _ _ _ := nofun
  stopped _ h := absurd rfl h
  error _ := nofun
  fresh _ := nofun
  woken := nofun

section Moves

variable {s s' : Shared T} {pcs : T → Pc} {t : T} {pc pc' : Pc}

theorem Caused.step {c : ConnId} (h : Caused c s.log)
    (hmove : Move t s pc s' pc') : Caused c s'.log :=
  h.imp (mem_log hmove) fun ⟨code, hcode⟩ => ⟨code, mem_log hmove hcode⟩

theorem flag_cases (hmove : Move t s pc s' pc') {d : ConnId}
    (h : (s'.states d).stopRequested = true) :
    (s.states d).stopRequested = true ∨ .stopRequested d ∈ s'.log := by
  have hrequest : ∀ c, ((s.requestStop c).states d).stopRequested = true →
      (s.states d).stopRequested = true ∨ .stopRequested d ∈ (s.requestStop c).log := by
    intro c hflag
    by_cases hd : d = c
    · subst hd
      exact .inr List.mem_cons_self
    · exact .inl (by simpa [Shared.requestStop, Shared.record, Shared.modifyState, hd] using hflag)
  rcases hmove with hmove | hmove
  · cases hmove with
    | startSucceeded c =>
        by_cases hd : d = c
        · subst hd
          simp [Shared.modifyState] at h
        · exact .inl (by simpa [Shared.modifyState, Shared.record, hd] using h)
    | stop c hobject => exact hrequest c h
    | deactivate c =>
        by_cases hd : d = c
        · subst hd
          exact .inl (by simpa [Shared.modifyState] using h)
        · exact .inl (by simpa [Shared.modifyState, hd] using h)
    | _ => exact .inl h
  · cases hmove with
    | requestStop c hobject => exact hrequest c h
    | _ => exact .inl h

theorem stop_cases (hmove : Move t s pc s' pc') {c : ConnId}
    {spc : StopPc} (h : pc' = .stop c spc) :
    (∃ old, pc = .stop c old) ∨ .stopRequested c ∈ s'.log := by
  rcases hmove with hmove | hmove
  · cases hmove with
    | stop d hobject =>
        cases h
        exact .inr List.mem_cons_self
    | claim hfree => cases h
    | reset => cases h
    | startBegin d => cases h
    | startFailed d => cases h
    | startSucceeded d => cases h
    | giveUp => cases h
    | startLock d hwake => cases h
    | register d => cases h
    | started d => cases h
    | _ =>
        cases h
        exact .inl ⟨_, rfl⟩
  · cases hmove with
    | _ => cases h

/-- The gate of a callback or of a handle is open for the registered connection. -/
theorem gate_of_wake (hlocked : Locked s pcs) (hstaged : Staged s pcs) (hhandled : Handled s pcs)
    {u : T} {waker : Waker} (hu : pcs u = .wake waker .wake) :
    ∃ c, s.videoWakeState = some c ∧ ∀ d, waker = .control d → d = c := by
  have hopen : s.gateOpen waker = true := by simpa [Tested, hu] using hhandled.tested u
  cases waker with
  | control d =>
      have hobject := hhandled.handle u d (hu ▸ rfl)
      refine ⟨d, (facts_of_active hlocked hstaged hopen hobject).inGate, ?_⟩
      rintro c ⟨⟩
      rfl
  | termination b =>
      obtain ⟨c, hc⟩ := Option.isSome_iff_exists.mp hopen
      exact ⟨c, hc, nofun⟩

theorem woken_cases (hmove : Move t s pc s' pc')
    (h : s'.queue.woken = true) : s.queue.woken = true ∨ ∃ waker, pc = .wake waker .wake := by
  rcases hmove with hmove | hmove
  · cases hmove with
    | startBegin c => cases h
    | _ => exact .inl h
  · cases hmove with
    | wake waker => exact .inr ⟨waker, rfl⟩
    | woken c hwoken => exact .inl hwoken
    | _ => exact .inl h

theorem inGate_cases (hmove : Move t s pc s' pc') {c : ConnId} (h : s'.videoWakeState = some c) :
    s.videoWakeState = some c ∨ pc = .start (.register c) ∧ s'.queue = s.queue := by
  rcases hmove with hmove | hmove
  · cases hmove with
    | register d =>
        cases h
        exact .inr ⟨rfl, rfl⟩
    | unregister d => cases h
    | _ => exact .inl h
  · cases hmove with
    | _ => exact .inl h

theorem fresh_cases (hmove : Move t s pc s' pc') (h : pc'.Fresh) :
    s'.queue.woken = false ∨ pc.Fresh ∧ s'.queue = s.queue := by
  rcases hmove with hmove | hmove
  · cases hmove with
    | startBegin c => exact .inl rfl
    | startSucceeded c => exact .inr ⟨trivial, rfl⟩
    | startLock c hwake => exact .inr ⟨trivial, rfl⟩
    | _ => exact h.elim
  · cases hmove with
    | _ => exact h.elim

/-- No connection is registered while another one is started. -/
theorem inGate_of_fresh (hstaged : Staged s pcs) {u : T} (h : (pcs u).Fresh) :
    s.videoWakeState = none := by
  cases hu : pcs u with
  | start upc =>
      rw [hu] at h
      cases upc with
      | running c => exact (hstaged.thread u (.starting c) (hu ▸ rfl)).inGate
      | lock c => exact (hstaged.thread u (.created c) (hu ▸ rfl)).inGate
      | register c => exact (hstaged.thread u (.created c) (hu ▸ rfl)).inGate
      | _ => exact h.elim
  | _ =>
      rw [hu] at h
      exact h.elim

theorem Apart.flag_step (h : Apart s pcs) (hmove : Move t s pc s' pc')
    (c : ConnId) (hflag : (s'.states c).stopRequested = true) : .stopRequested c ∈ s'.log :=
  (flag_cases hmove hflag).elim (fun hold => mem_log hmove (h.flag c hold)) id

theorem Apart.stopped_step (h : Apart s pcs) (hlocked : Locked s pcs) (hpc : pcs t = pc)
    (hmove : Move t s pc s' pc') (c : ConnId)
    (hobject : s'.connections c ≠ none) (hdead : ¬s'.Live c) : .stopRequested c ∈ s'.log := by
  apply mem_log hmove
  by_cases hlive : s.Live c
  · by_cases hrelease : pc = .stop c .release
    · exact h.stopping t c .release (hpc.trans hrelease)
    · exact absurd (live_of_uses hlocked hpc hmove hlive hrelease) hdead
  · refine h.stopped c (fun hnone => ?_) hlive
    by_cases hunlock : pc = .start (.unlock c)
    · subst hunlock
      rcases hmove with hmove | hmove
      · cases hmove
        exact hdead ⟨{}, by simp [Shared.record], rfl⟩
      · cases hmove
    · exact hobject (connections_eq_none hmove hnone hunlock)

theorem Apart.fresh_old (h : Apart s pcs) (hlocked : Locked s pcs) (hstaged : Staged s pcs)
    (hhandled : Handled s pcs) (hpc : pcs t = pc) (hmove : Move t s pc s' pc') {u : T}
    (hu : (pcs u).Fresh) : s'.queue.woken = false := by
  cases hwoken : s'.queue.woken with
  | false => rfl
  | true =>
      rcases woken_cases hmove hwoken with hold | ⟨waker, rfl⟩
      · exact nomatch (h.fresh u hu).symm.trans hold
      · obtain ⟨c, hc, -⟩ := gate_of_wake hlocked hstaged hhandled hpc
        exact nomatch (inGate_of_fresh hstaged hu).symm.trans hc

/-- A wake is meant for the registered connection. -/
theorem Apart.woken_step (h : Apart s pcs) (hlocked : Locked s pcs) (hstaged : Staged s pcs)
    (hhandled : Handled s pcs) (hbegun : Begun s pcs) (hpc : pcs t = pc)
    (hmove : Move t s pc s' pc')
    (hwake : ∀ b c, pc = .wake (.termination b) .wake → s.videoWakeState = some c →
      c = b ∨ Caused c s.log)
    (hwoken : s'.queue.woken = true) (c : ConnId) (hc : s'.videoWakeState = some c) :
    Caused c s'.log := by
  rcases inGate_cases hmove hc with hgate | ⟨rfl, hqueue⟩
  · refine Caused.step ?_ hmove
    rcases woken_cases hmove hwoken with hold | ⟨waker, rfl⟩
    · exact h.woken hold c hgate
    · have hcalled := hbegun.called waker (.inr ⟨t, _, hpc⟩)
      cases waker with
      | control d =>
          obtain ⟨e, he, hd⟩ := gate_of_wake hlocked hstaged hhandled hpc
          obtain rfl := Option.some.inj (hgate.symm.trans he)
          obtain rfl := hd d rfl
          exact .inl (h.flag d hcalled)
      | termination b =>
          rcases hwake b c rfl hgate with rfl | hcaused
          · exact .inr hcalled
          · exact hcaused
  · have hfresh := h.fresh t (hpc ▸ trivial)
    rw [hqueue, hfresh] at hwoken
    cases hwoken

theorem reportedError_eq_some {value error : Int32} (h : reportedError value = some error) :
    value ≠ noReportedError := by
  rintro rfl
  simp [reportedError] at h

/-- The error code and the wake that a step observes belong to its connection. -/
theorem Apart.logged_step (h : Apart s pcs) (hlocked : Locked s pcs) (hstaged : Staged s pcs)
    (hpc : pcs t = pc) (hmove : Move t s pc s' pc')
    (hread : ∀ c error, pc = .idle → s'.log = .readError c error :: s.log →
      c + 1 = s.attempts ∨ s.Called (.termination c))
    (hlog : Logged Isolated s.log) : Logged Isolated s'.log := by
  rcases hmove with hmove | hmove
  · cases hmove with
    | _ => first | exact hlog | exact ⟨trivial, hlog⟩
  · cases hmove with
    | readError c hobject =>
        refine ⟨?_, hlog⟩
        cases herror : reportedError s.terminationError with
        | none => trivial
        | some error =>
            rcases hread c _ rfl rfl with hlatest | hcalled
            · have hreported := h.error c hlatest (reportedError_eq_some herror)
              refine hreported.resolve_right fun hfailed => ?_
              exact Option.isSome_iff_ne_none.mp hobject hfailed.1
            · exact hcalled
    | waitStopped c object hobject hstop =>
        refine ⟨.inl ?_, hlog⟩
        rcases hstop with hstopped | hflag
        · apply h.stopped c (by simp [hobject])
          rintro ⟨other, hother, hrunning⟩
          obtain rfl := Option.some.inj (hobject.symm.trans hother)
          exact nomatch hstopped.symm.trans hrunning
        · exact h.flag c hflag
    | waitTerminated c herror =>
        have hlive := hlocked.uses t c (hpc ▸ rfl)
        have hlatest := hlocked.latest c ((hlocked.live c).mpr hlive)
        refine ⟨.inr ((h.error c hlatest herror).resolve_right fun hfailed => ?_), hlog⟩
        obtain ⟨object, hobject, -⟩ := hlive
        exact nomatch hobject.symm.trans hfailed.1
    | woken c hwoken =>
        have hgate : s.videoWakeState = some c :=
          (hstaged.thread t (.registered c) (hpc ▸ rfl)).inGate
        exact ⟨h.woken hwoken c hgate, hlog⟩
    | _ => first | exact hlog | exact ⟨trivial, hlog⟩

end Moves

section Steps

variable [DecidableEq T] {s s' : Shared T} {pcs : T → Pc} {t : T} {pc pc' : Pc}

theorem Failed.step (hpc : pcs t = pc) (hmove : Move t s pc s' pc') {c : ConnId}
    (hc : c < s.attempts) (h : Failed s pcs c) : Failed s' (Function.update pcs t pc') c := by
  obtain ⟨hnone, hstarting⟩ := h
  refine ⟨connections_eq_none hmove hnone ?_, not_starting_step hpc hmove hc hstarting⟩
  rintro rfl
  exact hstarting t (hpc ▸ rfl)

theorem Apart.stopping_step (h : Apart s pcs) (hpc : pcs t = pc)
    (hmove : Move t s pc s' pc') (u : T) (c : ConnId) (spc : StopPc)
    (hu : Function.update pcs t pc' u = .stop c spc) : .stopRequested c ∈ s'.log := by
  by_cases hut : u = t
  · rw [hut, Function.update_self] at hu
    rcases stop_cases hmove hu with ⟨old, rfl⟩ | hnew
    · exact mem_log hmove (h.stopping t c old hpc)
    · exact hnew
  · rw [Function.update_of_ne hut] at hu
    exact mem_log hmove (h.stopping u c spc hu)

theorem Apart.fresh_step (h : Apart s pcs) (hlocked : Locked s pcs) (hstaged : Staged s pcs)
    (hhandled : Handled s pcs) (hpc : pcs t = pc) (hmove : Move t s pc s' pc') (u : T)
    (hu : (Function.update pcs t pc' u).Fresh) : s'.queue.woken = false := by
  by_cases hut : u = t
  · rw [hut, Function.update_self] at hu
    rcases fresh_cases hmove hu with hnew | ⟨hold, hqueue⟩
    · exact hnew
    · rw [hqueue]
      exact h.fresh t (hpc ▸ hold)
  · rw [Function.update_of_ne hut] at hu
    exact h.fresh_old hlocked hstaged hhandled hpc hmove hu

/-- The newest connection knows why the error code is set. -/
theorem Apart.error_step (h : Apart s pcs) (hpc : pcs t = pc)
    (hmove : Move t s pc s' pc')
    (hcode : ∀ b code, pc = .idle → s'.log = .terminated b code :: s.log →
      code ≠ noReportedError → ∀ d, d + 1 = s.attempts →
        d = b ∨ s.Called (.termination d) ∨ Failed s pcs d)
    (c : ConnId) (hc : c + 1 = s'.attempts) (herror : s'.terminationError ≠ noReportedError) :
    s'.Called (.termination c) ∨ Failed s' (Function.update pcs t pc') c := by
  have hreset : pc ≠ .start .reset := by
    rintro rfl
    rcases hmove with hmove | hmove
    · cases hmove
      exact herror rfl
    · cases hmove
  rw [attempts_eq hmove hreset] at hc
  have hkeep : s.Called (.termination c) ∨ Failed s pcs c →
      s'.Called (.termination c) ∨ Failed s' (Function.update pcs t pc') c :=
    Or.imp (fun hcalled => called_step hmove hcalled nofun)
      fun hfailed => hfailed.step hpc hmove (hc ▸ Nat.lt_succ_self c)
  rcases terminationError_cases hmove with hsame | hpc' | ⟨hidle, b, hlog⟩
  · exact hkeep (h.error c hc (hsame ▸ herror))
  · exact absurd hpc' hreset
  · rcases hcode b _ hidle hlog herror c hc with rfl | hother
    · exact .inl ⟨_, hlog ▸ List.mem_cons_self⟩
    · exact hkeep hother

end Steps

/-- When the statics of the process speak of the connection they are taken for.  A callback
stores its error while its connection is the newest one, or when the newest has reported a
termination or never comes to life; it wakes the queue of its own connection, or of one that
has a reason to end; an error is read of the newest connection or of a terminated one. -/
structure InTime (s : System T) (label : T × Action) : Prop where
  store : ∀ b code, label.2 = .terminated b code → code ≠ noReportedError →
    ∀ c, c + 1 = s.shared.attempts →
      c = b ∨ s.shared.Called (.termination c) ∨ Failed s.shared s.pcs c
  wake : ∀ b c, s.pcs label.1 = .wake (.termination b) .wake → s.shared.videoWakeState = some c →
    c = b ∨ Caused c s.shared.log
  read : ∀ c, label.2 = .terminationError c →
    c + 1 = s.shared.attempts ∨ s.shared.Called (.termination c)

/-- The invariant of the runs in which the callbacks come in time. -/
structure Separate (s : System T) : Prop where
  safe : Safe s
  apart : Apart s.shared s.pcs
  logged : Logged Isolated s.shared.log

theorem Separate.init : Separate (System.init : System T) := ⟨.init, .init, trivial⟩

section Runs

variable [DecidableEq T]

theorem Separate.step {s s' : System T} {label : T × Action} (h : Separate s)
    (htime : InTime s label) (hstep : Sys.step s label = some s') : Separate s' := by
  obtain ⟨⟨shared, pc⟩, hadvance, rfl⟩ := Option.map_eq_some_iff.mp hstep
  have hmove := advance_cases hadvance
  obtain ⟨hlocked, hstaged, hhandled, hbegun, -⟩ := h.safe
  have haction : ∀ {event}, s.pcs label.1 = .idle → shared.log = event :: s.shared.log →
      event.From label.2 := fun hidle hlog => (perform_cases (hidle ▸ hadvance)).2 _ hlog
  exact {
    safe := h.safe.move hmove
    apart := {
      flag := h.apart.flag_step hmove
      stopping := h.apart.stopping_step rfl hmove
      stopped := h.apart.stopped_step hlocked rfl hmove
      error := h.apart.error_step rfl hmove fun b code hidle hlog =>
        htime.store b code (haction hidle hlog)
      fresh := h.apart.fresh_step hlocked hstaged hhandled rfl hmove
      woken := h.apart.woken_step hlocked hstaged hhandled hbegun rfl hmove htime.wake }
    logged := h.apart.logged_step hlocked hstaged rfl hmove
      (fun c error hidle hlog => htime.read c (haction hidle hlog)) h.logged }

/-- While the callbacks come in time, no connection is ended or marked by another. -/
theorem isolated_of_inTime {labels : List (T × Action)}
    (h : Meets Sys.step InTime (System.init : System T) labels) :
    Always Sys.step (fun s => Logged Isolated s.shared.log) (System.init : System T) labels :=
  Always.of_meets (fun _ _ _ hs hl ht => Separate.step hs hl ht) (fun _ hs => hs.logged)
    Separate.init h

end Runs

/-- The simplest way to be in time. -/
def aboutNewest [DecidableEq T] (s : System T) (label : T × Action) : Bool :=
  (match label.2 with
    | .terminated b _ => b + 1 == s.shared.attempts
    | .terminationError c => c + 1 == s.shared.attempts
    | _ => true) &&
  match s.pcs label.1 with
  | .wake (.termination b) .wake => s.shared.videoWakeState == some b
  | _ => true

theorem inTime_of_aboutNewest [DecidableEq T] {s : System T} {label : T × Action}
    (h : aboutNewest s label = true) : InTime s label := by
  obtain ⟨haction, hwake⟩ := Bool.and_eq_true_iff.mp h
  refine ⟨fun b code hb _ c hc => .inl ?_, fun b c hpc hc => .inl ?_, fun c hc => .inl ?_⟩
  · simp only [hb, beq_iff_eq] at haction
    exact Nat.succ_inj.mp (hc.trans haction.symm)
  · simp only [hpc, hc, beq_iff_eq, Option.some.injEq] at hwake
    exact hwake
  · simpa only [hc, beq_iff_eq] using haction

/-- A successful `start_with_audio`. -/
def connect : List (Bool × Action) :=
  [(true, .start), (true, .run), (true, .run), (true, .startReturns true), (true, .run),
    (true, .run), (true, .run)]

def disconnect (c : ConnId) : List (Bool × Action) :=
  (true, .stop c) :: List.replicate 9 (true, .run)

/-- The host ends the first connection while the worker waits. -/
def terminatedInTime : List (Bool × Action) :=
  connect ++ [(true, .waitForVideoFrame 0), (true, .run), (false, .terminated 0 5), (false, .run),
    (false, .run), (false, .run), (false, .run), (true, .run), (true, .terminationError 0)] ++
  disconnect 0 ++ connect ++ [(true, .terminationError 1)]

theorem isolated_of_inTime_terminatedInTime :
    ∃ s, run Sys.step System.init terminatedInTime = some s ∧ Logged Isolated s.shared.log := by
  have htime : Meets Sys.step InTime System.init terminatedInTime :=
    Meets.mono (C := fun s l => aboutNewest s l = true) (by decide) fun _ _ => inTime_of_aboutNewest
  obtain ⟨s, hs⟩ := Option.isSome_iff_exists.mp
    (show (run Sys.step System.init terminatedInTime).isSome = true by decide)
  exact ⟨s, hs, (isolated_of_inTime htime).of_run hs⟩

/-- The callback of the first connection runs when the second one has been started. -/
def terminatedLate : List (Bool × Action) :=
  connect ++ disconnect 0 ++ connect ++ [(false, .terminated 0 5), (true, .terminationError 1)]

/-- The second connection reports the end of the first. -/
theorem not_isolated_of_late_callback :
    ¬Always Sys.step (fun s => Logged Isolated s.shared.log) System.init terminatedLate := by
  intro h
  have hrun : (run Sys.step System.init terminatedLate).map (fun s => s.shared.log) =
      some [.readError 1 (some 5), .terminated 0 5, .started 1, .register 1, .startEnd 1 true,
        .startBegin 1, .reset 1, .stopEnd 0, .stopBegin 0, .unregister 0, .stopRequested 0,
        .started 0, .register 0, .startEnd 0 true, .startBegin 0, .reset 0] := by decide
  obtain ⟨s, hs, hlog⟩ := Option.map_eq_some_iff.mp hrun
  have hisolated := h.of_run hs
  rw [hlog] at hisolated
  obtain ⟨⟨code, hcode⟩, -⟩ := hisolated
  simp at hcode

end MoonlightScarlet.Sys
