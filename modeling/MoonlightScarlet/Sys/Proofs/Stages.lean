import MoonlightScarlet.Sys.Proofs.Locks
/-!
# The life of a connection

One connection at a time goes through the stages below.  The stage is known from the
thread that starts, stops or waits for the connection, or from the connection at rest;
it fixes which states are active, which connection the wake gate has registered and
which of the two long calls of the core is in progress.
-/

namespace MoonlightScarlet.Sys

open Support.Threads

variable {T : Type}

inductive Running
  | starting (connection : ConnId)
  | stopping (connection : ConnId)

/-- The call of `LiStartConnection` or `LiStopConnection` that has not returned. -/
def inProgress : List Event → Option Running
  | [] => none
  | .startBegin c :: _ => some (.starting c)
  | .startEnd _ _ :: _ => none
  | .stopBegin c :: _ => some (.stopping c)
  | .stopEnd _ :: _ => none
  | _ :: log => inProgress log

/-- A successfully started connection that is registered and not yet stopped. -/
structure Registered (c : ConnId) (log : List Event) : Prop where
  begun : .startEnd c true ∈ log
  registered : .register c ∈ log
  notUnregistered : .unregister c ∉ log
  notStopped : .stopBegin c ∉ log

inductive Stage
  | quiet
  | starting (connection : ConnId)
  | created (connection : ConnId)
  | registered (connection : ConnId)
  | deactivated (connection : ConnId)
  | stopping (connection : ConnId)

namespace Stage

def active : Stage → Option ConnId
  | created c => some c
  | registered c => some c
  | _ => none

def inGate : Stage → Option ConnId
  | registered c => some c
  | deactivated c => some c
  | _ => none

def running : Stage → Option Running
  | starting c => some (.starting c)
  | stopping c => some (.stopping c)
  | _ => none

end Stage

def StartPc.stage : StartPc → Stage
  | .running c => .starting c
  | .lock c => .created c
  | .register c => .created c
  | .unlock c => .registered c
  | _ => .quiet

def StopPc.stage (c : ConnId) : StopPc → Option Stage
  | .lock => some (.registered c)
  | .lockWake => some (.registered c)
  | .deactivate => some (.registered c)
  | .unregister => some (.deactivated c)
  | .running => some (.stopping c)
  | .unlock => none
  | _ => some .quiet

def Pc.stage : Pc → Option Stage
  | .start pc => some pc.stage
  | .stop c pc => pc.stage c
  | .wait c _ => some (.registered c)
  | _ => none

/-- What a stage says about the shared data. -/
structure Facts (stage : Stage) (s : Shared T) : Prop where
  active : ∀ d, (s.states d).active = true ↔ stage.active = some d
  inGate : s.videoWakeState = stage.inGate
  running : inProgress s.log = stage.running
  opened : ∀ d, stage.active = some d →
    .startEnd d true ∈ s.log ∧ .unregister d ∉ s.log ∧ .stopBegin d ∉ s.log
  window : ∀ d, stage.inGate = some d → Registered d s.log

/-- The stage of a connection that no thread holds. -/
def Shared.rest (s : Shared T) : Stage :=
  match s.connectionActive with
  | .connected c => .registered c
  | _ => .quiet

/-- The thread that starts the connection or that is in one of its `&mut self` methods. -/
def Shared.holder (s : Shared T) : Option T :=
  match s.connectionActive with
  | .free => none
  | .starting t => some t
  | .connected c => s.borrow c

/-- The stage is known, whoever holds the connection. -/
structure Staged (s : Shared T) (pcs : T → Pc) : Prop where
  thread : ∀ t stage, (pcs t).stage = some stage → Facts stage s
  rest : (∀ t, (pcs t).stage = none) → Facts s.rest s
  ended : ∀ c, .unregister c ∈ s.log ∨ .stopBegin c ∈ s.log → s.connections c ≠ none

theorem Facts.init : Facts .quiet ({} : Shared T) where
  active _ := iff_of_false nofun nofun
  inGate := rfl
  running := rfl
  opened _ := nofun
  window _ := nofun

theorem Staged.init : Staged ({} : Shared T) fun _ => .idle where
  thread _ _ := nofun
  rest _ := .init
  ended _ := nofun

/-! ## Events that leave the stage alone -/

/-- Events outside the life of the connections. -/
def Event.Neutral : Event → Prop
  | .startBegin _ => False
  | .startEnd _ _ => False
  | .register _ => False
  | .unregister _ => False
  | .stopBegin _ => False
  | .stopEnd _ => False
  | _ => True

theorem inProgress_cons {event : Event} (h : event.Neutral) (log : List Event) :
    inProgress (event :: log) = inProgress log := by
  cases event <;> first | rfl | exact h.elim

theorem Registered.cons {c : ConnId} {log : List Event} (h : Registered c log) {event : Event}
    (hunregister : event ≠ .unregister c) (hstop : event ≠ .stopBegin c) :
    Registered c (event :: log) where
  begun := List.mem_cons_of_mem _ h.begun
  registered := List.mem_cons_of_mem _ h.registered
  notUnregistered := by
    rw [List.mem_cons, not_or]
    exact ⟨hunregister.symm, h.notUnregistered⟩
  notStopped := by
    rw [List.mem_cons, not_or]
    exact ⟨hstop.symm, h.notStopped⟩

section Facts

variable {stage : Stage} {s s' : Shared T}

/-- The facts depend on three components. -/
theorem Facts.congr (h : Facts stage s) (hactive : ∀ d, (s'.states d).active = (s.states d).active)
    (hgate : s'.videoWakeState = s.videoWakeState) (hlog : s'.log = s.log) : Facts stage s' where
  active d := by rw [hactive, h.active]
  inGate := hgate.trans h.inGate
  running := hlog ▸ h.running
  opened := hlog ▸ h.opened
  window := hlog ▸ h.window

theorem Facts.neutral (h : Facts stage s) (event : Event) (hevent : event.Neutral) :
    Facts stage (s.record event) where
  active := h.active
  inGate := h.inGate
  running := (inProgress_cons hevent _).trans h.running
  opened d hd := by
    obtain ⟨hbegun, hunregister, hstop⟩ := h.opened d hd
    refine ⟨List.mem_cons_of_mem _ hbegun, ?_, ?_⟩
    · rintro (_ | ⟨_, hmem⟩)
      · exact hevent
      · exact hunregister hmem
    · rintro (_ | ⟨_, hmem⟩)
      · exact hevent
      · exact hstop hmem
  window d hd := (h.window d hd).cons (by rintro rfl; exact hevent) (by rintro rfl; exact hevent)

theorem active_requestStop {c d : ConnId} :
    ((s.requestStop c).states d).active = (s.states d).active := by
  by_cases hd : d = c
  · subst hd
    simp [Shared.requestStop, Shared.record, Shared.modifyState]
  · simp [Shared.requestStop, Shared.record, Shared.modifyState, hd]

theorem Facts.requestStop (h : Facts stage s) (c : ConnId) : Facts stage (s.requestStop c) :=
  (h.neutral (.stopRequested c) trivial).congr (fun _ => active_requestStop) rfl rfl

/-- No use of a connection changes its stage. -/
theorem Facts.use {t : T} {pc pc' : Pc} (h : Facts stage s) (hmove : Use t s pc s' pc') :
    Facts stage s' := by
  cases hmove with
  | requestStop c hobject => exact h.requestStop c
  | readError c hobject => exact h.neutral _ trivial
  | coreCall c call => exact h.neutral (.coreCall c call) trivial
  | terminated c code hbegun =>
      exact (h.neutral (.terminated c code) trivial).congr (fun _ => rfl) rfl rfl
  | wake waker => exact (h.neutral (.wake waker) trivial).congr (fun _ => rfl) rfl rfl
  | returned waker => exact (h.neutral (.returned waker) trivial).congr (fun _ => rfl) rfl rfl
  | waitStopped c object hobject hstop => exact h.neutral (.waitNone c) trivial
  | wait c hobject hstop =>
      exact (h.neutral (.sawNoStop c) trivial).congr (fun _ => rfl) rfl rfl
  | waitTerminated c herror =>
      exact (h.neutral (.waitNone c) trivial).congr (fun _ => rfl) rfl rfl
  | waitFrame c herror => exact h.neutral (.sawNoTermination c) trivial
  | woken c hwoken => exact (h.neutral (.waitNone c) trivial).congr (fun _ => rfl) rfl rfl
  | frameReady c hwoken => exact (h.neutral (.waitFrame c) trivial).congr (fun _ => rfl) rfl rfl
  | _ => exact h.congr (fun _ => rfl) rfl rfl

end Facts

/-! ## Moves through the stages -/

section Moves

variable {s s' : Shared T} {pcs : T → Pc} {t : T} {pc pc' : Pc} {c : ConnId}

theorem Facts.startBegin (h : Facts .quiet s) (c : ConnId) :
    Facts (.starting c) ({ s with queue := {} }.record (.startBegin c)) where
  active := h.active
  inGate := h.inGate
  running := rfl
  opened _ := nofun
  window _ := nofun

theorem Facts.startFailed (h : Facts (.starting c) s) :
    Facts .quiet (s.record (.startEnd c false)) where
  active := h.active
  inGate := h.inGate
  running := rfl
  opened _ := nofun
  window _ := nofun

theorem Facts.startSucceeded (h : Facts (.starting c) s)
    (hunregister : .unregister c ∉ s.log) (hstop : .stopBegin c ∉ s.log) :
    Facts (.created c)
      ((s.record (.startEnd c true)).modifyState c fun _ => { active := true }) where
  active d := by
    by_cases hd : d = c
    · subst hd
      simp [Shared.modifyState, Stage.active]
    · have hactive := h.active d
      simpa [Shared.modifyState, Shared.record, Stage.active, hd, Ne.symm hd] using hactive
  inGate := h.inGate
  running := rfl
  opened d hd := by
    obtain rfl : c = d := Option.some.inj hd
    simpa [Shared.modifyState, Shared.record] using And.intro hunregister hstop
  window _ := nofun

theorem Facts.register (h : Facts (.created c) s) :
    Facts (.registered c) ({ s with videoWakeState := some c }.record (.register c)) where
  active := h.active
  inGate := rfl
  running := h.running
  opened d hd := by simpa [Shared.record] using h.opened d hd
  window d hd := by
    obtain rfl : c = d := Option.some.inj hd
    obtain ⟨hbegun, hunregister, hstop⟩ := h.opened c rfl
    exact {
      begun := List.mem_cons_of_mem _ hbegun
      registered := List.mem_cons_self
      notUnregistered := by simpa [Shared.record] using hunregister
      notStopped := by simpa [Shared.record] using hstop }

theorem Facts.started (h : Facts (.registered c) s) :
    Facts (.registered c)
      ({ s with
        wakeLock := none
        connectionActive := .connected c
        connections := Function.update s.connections c (some {}) }.record (.started c)) :=
  (h.neutral (.started c) trivial).congr (fun _ => rfl) rfl rfl

theorem Facts.deactivate (h : Facts (.registered c) s) :
    Facts (.deactivated c) (s.modifyState c fun state => { state with active := false }) where
  active d := by
    by_cases hd : d = c
    · subst hd
      simp [Shared.modifyState, Stage.active]
    · have hactive := h.active d
      simpa [Shared.modifyState, Stage.active, hd, Ne.symm hd] using hactive
  inGate := h.inGate
  running := h.running
  opened _ := nofun
  window := h.window

theorem Facts.unregister (h : Facts (.deactivated c) s) :
    Facts .quiet ({ s with videoWakeState := none }.record (.unregister c)) where
  active := h.active
  inGate := rfl
  running := h.running
  opened _ := nofun
  window _ := nofun

theorem Facts.stopBegin (h : Facts .quiet s) (c : ConnId) :
    Facts (.stopping c) (s.record (.stopBegin c)) where
  active := h.active
  inGate := h.inGate
  running := rfl
  opened _ := nofun
  window _ := nofun

theorem Facts.stopEnd (h : Facts (.stopping c) s) : Facts .quiet (s.record (.stopEnd c)) where
  active := h.active
  inGate := h.inGate
  running := rfl
  opened _ := nofun
  window _ := nofun

theorem rest_of_live (hlocked : Locked s pcs) (hlive : s.Live c) : s.rest = .registered c := by
  rw [Shared.rest, (hlocked.live c).mpr hlive]

/-- What a thread leaves behind when it has moved a connection on. -/
theorem Facts.lifecycle (hlocked : Locked s pcs)
    (hended : ∀ c, .unregister c ∈ s.log ∨ .stopBegin c ∈ s.log → s.connections c ≠ none)
    (hpc : pcs t = pc) (hmove : Lifecycle t s pc s' pc') (h : Facts (pc.stage.getD s.rest) s) :
    Facts (pc'.stage.getD s'.rest) s' := by
  cases hmove with
  | claim hfree =>
      simp only [Pc.stage, Option.getD_none, Shared.rest, hfree] at h
      exact h.congr (fun _ => rfl) rfl rfl
  | reset => exact (h.neutral (.reset s.attempts) trivial).congr (fun _ => rfl) rfl rfl
  | startBegin c => exact h.startBegin c
  | startFailed c => exact h.startFailed
  | startSucceeded c =>
      -- A connection that does not exist yet has no end either.
      have hnone : s.connections c = none := (hlocked.starting t c (hpc ▸ rfl)).1
      exact h.startSucceeded (fun hmem => hended c (.inl hmem) hnone)
        fun hmem => hended c (.inr hmem) hnone
  | giveUp => exact h.congr (fun _ => rfl) rfl rfl
  | startLock c hwake => exact h.congr (fun _ => rfl) rfl rfl
  | register c => exact h.register
  | started c => exact h.started
  | stop c hobject =>
      change Facts s.rest s at h
      rw [rest_of_live hlocked ⟨_, hobject, rfl⟩] at h
      exact (h.congr (fun _ => rfl) rfl rfl : Facts _ (s.setBorrow c (some t))).requestStop c
  | stopLock c hcore => exact h.congr (fun _ => rfl) rfl rfl
  | stopLockWake c hwake => exact h.congr (fun _ => rfl) rfl rfl
  | deactivate c => exact h.deactivate
  | unregister c => exact h.unregister
  | stopUnlockWake c => exact h.congr (fun _ => rfl) rfl rfl
  | stopBegin c => exact h.stopBegin c
  | stopEnd c => exact h.stopEnd
  | release c => exact h.congr (fun _ => rfl) rfl rfl

/-! ## One holder -/

theorem Pc.starts_or_uses {stage : Stage} (h : pc.stage = some stage) :
    pc.Starts ∨ ∃ c, pc.Uses c := by
  cases pc with
  | start pc => exact .inl trivial
  | stop c pc =>
      cases pc with
      | unlock => cases h
      | _ => exact .inr ⟨c, rfl⟩
  | wait c pc => exact .inr ⟨c, rfl⟩
  | _ => cases h

theorem holder_of_uses (hlocked : Locked s pcs) (huses : (pcs t).Uses c) : s.holder = some t := by
  rw [Shared.holder, (hlocked.live c).mpr (hlocked.uses t c huses)]
  exact (hlocked.borrow c t).mp huses.borrow

theorem holder_of_starts (hlocked : Locked s pcs) (hstarts : (pcs t).Starts) :
    s.holder = some t := by
  rw [Shared.holder, Slot.eq_starting ((hlocked.start t).mp hstarts)]

theorem holder_of_stage (hlocked : Locked s pcs) (hpc : pcs t = pc) {stage : Stage}
    (hstage : pc.stage = some stage) : s.holder = some t := by
  subst hpc
  rcases Pc.starts_or_uses hstage with hstarts | ⟨c, huses⟩
  · exact holder_of_starts hlocked hstarts
  · exact holder_of_uses hlocked huses

theorem holder_of_object (hlocked : Locked s pcs)
    (hobject : s.connections c = some { stopped := false, borrow := none }) :
    s.holder = none := by
  rw [Shared.holder, (hlocked.live c).mpr ⟨_, hobject, rfl⟩]
  simp [Shared.borrow, hobject]

/-- A connection moves on only in the hands of its holder. -/
theorem holder_of_lifecycle (hlocked : Locked s pcs) (hpc : pcs t = pc)
    (hmove : Lifecycle t s pc s' pc') {u : T} (hu : s.holder = some u) : u = t := by
  have hsome : s.holder = some t → u = t := fun ht => Option.some.inj (hu.symm.trans ht)
  cases hmove with
  | claim hfree => simp [Shared.holder, hfree] at hu
  | stop c hobject =>
      rw [holder_of_object hlocked hobject] at hu
      cases hu
  | _ => exact hsome (holder_of_stage hlocked hpc rfl)

/-- The facts of the stage that the thread knows, or of the stage at rest when nobody
else holds the connection. -/
theorem Staged.facts (h : Staged s pcs) (hlocked : Locked s pcs) (hpc : pcs t = pc)
    (hholder : ∀ u, s.holder = some u → u = t) : Facts (pc.stage.getD s.rest) s := by
  cases hstage : pc.stage with
  | some stage => exact h.thread t stage (hpc ▸ hstage)
  | none =>
      refine h.rest fun u => ?_
      cases hu : (pcs u).stage with
      | none => rfl
      | some stage =>
          obtain rfl := hholder u (holder_of_stage hlocked rfl hu)
          rw [hpc, hstage] at hu
          cases hu

/-- Only its own `stop` ends a connection. -/
theorem ended_cases (hmove : Move t s pc s' pc')
    (hc : .unregister c ∈ s'.log ∨ .stopBegin c ∈ s'.log) :
    (.unregister c ∈ s.log ∨ .stopBegin c ∈ s.log) ∨ pc.Uses c := by
  rcases hmove with hmove | hmove
  · cases hmove with
    | unregister d =>
        simp only [Shared.log_record, List.mem_cons, Event.unregister.injEq, reduceCtorEq,
          false_or] at hc
        rcases hc with (rfl | hc) | hc
        · exact .inr rfl
        · exact .inl (.inl hc)
        · exact .inl (.inr hc)
    | stopBegin d =>
        simp only [Shared.log_record, List.mem_cons, Event.stopBegin.injEq, reduceCtorEq,
          false_or] at hc
        rcases hc with hc | rfl | hc
        · exact .inl (.inl hc)
        · exact .inr rfl
        · exact .inl (.inr hc)
    | _ => exact .inl (by simpa using hc)
  · cases hmove with
    | _ => exact .inl (by simpa using hc)

theorem Staged.ended_step (h : Staged s pcs) (hlocked : Locked s pcs) (hpc : pcs t = pc)
    (hmove : Move t s pc s' pc') (c : ConnId)
    (hc : .unregister c ∈ s'.log ∨ .stopBegin c ∈ s'.log) : s'.connections c ≠ none := by
  apply connections_ne_none hmove
  rcases ended_cases hmove hc with hold | huses
  · exact h.ended c hold
  · obtain ⟨object, hobject, -⟩ := hlocked.uses t c (hpc ▸ huses)
    simp [hobject]

/-- A wait begins and ends without a change of stage. -/
theorem stage_use (hlocked : Locked s pcs) (hpc : pcs t = pc) (hmove : Use t s pc s' pc') :
    pc'.stage = pc.stage ∨
      pc'.stage.getD s.rest = pc.stage.getD s.rest ∧ ∀ u, s.holder = some u → u = t := by
  cases hmove with
  | wait c hobject hstop =>
      refine .inr ⟨(rest_of_live hlocked ⟨_, hobject, rfl⟩).symm, fun u hu => ?_⟩
      rw [holder_of_object hlocked hobject] at hu
      cases hu
  | waitTerminated c herror =>
      refine .inr ⟨rest_of_live hlocked (hlocked.uses t c (hpc ▸ rfl)), fun u hu => ?_⟩
      exact Option.some.inj (hu.symm.trans (holder_of_stage hlocked hpc rfl))
  | woken c hwoken =>
      refine .inr ⟨rest_of_live hlocked (hlocked.uses t c (hpc ▸ rfl)), fun u hu => ?_⟩
      exact Option.some.inj (hu.symm.trans (holder_of_stage hlocked hpc rfl))
  | frameReady c hwoken =>
      refine .inr ⟨rest_of_live hlocked (hlocked.uses t c (hpc ▸ rfl)), fun u hu => ?_⟩
      exact Option.some.inj (hu.symm.trans (holder_of_stage hlocked hpc rfl))
  | _ => exact .inl rfl

theorem rest_use (hmove : Use t s pc s' pc') : s'.rest = s.rest := by
  cases hmove with
  | _ => rfl

end Moves

section Steps

variable [DecidableEq T] {s s' : Shared T} {pcs : T → Pc} {t : T} {pc pc' : Pc}

theorem Staged.lifecycle (h : Staged s pcs) (hlocked : Locked s pcs) (hpc : pcs t = pc)
    (hmove : Lifecycle t s pc s' pc') : Staged s' (Function.update pcs t pc') := by
  have hfacts : Facts (pc'.stage.getD s'.rest) s' :=
    (h.facts hlocked hpc fun u => holder_of_lifecycle hlocked hpc hmove).lifecycle hlocked
      h.ended hpc hmove
  refine ⟨fun u stage hstage => ?_, fun hnone => ?_, h.ended_step hlocked hpc (.inl hmove)⟩
  · by_cases hu : u = t
    · subst hu
      rw [Function.update_self] at hstage
      rwa [hstage] at hfacts
    · rw [Function.update_of_ne hu] at hstage
      exact absurd (holder_of_lifecycle hlocked hpc hmove (holder_of_stage hlocked rfl hstage)) hu
  · have ht := hnone t
    rw [Function.update_self] at ht
    rwa [ht] at hfacts

theorem Staged.use (h : Staged s pcs) (hlocked : Locked s pcs) (hpc : pcs t = pc)
    (hmove : Use t s pc s' pc') : Staged s' (Function.update pcs t pc') := by
  refine ⟨fun u stage hstage => Facts.use ?_ hmove, fun hnone => Facts.use ?_ hmove,
    h.ended_step hlocked hpc (.inr hmove)⟩
  · by_cases hu : u = t
    · subst hu
      rw [Function.update_self] at hstage
      rcases stage_use hlocked hpc hmove with hsame | ⟨hrest, hholder⟩
      · exact h.thread u stage (by rw [hpc, ← hsame, hstage])
      · rw [hstage, Option.getD_some] at hrest
        exact hrest ▸ h.facts hlocked hpc hholder
    · rw [Function.update_of_ne hu] at hstage
      exact h.thread u stage hstage
  · rw [rest_use hmove]
    have ht := hnone t
    rw [Function.update_self] at ht
    have hothers : ∀ u, u ≠ t → (pcs u).stage = none := fun u hu => by
      have hu' := hnone u
      rwa [Function.update_of_ne hu] at hu'
    rcases stage_use hlocked hpc hmove with hsame | ⟨hrest, hholder⟩
    · refine h.rest fun u => ?_
      by_cases hu : u = t
      · rw [hu, hpc, ← hsame, ht]
      · exact hothers u hu
    · rw [ht, Option.getD_none] at hrest
      exact hrest ▸ h.facts hlocked hpc hholder

theorem Staged.step (h : Staged s pcs) (hlocked : Locked s pcs) (hpc : pcs t = pc)
    (hmove : Move t s pc s' pc') : Staged s' (Function.update pcs t pc') := by
  rcases hmove with hmove | hmove
  · exact h.lifecycle hlocked hpc hmove
  · exact h.use hlocked hpc hmove

end Steps

end MoonlightScarlet.Sys
