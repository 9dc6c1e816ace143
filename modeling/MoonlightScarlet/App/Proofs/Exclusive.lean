import MoonlightScarlet.App.Proofs.Workers
/-!
# Exclusive operations

Connects and streams exclude each other, and a stream keeps the phase, in every run in
which `connect` waits for the workers of streams and `start_selected_application` for
all that may still write the phase.
-/

namespace MoonlightScarlet.App

open Control Gamepad Support.Runs

variable {F : Type}

/-- No connect is in flight beside a stream, and while a stream runs that the user has
not asked to stop or to cancel, the phase is Streaming. -/
structure Exclusive (world : AppWorld F) : Prop where
  apart : ∀ connect ∈ world.workers, ∀ stream ∈ world.workers, connect.kind = .connect →
    stream.kind = .stream → connect.inFlight = true → stream.inFlight = false
  phase : ∀ (id : WorkerId) (worker : Worker F), world.workers[id]? = some worker →
    worker.isStreaming = true → world.stopped id = false → world.cancelled id = false →
      world.shared.phase = .streaming

/-- `connect` goes ahead only while no worker of a stream is in flight, and
`start_selected_application` only while no connect is in flight and no worker may still
write the phase. -/
def ActsAlone (world : AppWorld F) : Label F → Prop
  | .ui _ =>
      (world.connectsHost = true → ∀ worker ∈ world.workers, worker.kind = .stream →
        worker.inFlight = false) ∧
      (world.startsStream = true → ∀ worker ∈ world.workers, worker.writesPhase = false ∧
        (worker.kind = .connect → worker.inFlight = false))
  | _ => True

instance (world : AppWorld F) : ∀ label : Label F, Decidable (ActsAlone world label)
  | .call _ => .isTrue trivial
  | .ui _ => inferInstanceAs (Decidable ((_ → ∀ _ ∈ world.workers, _ → _) ∧
      (_ → ∀ _ ∈ world.workers, _ ∧ (_ → _))))
  | .worker _ _ => .isTrue trivial

namespace Worker

/-- The worker has written that it streams. -/
def phaseDone (worker : Worker F) : Bool :=
  worker.stage.isStarted && !worker.todo.any Write.isPhase

/-- Until the end of its stream a worker writes the phase in the `started` callback only. -/
inductive PhaseShaped (id : WorkerId) : Worker F → Prop
  | ended (worker : Worker F) (h : worker.stage.isOpen = false) : PhaseShaped id worker
  | other (worker : Worker F) (h : worker.todo.any Write.isPhase = false) : PhaseShaped id worker
  | control (session : StreamSession) : PhaseShaped id ⟨streamStarted id, .started session⟩
  | phase (session : StreamSession) :
      PhaseShaped id ⟨[.phase .streaming, .selectedPage streamPage], .started session⟩

end Worker

/-- The worker `id` of a stream has the phase for itself. -/
structure Led (world : AppWorld F) (id : WorkerId) (worker : Worker F) : Prop where
  quiet : world.ui.todo.any Write.isPhase = false
  committed : world.ui.stage.isCommitted = false
  alone : ∀ (i : WorkerId) (w : Worker F), world.workers[i]? = some w →
    w.writesPhase = true → i = id
  streaming : worker.phaseDone = true → world.shared.phase = .streaming
  launching : worker.phaseDone = false →
    world.shared.phase = .launching ∧ world.ui.stage.isCancelling = false

/-- The user interface thread is about to write that it launches, or has written it. -/
def Launches (world : AppWorld F) : Prop :=
  (∃ todo, world.ui.todo = .phase .launching :: todo ∧ todo.any Write.isPhase = false) ∨
    world.ui.todo.any Write.isPhase = false ∧ world.shared.phase = .launching

structure Ordered (world : AppWorld F) : Prop where
  controlled : Controlled world
  phased : ∀ (id : WorkerId) (worker : Worker F), world.workers[id]? = some worker →
    worker.PhaseShaped id
  apart : ∀ connect ∈ world.workers, ∀ stream ∈ world.workers, connect.kind = .connect →
    stream.kind = .stream → connect.inFlight = true → stream.inFlight = false
  connecting : ∀ requestedHost, world.ui.stage = .connectSpawn requestedHost →
    ∀ worker ∈ world.workers, worker.kind = .stream → worker.inFlight = false
  spawning : ∀ connected application, world.ui.stage = .startSpawn connected application →
    Launches world ∧ ∀ worker ∈ world.workers, worker.writesPhase = false ∧
      (worker.kind = .connect → worker.inFlight = false)
  led : ∀ (id : WorkerId) (worker : Worker F), world.workers[id]? = some worker →
    worker.stage.isOpen = true → world.cancelled id = false → Led world id worker

theorem Ordered.new : Ordered ({} : AppWorld F) where
  controlled := Controlled.new
  phased _ _ h := by simp at h
  apart _ h := by simp at h
  connecting _ h := by cases h
  spawning _ _ h := by cases h
  led _ _ h := by simp at h

/-! ## Workers -/

theorem writesPhase_of_open {worker : Worker F} (h : worker.stage.isOpen = true) :
    worker.writesPhase = true := by
  obtain ⟨todo, stage⟩ := worker
  cases stage <;> simp_all [WorkerStage.isOpen, Worker.writesPhase, WorkerStage.isFinished]

theorem stream_of_open {worker : Worker F} (h : worker.stage.isOpen = true) :
    worker.kind = .stream ∧ worker.inFlight = true := by
  obtain ⟨todo, stage⟩ := worker
  cases stage <;> simp_all [WorkerStage.isOpen, Worker.kind, WorkerStage.kind, Worker.inFlight,
    WorkerStage.isFinished]

theorem writesControl_of_phase {id : WorkerId} {worker : Worker F} (hshaped : worker.Shaped id)
    (h : worker.writesPhase = false) : worker.writesControl = false := by
  cases hshaped with
  | other _ hnone =>
      rw [Worker.writesControl, hnone, Bool.false_or]
      cases hopen : worker.stage.isOpen with
      | false => rfl
      | true => exact absurd ((writesPhase_of_open hopen).symm.trans h) Bool.false_ne_true.symm
  | started session => cases h
  | closed session result => cases h

theorem announced_of_phaseDone {id : WorkerId} {worker : Worker F} (hshaped : worker.Shaped id)
    (h : worker.phaseDone = true) : worker.announced = true := by
  cases hshaped with
  | other _ hnone =>
      rw [Worker.phaseDone, Bool.and_eq_true] at h
      rw [Worker.announced, hnone, h.1]
      rfl
  | started session => cases h
  | closed session result => cases h

theorem phaseDone_of_streaming {id : WorkerId} {worker : Worker F}
    (hshaped : worker.PhaseShaped id) (h : worker.isStreaming = true) :
    worker.stage.isOpen = true ∧ worker.phaseDone = true := by
  cases hshaped with
  | ended _ hclosed =>
      obtain ⟨todo, stage⟩ := worker
      cases stage <;> simp_all [WorkerStage.isOpen, Worker.isStreaming, Worker.hasBegun]
  | other _ hnone =>
      rw [Worker.phaseDone, hnone]
      obtain ⟨todo, stage⟩ := worker
      cases stage <;> first | exact ⟨rfl, rfl⟩ | cases h
  | control session => cases h
  | phase session => cases h

section Next

variable {id : WorkerId} {shared : Shared F} {stage stage' : WorkerStage}
  {event : Option WorkerEvent} {todo : List (Write F)}
  (h : stage.next id shared event = some (todo, stage'))

include h

theorem next_phaseShaped : Worker.PhaseShaped id ⟨todo, stage'⟩ := by
  unfold WorkerStage.next at h
  split at h <;> cases h
  all_goals first
    | exact .ended _ rfl
    | exact .other _ rfl
    | exact .control _

theorem next_phaseDone (hopen : stage'.isOpen = true) :
    stage.isOpen = true ∧ Worker.phaseDone ⟨todo, stage'⟩ = stage.isStarted := by
  unfold WorkerStage.next at h
  split at h <;> cases h <;> first | exact ⟨rfl, rfl⟩ | cases hopen

end Next

/-! ## Steps -/

section Step

variable [Sys.F32 F] {world next : AppWorld F} {label : Label F}

omit [Sys.F32 F] in
theorem ActsAlone.afterControl (h : Ordered world) (halone : ActsAlone world label) :
    StartsAfterControl world label := by
  cases label with
  | ui send =>
      intro hstarts worker hmem
      obtain ⟨id, hworker⟩ := List.getElem?_of_mem hmem
      exact writesControl_of_phase (h.controlled.shaped id worker hworker)
        (halone.2 hstarts worker hmem).1
  | call action => exact trivial
  | worker id event => exact trivial

section Advances

variable {id : WorkerId} {shared shared' : Shared F} {worker worker' : Worker F}
  (h : Advances id shared worker shared' worker')

include h

/-- A worker that may not write the phase leaves it alone. -/
theorem advances_phase (hwrites : worker.writesPhase = false) : shared'.phase = shared.phase := by
  cases h with
  | write send write todo stage =>
      rw [Worker.writesPhase, List.any_cons, Bool.or_eq_false_iff,
        Bool.or_eq_false_iff] at hwrites
      exact apply_phase send shared hwrites.1.1
  | next => rfl

theorem advances_phaseShaped (hshaped : worker.PhaseShaped id) : worker'.PhaseShaped id := by
  cases h with
  | write send write todo stage =>
      cases hshaped with
      | ended _ hclosed => exact .ended _ hclosed
      | other _ hnone =>
          rw [List.any_cons, Bool.or_eq_false_iff] at hnone
          exact .other _ hnone.2
      | control session => exact .phase session
      | phase session => exact .other _ rfl
  | next stage event todo stage' hnext => exact next_phaseShaped hnext

/-- A stream that is open after its own step was so before, and has kept the phase or
written that it streams. -/
theorem advances_open (hshaped : worker.PhaseShaped id) (hopen : worker'.stage.isOpen = true) :
    worker.stage.isOpen = true ∧
      (shared'.phase = shared.phase ∧ worker'.phaseDone = worker.phaseDone ∨
        shared'.phase = .streaming ∧ worker'.phaseDone = true) := by
  cases h with
  | next stage event todo stage' hnext =>
      obtain ⟨hbefore, hdone⟩ := next_phaseDone hnext hopen
      refine ⟨hbefore, Or.inl ⟨rfl, hdone.trans ?_⟩⟩
      exact (Bool.and_true _).symm
  | write send write todo stage =>
      refine ⟨hopen, ?_⟩
      cases hphase : write.isPhase with
      | false =>
          refine Or.inl ⟨apply_phase send shared hphase, ?_⟩
          rw [Worker.phaseDone, Worker.phaseDone, List.any_cons, hphase, Bool.false_or]
      | true =>
          cases hshaped with
          | ended _ hclosed => exact absurd (hclosed.symm.trans hopen) Bool.false_ne_true
          | other _ hnone =>
              rw [List.any_cons, hphase, Bool.true_or] at hnone
              cases hnone
          | control session => cases hphase
          | phase session => exact Or.inr ⟨rfl, rfl⟩

end Advances

section Led

variable {id i : WorkerId} {worker worker' w : Worker F}
  (hstep : WorkerStep world next id worker worker')

include hstep

theorem Led.alone_step (hled : Led world i w) (j : WorkerId) (v : Worker F)
    (hv : next.workers[j]? = some v) (hwrites : v.writesPhase = true) : j = i := by
  obtain ⟨old, hold, -, -, hbefore⟩ := hstep.old hv
  exact hled.alone j old hold (hbefore hwrites)

/-- The step of the worker that has the phase for itself. -/
theorem Led.own (hled : Led world id worker)
    (hphase : next.shared.phase = world.shared.phase ∧ worker'.phaseDone = worker.phaseDone ∨
      next.shared.phase = .streaming ∧ worker'.phaseDone = true) : Led next id worker' := by
  refine ⟨hstep.ui ▸ hled.quiet, hstep.ui ▸ hled.committed, hled.alone_step hstep, ?_, ?_⟩
  · intro hdone
    rcases hphase with ⟨hkeep, hdoneBefore⟩ | ⟨hstreaming, -⟩
    · exact hkeep.trans (hled.streaming (hdoneBefore ▸ hdone))
    · exact hstreaming
  · intro hnot
    rcases hphase with ⟨hkeep, hdoneBefore⟩ | ⟨-, hdone⟩
    · obtain ⟨hlaunching, hcancelling⟩ := hled.launching (hdoneBefore ▸ hnot)
      exact ⟨hkeep.trans hlaunching, hstep.ui ▸ hcancelling⟩
    · exact absurd (hnot.symm.trans hdone) Bool.false_ne_true

/-- The step of a worker beside it, which may not write the phase. -/
theorem Led.other (hled : Led world i w) (hne : i ≠ id) : Led next i w := by
  have hquiet : worker.writesPhase = false :=
    Bool.eq_false_iff.mpr fun hwrites => hne (hled.alone id worker hstep.before hwrites).symm
  have hphase := advances_phase hstep.advances hquiet
  refine ⟨hstep.ui ▸ hled.quiet, hstep.ui ▸ hled.committed, hled.alone_step hstep, ?_, ?_⟩
  · exact fun hdone => hphase.trans (hled.streaming hdone)
  · intro hnot
    obtain ⟨hlaunching, hcancelling⟩ := hled.launching hnot
    exact ⟨hphase.trans hlaunching, hstep.ui ▸ hcancelling⟩

end Led

theorem Ordered.worker (h : Ordered world) {id : WorkerId} {event : Option WorkerEvent}
    (hmoves : Moves world (.worker id event) next) (hcontrolled : Controlled next) :
    Ordered next := by
  obtain ⟨worker, worker', hstep⟩ := workerStep_of_moves hmoves
  have hafter : next.workers[id]? = some worker' :=
    hstep.after ▸ get_set_self hstep.before worker'
  refine ⟨hcontrolled, ?_, ?_, ?_, ?_, ?_⟩
  · rw [hstep.after]
    exact forall_set (advances_phaseShaped hstep.advances (h.phased id worker hstep.before))
      h.phased
  · intro connect hconnect stream hstream hconnectKind hstreamKind hflight
    obtain ⟨oldConnect, hold, hkind, hbefore, -⟩ := hstep.mem_old hconnect
    obtain ⟨oldStream, holdStream, hkindStream, hbeforeStream, -⟩ := hstep.mem_old hstream
    exact eq_false_of_imp hbeforeStream (h.apart oldConnect hold oldStream holdStream
      (hkind ▸ hconnectKind) (hkindStream ▸ hstreamKind) (hbefore hflight))
  · intro requestedHost hstage w hw hkind
    obtain ⟨old, hold, hsame, hbefore, -⟩ := hstep.mem_old hw
    exact eq_false_of_imp hbefore
      (h.connecting requestedHost (hstep.ui ▸ hstage) old hold (hsame ▸ hkind))
  · intro connected application hstage
    obtain ⟨hlaunches, hall⟩ := h.spawning connected application (hstep.ui ▸ hstage)
    have hphase := advances_phase hstep.advances
      (hall worker (List.mem_of_getElem? hstep.before)).1
    constructor
    · rw [Launches, hstep.ui, hphase]
      exact hlaunches
    · intro w hw
      obtain ⟨old, hold, hsame, hbefore, hwrites⟩ := hstep.mem_old hw
      obtain ⟨hquiet, hconnect⟩ := hall old hold
      exact ⟨eq_false_of_imp hwrites hquiet,
        fun hkind => eq_false_of_imp hbefore (hconnect (hsame ▸ hkind))⟩
  · intro i w hw hopen hcancelled
    rw [hstep.cancelled] at hcancelled
    by_cases hsame : i = id
    · subst hsame
      obtain rfl := Option.some.inj (hafter.symm.trans hw)
      obtain ⟨hbefore, hphase⟩ :=
        advances_open hstep.advances (h.phased i worker hstep.before) hopen
      exact (h.led i worker hstep.before hbefore hcancelled).own hstep hphase
    · have hold : world.workers[i]? = some w := by
        rw [hstep.after, List.getElem?_set_ne fun hid => hsame hid.symm] at hw
        exact hw
      exact (h.led i w hold hopen hcancelled).other hstep hsame

theorem Ordered.uiWrite (h : Ordered world) {write : Write F} {todo : List (Write F)}
    (send : Send) (htodo : world.ui.todo = write :: todo)
    (hcontrolled : Controlled { world with
      shared := write.apply send world.shared, ui := { world.ui with todo } }) :
    Ordered { world with
      shared := write.apply send world.shared, ui := { world.ui with todo } } := by
  refine ⟨hcontrolled, h.phased, h.apart, h.connecting, ?_, ?_⟩
  · intro connected application hstage
    obtain ⟨hlaunches, hall⟩ := h.spawning connected application hstage
    refine ⟨Or.inr ?_, hall⟩
    rcases hlaunches with ⟨rest, hrest, hquiet⟩ | ⟨hquiet, hlaunching⟩
    · obtain ⟨rfl, rfl⟩ := List.cons.inj (htodo.symm.trans hrest)
      exact ⟨hquiet, rfl⟩
    · rw [htodo, List.any_cons, Bool.or_eq_false_iff] at hquiet
      exact ⟨hquiet.2, (apply_phase send world.shared hquiet.1).trans hlaunching⟩
  · intro id worker hworker hopen hcancelled
    have hled := h.led id worker hworker hopen hcancelled
    have hquiet := hled.quiet
    rw [htodo, List.any_cons, Bool.or_eq_false_iff] at hquiet
    have hphase := apply_phase send world.shared hquiet.1
    refine ⟨hquiet.2, hled.committed, hled.alone, ?_, ?_⟩
    · exact fun hdone => hphase.trans (hled.streaming hdone)
    · intro hnot
      obtain ⟨hlaunching, hcancelling⟩ := hled.launching hnot
      exact ⟨hphase.trans hlaunching, hcancelling⟩

omit [Sys.F32 F] in
/-- A move of the user interface thread that spawns no worker. -/
theorem Ordered.moved (h : Ordered world) {move : UiMove F}
    (hcontrolled : Controlled (world.move move)) (hspawn : move.spawn = none)
    (hconnecting : ∀ requestedHost, move.stage = .connectSpawn requestedHost →
      ∀ worker ∈ world.workers, worker.kind = .stream → worker.inFlight = false)
    (hspawning : ∀ connected application, move.stage = .startSpawn connected application →
      Launches (world.move move) ∧ ∀ worker ∈ world.workers, worker.writesPhase = false ∧
        (worker.kind = .connect → worker.inFlight = false))
    (hled : ∀ (id : WorkerId) (worker : Worker F), world.workers[id]? = some worker →
      worker.stage.isOpen = true → mark world.cancelled move.cancel id = false →
        Led (world.move move) id worker) :
    Ordered (world.move move) := by
  have hworkers : (world.move move).workers = world.workers := by
    simp [AppWorld.move, hspawn]
  refine ⟨hcontrolled, ?_, ?_, ?_, ?_, ?_⟩ <;> rw [hworkers]
  · exact h.phased
  · exact h.apart
  · exact hconnecting
  · exact hspawning
  · exact hled

omit [Sys.F32 F] in
theorem Ordered.quiet (h : Ordered world) {move : UiMove F}
    (hquiet : move.Quiet world.shared world.ui.stage)
    (hcontrolled : Controlled (world.move move)) : Ordered (world.move move) := by
  have hcommitted {stage : UiStage} (hstage : move.stage = stage)
      (hyes : stage.isCommitted = true) : False :=
    Bool.false_ne_true (hquiet.committed.symm.trans ((congrArg _ hstage).trans hyes))
  refine h.moved hcontrolled hquiet.spawn (fun _ hstage => (hcommitted hstage rfl).elim)
    (fun _ _ hstage => (hcommitted hstage rfl).elim) ?_
  intro id worker hworker hopen hcancelled
  rw [hquiet.cancel] at hcancelled
  have hled := h.led id worker hworker hopen hcancelled
  refine ⟨hquiet.phase, hquiet.committed, ?_, hled.streaming, ?_⟩
  · intro i w hw hwrites
    refine hled.alone i w ?_ hwrites
    simpa [AppWorld.move, hquiet.spawn] using hw
  · intro hnot
    obtain ⟨hlaunching, hcancelling⟩ := hled.launching hnot
    refine ⟨hlaunching, Bool.eq_false_iff.mpr fun hyes => ?_⟩
    rcases hquiet.cancelling hyes with hbefore | hother
    · exact Bool.false_ne_true (hcancelling.symm.trans hbefore)
    · exact hother hlaunching

omit [Sys.F32 F] in
/-- A cancel finds the control of a stream that is open: before that has started, the
phase turns the cancel down. -/
theorem Ordered.cancel (h : Ordered world) {connected : ConnectedHost}
    (hstage : world.ui.stage = .cancelControl connected)
    (hcontrolled : Controlled (world.move
      { todo := cancelBegun world.shared.streamControl
        stage := .cancelSpawn connected
        cancel := world.shared.streamControl })) :
    Ordered (world.move
      { todo := cancelBegun world.shared.streamControl
        stage := .cancelSpawn connected
        cancel := world.shared.streamControl }) := by
  refine h.moved hcontrolled rfl (fun _ hstage => by cases hstage)
    (fun _ _ hstage => by cases hstage) ?_
  intro id worker hworker hopen hcancelled
  have hbefore : world.cancelled id = false :=
    eq_false_of_imp (fun hyes => mark_of_marked hyes _) hcancelled
  have hled := h.led id worker hworker hopen hbefore
  cases hdone : worker.phaseDone with
  | false =>
      have hcancelling := (hled.launching hdone).2
      rw [hstage] at hcancelling
      cases hcancelling
  | true =>
      have hannounced := announced_of_phaseDone (h.controlled.shaped id worker hworker) hdone
      rcases h.controlled.announced id worker hworker hannounced with hsome | hyes
      · rw [hsome, mark, Function.update_self] at hcancelled
        cases hcancelled
      · exact absurd (hbefore.symm.trans hyes) Bool.false_ne_true

section Spawned

variable {stage : UiStage} {spawned : WorkerStage} (hstage : world.ui.stage = stage)
  (hspawns : Spawns stage spawned)

omit [Sys.F32 F]

include hstage hspawns

theorem Ordered.spawned_connect (h : Ordered world) (hkind : spawned.kind = .connect) :
    ∀ worker ∈ world.workers, worker.kind = .stream → worker.inFlight = false := by
  cases hspawns with
  | connect requestedHost => exact h.connecting requestedHost hstage
  | start connected application => cases hkind
  | cancel connected => cases hkind

theorem Ordered.spawned_stream (h : Ordered world) (htodo : world.ui.todo = [])
    (hkind : spawned.kind = .stream) :
    world.shared.phase = .launching ∧ spawned.isStarted = false ∧
      ∀ worker ∈ world.workers, worker.writesPhase = false ∧
        (worker.kind = .connect → worker.inFlight = false) := by
  cases hspawns with
  | connect requestedHost => cases hkind
  | cancel connected => cases hkind
  | start connected application =>
      obtain ⟨⟨todo, hsome, -⟩ | ⟨-, hlaunching⟩, hall⟩ :=
        h.spawning connected application hstage
      · rw [htodo] at hsome
        cases hsome
      · exact ⟨hlaunching, rfl, hall⟩

end Spawned

omit [Sys.F32 F] in
theorem Ordered.spawn (h : Ordered world) {stage : UiStage} {spawned : WorkerStage}
    (hstage : world.ui.stage = stage) (hspawns : Spawns stage spawned)
    (htodo : world.ui.todo = [])
    (hcontrolled : Controlled (world.move { spawn := some spawned })) :
    Ordered (world.move { spawn := some spawned }) := by
  have hstream (hkind : spawned.kind = .stream) := h.spawned_stream hstage hspawns htodo hkind
  have hmem {worker : Worker F}
      (hworker : worker ∈ (world.move { spawn := some spawned }).workers) :
      worker ∈ world.workers ∨ worker = { stage := spawned } := by
    simpa [AppWorld.move] using hworker
  refine ⟨hcontrolled, ?_, ?_, ?_, ?_, ?_⟩
  · intro i w hw
    rcases of_get_move hw with hold | ⟨-, hempty, -⟩
    · exact h.phased i w hold
    · exact .other w (by rw [hempty]; rfl)
  · intro connect hnewConnect stream hnewStream hconnectKind hstreamKind hflight
    rcases hmem hnewConnect with holdConnect | rfl
    · rcases hmem hnewStream with holdStream | rfl
      · exact h.apart connect holdConnect stream holdStream hconnectKind hstreamKind hflight
      · have hnone := ((hstream hstreamKind).2.2 connect holdConnect).2 hconnectKind
        exact absurd (hnone.symm.trans hflight) Bool.false_ne_true
    · rcases hmem hnewStream with holdStream | rfl
      · exact h.spawned_connect hstage hspawns hconnectKind stream holdStream hstreamKind
      · exact absurd (hconnectKind.symm.trans hstreamKind) (by decide)
  · intro requestedHost hidle
    cases hidle
  · intro connected application hidle
    cases hidle
  · intro i w hw hopen hcancelled
    rcases of_get_move hw with hold | ⟨hlast, hempty, hspawned⟩
    · -- A stream that is open keeps the user interface thread from spawning anything.
      have hcommitted := (h.led i w hold hopen hcancelled).committed
      rw [hstage] at hcommitted
      cases hspawns <;> cases hcommitted
    · obtain rfl := Option.some.inj hspawned
      obtain ⟨hlaunching, hstarted, hall⟩ := hstream (stream_of_open hopen).1
      refine ⟨rfl, rfl, ?_, ?_, fun _ => ⟨hlaunching, rfl⟩⟩
      · intro j v hv hwrites
        rcases of_get_move hv with holdV | ⟨hlastV, -, -⟩
        · have hnone := (hall v (List.mem_of_getElem? holdV)).1
          exact absurd (hnone.symm.trans hwrites) Bool.false_ne_true
        · exact hlastV.trans hlast.symm
      · intro hdone
        rw [Worker.phaseDone, hstarted] at hdone
        cases hdone

theorem Ordered.step (h : Ordered world) (halone : ActsAlone world label)
    (hstep : world.step label = some next) : Ordered next := by
  have hcontrolled := h.controlled.step (halone.afterControl h) hstep
  have hmoves := moves_of_step hstep
  cases label with
  | worker id event => exact h.worker hmoves hcontrolled
  | call action =>
      cases hmoves with
      | call action htodo hstage =>
          exact h.quiet (hstage ▸ begin_quiet world.shared action) hcontrolled
  | ui send =>
      cases hmoves with
      | uiWrite send write todo htodo => exact h.uiWrite send htodo hcontrolled
      | uiNext send move htodo hnext =>
          have huiMoves := uiMoves_of_next hnext
          have hopenFlight {id : WorkerId} {worker : Worker F}
              (hworker : world.workers[id]? = some worker) (hopen : worker.stage.isOpen = true)
              (hnone : ∀ worker ∈ world.workers, worker.kind = .stream →
                worker.inFlight = false) : False := by
            obtain ⟨hkind, hflight⟩ := stream_of_open hopen
            have := hnone worker (List.mem_of_getElem? hworker) hkind
            exact Bool.false_ne_true (this.symm.trans hflight)
          generalize hstage : world.ui.stage = stage at huiMoves
          cases huiMoves with
          | quiet _ _ hquiet => exact h.quiet (hstage ▸ hquiet) hcontrolled
          | emptyHost =>
              have hnone := halone.1 (connectsHost_of_next htodo hnext (by rw [hstage]) rfl)
              exact h.moved hcontrolled rfl (fun _ hstage => by cases hstage)
                (fun _ _ hstage => by cases hstage)
                (fun _ _ hworker hopen _ => (hopenFlight hworker hopen hnone).elim)
          | connect requestedHost =>
              have hnone := halone.1 (connectsHost_of_next htodo hnext (by rw [hstage]) rfl)
              exact h.moved hcontrolled rfl (fun _ _ => hnone) (fun _ _ hstage => by cases hstage)
                (fun _ _ hworker hopen _ => (hopenFlight hworker hopen hnone).elim)
          | start connected index application =>
              have hall := halone.2 (startsStream_of_next htodo hnext hstage rfl)
              refine h.moved hcontrolled rfl (fun _ hstage => by cases hstage)
                (fun _ _ _ => ⟨Or.inl ⟨_, rfl, rfl⟩, hall⟩) ?_
              intro id worker hworker hopen _
              have hnone := (hall worker (List.mem_of_getElem? hworker)).1
              exact absurd (hnone.symm.trans (writesPhase_of_open hopen)) Bool.false_ne_true
          | cancel connected => exact h.cancel hstage hcontrolled
          | spawn _ spawned hspawns => exact h.spawn hstage hspawns htodo hcontrolled

omit [Sys.F32 F] in
theorem Ordered.exclusive (h : Ordered world) : Exclusive world where
  apart := h.apart
  phase id worker hworker hstreaming _ hcancelled := by
    obtain ⟨hopen, hdone⟩ :=
      phaseDone_of_streaming (h.phased id worker hworker) hstreaming
    exact (h.led id worker hworker hopen hcancelled).streaming hdone

end Step

/-- Connects and streams exclude each other and a stream keeps the phase, in every run
in which `connect` and `start_selected_application` wait for the workers that they could
get in the way of. -/
theorem operations_exclusive [Sys.F32 F] {labels : List (Label F)}
    (h : Meets AppWorld.step ActsAlone {} labels) : Always AppWorld.step Exclusive {} labels :=
  Always.of_meets (fun _ _ _ hordered halone hstep => hordered.step halone hstep)
    (fun _ hordered => hordered.exclusive) Ordered.new h

/-- A stream runs and ends before the user connects again. -/
theorem operations_exclusive_reconnect : Always AppWorld.step Exclusive {}
    (connectRun ++ streamRun 1 ++ calls .stopStream 9 ++ happens 1 (.returned (.ok ())) 10 ++
      calls .connect 13) :=
  operations_exclusive (by decide +kernel)

/-- While an application is launched, the user opens the page for a new host and connects. -/
theorem connect_beside_launch :
    ∃ world, run AppWorld.step {} (connectRun ++ calls .startSelectedApplication 12 ++
        calls (.openPage 3) 1 ++ calls .connect 13) = some world ∧
      (∃ worker : Worker Rat, world.workers[1]? = some worker ∧ worker.kind = .stream ∧
        worker.inFlight = true) ∧
      (∃ worker : Worker Rat, world.workers[2]? = some worker ∧ worker.kind = .connect ∧
        worker.inFlight = true) ∧ ¬Exclusive world := by
  have hboth {world : AppWorld Rat} {stream connect : Worker Rat}
      (hstream : world.workers[1]? = some stream) (hconnect : world.workers[2]? = some connect)
      (hstreamKind : stream.kind = .stream) (hconnectKind : connect.kind = .connect)
      (hstreamFlight : stream.inFlight = true) (hconnectFlight : connect.inFlight = true) :
      ¬Exclusive world := by
    intro hworld
    have hdone := hworld.apart connect (List.mem_of_getElem? hconnect) stream
      (List.mem_of_getElem? hstream) hconnectKind hstreamKind hconnectFlight
    exact Bool.false_ne_true (hdone.symm.trans hstreamFlight)
  exact ⟨_, rfl, ⟨_, rfl, rfl, rfl⟩, ⟨_, rfl, rfl, rfl⟩, hboth rfl rfl rfl rfl rfl rfl⟩

end MoonlightScarlet.App
