import MoonlightScarlet.App.Workers
import MoonlightScarlet.Support.Runs
/-!
# Who writes the phase and the control

The steps of the threads by their effect, and the invariant of the stream control: as
long as a stream starts only after the writes of older ones to the control, the control
of a stream that runs is there until the user cancels it.
-/

namespace MoonlightScarlet.App

open Control Gamepad Support.Runs

variable {F : Type}

/-! ## Writes -/

def Write.isPhase : Write F → Bool
  | .phase _ => true
  | _ => false

def Write.isControl : Write F → Bool
  | .streamControl _ => true
  | _ => false

section

variable [Sys.F32 F] (send : Send) (shared : Shared F) {write : Write F}

theorem apply_phase (h : write.isPhase = false) :
    (write.apply send shared).phase = shared.phase := by
  cases write <;> first | rfl | cases h

theorem apply_control (h : write.isControl = false) :
    (write.apply send shared).streamControl = shared.streamControl := by
  cases write <;> first | rfl | cases h

end

theorem exists_control {todo : List (Write F)} (h : todo.any Write.isControl = true) :
    ∃ control, .streamControl control ∈ todo := by
  obtain ⟨write, hmem, hcontrol⟩ := List.any_eq_true.mp h
  cases write with
  | streamControl control => exact ⟨control, hmem⟩
  | _ => cases hcontrol

/-! ## Workers -/

/-- `started` was not called yet, or `stream::run` has not returned since. -/
def WorkerStage.isOpen : WorkerStage → Bool
  | .preparing _ _ => true
  | .starting _ => true
  | .started _ => true
  | .running _ => true
  | _ => false

def WorkerStage.isStarted : WorkerStage → Bool
  | .started _ => true
  | .running _ => true
  | _ => false

namespace Worker

/-- The worker may still write the phase. -/
def writesPhase (worker : Worker F) : Bool :=
  worker.todo.any Write.isPhase || !worker.stage.isFinished

/-- The worker may still write the control. -/
def writesControl (worker : Worker F) : Bool :=
  worker.todo.any Write.isControl || worker.stage.isOpen

/-- The worker has written its control and `stream::run` has not returned. -/
def announced (worker : Worker F) : Bool :=
  worker.stage.isStarted && !worker.todo.any Write.isControl

/-- The writes of the control come first in the `started` callback and after the end
of the stream. -/
inductive Shaped (id : WorkerId) : Worker F → Prop
  | other (worker : Worker F) (h : worker.todo.any Write.isControl = false) : Shaped id worker
  | started (session : StreamSession) : Shaped id ⟨streamStarted id, .started session⟩
  | closed (session : StreamSession) (result : Except String Unit) :
      Shaped id ⟨streamClosed, .returned session result⟩

/-- The control may name the worker. -/
inductive Holds : Worker F → Prop
  | announced (worker : Worker F) (h : worker.announced = true) : Holds worker
  | closed (session : StreamSession) (result : Except String Unit) :
      Holds ⟨streamClosed, .returned session result⟩

theorem Holds.writesControl {worker : Worker F} (h : worker.Holds) :
    worker.writesControl = true := by
  cases h with
  | announced _ h =>
      obtain ⟨todo, stage⟩ := worker
      cases stage <;> simp_all [Worker.announced, Worker.writesControl, WorkerStage.isStarted,
        WorkerStage.isOpen]
  | closed session result => rfl

end Worker

theorem announced_of_streaming {id : WorkerId} {worker : Worker F} (hshaped : worker.Shaped id)
    (h : worker.isStreaming = true) : worker.announced = true := by
  cases hshaped with
  | other _ hnone =>
      rw [Worker.announced, hnone]
      obtain ⟨todo, stage⟩ := worker
      cases stage <;> first | rfl | cases h
  | started session => cases h
  | closed session result => cases h

section Lists

variable (session : StreamSession) (phase : SessionPhase)

theorem connectProgress_control (requestedHost : String) (progress : ConnectProgress) :
    (connectProgress requestedHost progress : List (Write F)).any Write.isControl = false := by
  cases progress <;> rfl

theorem connectFinished_control (result : Except String ConnectedHost) :
    (connectFinished result : List (Write F)).any Write.isControl = false := by
  cases result <;> rfl

theorem streamResult_control (result : Except String Unit) :
    (streamResult session phase result : List (Write F)).any Write.isControl = false := by
  unfold streamResult
  split
  · split <;> rfl
  · rfl

theorem cancelFinished_control (connected : ConnectedHost) (result : Except String ServerInfo) :
    (cancelFinished connected result : List (Write F)).any Write.isControl = false := by
  cases result <;> rfl

end Lists

section Next

variable {id : WorkerId} {shared : Shared F} {stage stage' : WorkerStage}
  {event : Option WorkerEvent} {todo : List (Write F)}
  (h : stage.next id shared event = some (todo, stage'))

include h

theorem next_kind : stage'.kind = stage.kind := by
  unfold WorkerStage.next at h
  split at h <;> cases h <;> rfl

theorem next_unfinished : stage.isFinished = false := by
  unfold WorkerStage.next at h
  split at h <;> cases h <;> rfl

theorem next_shaped : Worker.Shaped id ⟨todo, stage'⟩ := by
  unfold WorkerStage.next at h
  split at h <;> cases h
  · exact .other _ (connectProgress_control ..)
  · exact .other _ (connectFinished_control _)
  · exact .other _ rfl
  · exact .other _ rfl
  · exact .other _ rfl
  · exact .started _
  · exact .closed _ _
  · exact .other _ rfl
  · exact .other _ rfl
  · exact .closed _ _
  · exact .other _ (streamResult_control ..)
  · exact .other _ (cancelFinished_control ..)

/-- A worker writes the control only in the `started` callback and after the end of
its stream. -/
theorem next_writesControl (hwrites : Worker.writesControl ⟨todo, stage'⟩ = true) :
    stage.isOpen = true := by
  unfold WorkerStage.next at h
  split at h <;> cases h
  · simp [Worker.writesControl, connectProgress_control, WorkerStage.isOpen] at hwrites
  · simp [Worker.writesControl, connectFinished_control, WorkerStage.isOpen] at hwrites
  · rfl
  · rfl
  · rfl
  · rfl
  · rfl
  · rfl
  · rfl
  · rfl
  · simp [Worker.writesControl, streamResult_control, WorkerStage.isOpen] at hwrites
  · simp [Worker.writesControl, cancelFinished_control, WorkerStage.isOpen] at hwrites

/-- A worker that is announced was so before its stage ended. -/
theorem next_announced (hannounced : Worker.announced ⟨todo, stage'⟩ = true) :
    stage.isStarted = true := by
  unfold WorkerStage.next at h
  split at h <;> cases h <;> first | rfl | cases hannounced

/-- A started worker ends its stage on its way to the end of its stream. -/
theorem next_holds (hstarted : stage.isStarted = true) : Worker.Holds ⟨todo, stage'⟩ := by
  unfold WorkerStage.next at h
  split at h <;> cases h
  all_goals first
    | exact .announced _ rfl
    | exact .closed _ _
    | cases hstarted

end Next

/-! ## The user interface thread -/

/-- The thread has passed the checks of an action, and will spawn its worker. -/
def UiStage.isCommitted : UiStage → Bool
  | .connectSpawn _ => true
  | .startSpawn _ _ => true
  | .cancelSpawn _ => true
  | _ => false

/-- The thread has found the phase to allow a cancel. -/
def UiStage.isCancelling : UiStage → Bool
  | .cancelConnected => true
  | .cancelLeave _ => true
  | .cancelControl _ => true
  | _ => false

inductive Spawns : UiStage → WorkerStage → Prop
  | connect (requestedHost : String) :
      Spawns (.connectSpawn requestedHost) (.connecting requestedHost)
  | start (connected : ConnectedHost) (application : Application) :
      Spawns (.startSpawn connected application) (.preparing connected application)
  | cancel (connected : ConnectedHost) : Spawns (.cancelSpawn connected) (.cancelling connected)

/-- A move that writes neither the phase nor the control, and commits to nothing. -/
structure UiMove.Quiet (shared : Shared F) (stage : UiStage) (move : UiMove F) : Prop where
  phase : move.todo.any Write.isPhase = false
  control : move.todo.any Write.isControl = false
  committed : move.stage.isCommitted = false
  cancelling : move.stage.isCancelling = true →
    stage.isCancelling = true ∨ shared.phase ≠ .launching
  spawn : move.spawn = none
  cancel : move.cancel = none

/-- What the user interface thread can do at the end of a stage. -/
inductive UiMoves (shared : Shared F) : UiStage → UiMove F → Prop
  | quiet (stage : UiStage) (move : UiMove F) (h : move.Quiet shared stage) :
      UiMoves shared stage move
  | emptyHost :
      UiMoves shared .connectHost { todo := [.phase .idle, .status "Enter a host first"] }
  | connect (requestedHost : String) :
      UiMoves shared (.connectPhase requestedHost)
        { todo := connectBegun requestedHost, stage := .connectSpawn requestedHost }
  | start (connected : ConnectedHost) (index : Nat) (application : Application) :
      UiMoves shared (.startItems connected index)
        { todo := startBegun application, stage := .startSpawn connected application }
  | cancel (connected : ConnectedHost) :
      UiMoves shared (.cancelControl connected)
        { todo := cancelBegun shared.streamControl
          stage := .cancelSpawn connected
          cancel := shared.streamControl }
  | spawn (stage : UiStage) (spawned : WorkerStage) (h : Spawns stage spawned) :
      UiMoves shared stage { spawn := some spawned }

theorem uiMoves_of_next {shared : Shared F} {stage : UiStage} {move : UiMove F}
    (h : stage.next shared = some move) : UiMoves shared stage move := by
  have hquiet {todo : List (Write F)} {next : UiStage} (hphase : todo.any Write.isPhase = false)
      (hcontrol : todo.any Write.isControl = false) (hnext : next.isCommitted = false)
      (hcancelling : next.isCancelling = false) (stop : Option WorkerId) :
      UiMoves shared stage { todo, stage := next, stop } :=
    .quiet _ _ ⟨hphase, hcontrol, hnext, fun h => absurd (hcancelling.symm.trans h)
      Bool.false_ne_true, rfl, rfl⟩
  cases stage with
  | idle => cases h
  | connectHost =>
      simp only [UiStage.next] at h
      split at h <;> cases h
      · exact .emptyHost
      · exact hquiet rfl rfl rfl rfl none
  | connectPhase requestedHost =>
      simp only [UiStage.next] at h
      split at h <;> cases h
      · exact hquiet rfl rfl rfl rfl none
      · exact .connect requestedHost
  | connectSpawn requestedHost =>
      cases h
      exact .spawn _ _ (.connect requestedHost)
  | startPhase =>
      simp only [UiStage.next] at h
      split at h <;> cases h <;> exact hquiet rfl rfl rfl rfl none
  | startConnected =>
      simp only [UiStage.next] at h
      split at h <;> cases h <;> exact hquiet rfl rfl rfl rfl none
  | startSelected connected =>
      simp only [UiStage.next] at h
      split at h <;> cases h <;> exact hquiet rfl rfl rfl rfl none
  | startItems connected index =>
      simp only [UiStage.next] at h
      split at h <;> cases h
      · exact hquiet rfl rfl rfl rfl none
      · exact .start connected index _
  | startSpawn connected application =>
      cases h
      exact .spawn _ _ (.start connected application)
  | cancelPhase =>
      simp only [UiStage.next] at h
      split at h <;> cases h
      · exact hquiet rfl rfl rfl rfl none
      · rename_i hphase
        exact .quiet _ _ ⟨rfl, rfl, rfl, fun _ => Or.inr fun hlaunching =>
          hphase (Or.inr (Or.inr hlaunching)), rfl, rfl⟩
  | cancelConnected =>
      simp only [UiStage.next] at h
      split at h <;> cases h
      · exact hquiet rfl rfl rfl rfl none
      · exact .quiet _ _ ⟨rfl, rfl, rfl, fun _ => Or.inl rfl, rfl, rfl⟩
  | cancelLeave connected =>
      cases h
      exact .quiet _ _ ⟨rfl, rfl, rfl, fun _ => Or.inl rfl, rfl, rfl⟩
  | cancelControl connected =>
      cases h
      exact .cancel connected
  | cancelSpawn connected =>
      cases h
      exact .spawn _ _ (.cancel connected)
  | stopLeave =>
      cases h
      exact hquiet rfl rfl rfl rfl none
  | stopControl =>
      cases h
      refine hquiet ?_ ?_ rfl rfl _ <;> cases shared.streamControl <;> rfl

namespace UiMoves

variable {shared : Shared F} {stage : UiStage} {move : UiMove F} (h : UiMoves shared stage move)

include h

theorem spawns {spawned : WorkerStage} (hspawned : move.spawn = some spawned) :
    Spawns stage spawned := by
  cases h with
  | spawn _ _ hspawns =>
      cases hspawned
      exact hspawns
  | quiet _ _ hquiet =>
      rw [hquiet.spawn] at hspawned
      cases hspawned
  | _ => cases hspawned

/-- What leads to the spawn of a stream is the end of the checks. -/
theorem starts {connected : ConnectedHost} {application : Application}
    (hstage : move.stage = .startSpawn connected application) :
    ∃ index, stage = .startItems connected index ∧ move.todo.any Write.isPhase = true ∧
      move.spawn = none := by
  cases h with
  | start _ index _ =>
      cases hstage
      exact ⟨index, rfl, rfl, rfl⟩
  | quiet _ _ hquiet =>
      have hcommitted := hquiet.committed
      rw [hstage] at hcommitted
      cases hcommitted
  | _ => cases hstage

/-- Only a cancel writes the control: it takes away the one that it finds. -/
theorem clears {control : Option WorkerId} (hmem : .streamControl control ∈ move.todo) :
    control = none ∧ move.spawn = none ∧
      ∃ id, shared.streamControl = some id ∧ move.cancel = some id := by
  cases h with
  | cancel connected =>
      cases hsome : shared.streamControl with
      | none => simp [hsome, cancelBegun] at hmem
      | some id =>
          simp only [hsome, cancelBegun, List.cons_append, List.nil_append, List.mem_cons,
            List.not_mem_nil, Write.streamControl.injEq, reduceCtorEq, or_false] at hmem
          exact ⟨hmem, rfl, id, rfl, rfl⟩
  | quiet _ _ hquiet => exact absurd rfl (List.any_eq_false.mp hquiet.control _ hmem)
  | _ => simp [connectBegun, startBegun] at hmem

end UiMoves

theorem begin_quiet (shared : Shared F) (action : UiAction F) :
    action.begin.Quiet shared .idle := by
  cases action <;> exact ⟨rfl, rfl, rfl, fun h => absurd h Bool.false_ne_true, rfl, rfl⟩

/-! ## Steps -/

/-- What one step of the world can do. -/
inductive Moves [Sys.F32 F] (world : AppWorld F) : Label F → AppWorld F → Prop
  | call (action : UiAction F) (htodo : world.ui.todo = []) (hstage : world.ui.stage = .idle) :
      Moves world (.call action) (world.move action.begin)
  | uiWrite (send : Send) (write : Write F) (todo : List (Write F))
      (htodo : world.ui.todo = write :: todo) :
      Moves world (.ui send) { world with
        shared := write.apply send world.shared, ui := { world.ui with todo } }
  | uiNext (send : Send) (move : UiMove F) (htodo : world.ui.todo = [])
      (hnext : world.ui.stage.next world.shared = some move) :
      Moves world (.ui send) (world.move move)
  | workerWrite (send : Send) (id : WorkerId) (worker : Worker F) (write : Write F)
      (todo : List (Write F)) (begun : WorkerId → Bool)
      (hworker : world.workers[id]? = some worker) (htodo : worker.todo = write :: todo)
      (hbegun : ∀ n, begun n = true →
        world.begun n = true ∨ n = id ∧ worker.stage.isStarted = true) :
      Moves world (.worker id none) { world with
        shared := write.apply send world.shared
        workers := world.workers.set id { worker with todo }
        begun }
  | workerNext (id : WorkerId) (worker : Worker F) (event : Option WorkerEvent)
      (todo : List (Write F)) (stage : WorkerStage)
      (hworker : world.workers[id]? = some worker) (htodo : worker.todo = [])
      (hnext : worker.stage.next id world.shared event = some (todo, stage)) :
      Moves world (.worker id event)
        { world with workers := world.workers.set id { todo, stage } }

section Step

variable [Sys.F32 F] {world next : AppWorld F} {label : Label F}

theorem moves_of_step (h : world.step label = some next) : Moves world label next := by
  cases label with
  | call action =>
      simp only [AppWorld.step] at h
      split at h
      · rename_i htodo hstage
        cases h
        exact .call action htodo hstage
      · cases h
  | ui send =>
      simp only [AppWorld.step, AppWorld.stepUi] at h
      split at h
      · rename_i write todo htodo
        cases h
        exact .uiWrite send write todo htodo
      · rename_i htodo
        obtain ⟨move, hnext, rfl⟩ := Option.map_eq_some_iff.mp h
        exact .uiNext send move htodo hnext
  | worker id event =>
      simp only [AppWorld.step, AppWorld.stepWorker] at h
      split at h
      · cases h
      · rename_i worker hworker
        split at h
        · rename_i write todo htodo
          cases h
          refine .workerWrite _ id worker write todo _ hworker htodo fun n hn => ?_
          split at hn
          · rename_i hbegins
            by_cases hsame : n = id
            · refine Or.inr ⟨hsame, ?_⟩
              obtain ⟨before, stage⟩ := worker
              cases stage <;> first | rfl | cases hbegins
            · rw [Function.update_of_ne hsame] at hn
              exact Or.inl hn
          · exact Or.inl hn
        · cases h
        · rename_i htodo
          obtain ⟨⟨todo, stage⟩, hnext, rfl⟩ := Option.map_eq_some_iff.mp h
          exact .workerNext id worker _ todo stage hworker htodo hnext

end Step

/-! ## Looking a worker up -/

theorem of_get_set {α : Type} {items : List α} {i j : Nat} {item found : α}
    (h : (items.set i item)[j]? = some found) :
    j = i ∧ found = item ∨ j ≠ i ∧ items[j]? = some found := by
  rw [List.getElem?_set] at h
  by_cases hij : i = j
  · rw [if_pos hij] at h
    split at h
    · exact Or.inl ⟨hij.symm, (Option.some.inj h).symm⟩
    · cases h
  · rw [if_neg hij] at h
    exact Or.inr ⟨fun hji => hij hji.symm, h⟩

theorem forall_set {α : Type} {items : List α} {i : Nat} {item : α} {P : Nat → α → Prop}
    (hitem : P i item) (hrest : ∀ j found, items[j]? = some found → P j found) (j : Nat)
    (found : α) (h : (items.set i item)[j]? = some found) : P j found := by
  rcases of_get_set h with ⟨rfl, rfl⟩ | ⟨-, hsame⟩
  · exact hitem
  · exact hrest j found hsame

/-- A worker after a move of the user interface thread is an old one or just spawned. -/
theorem of_get_move {world : AppWorld F} {move : UiMove F} {j : WorkerId} {found : Worker F}
    (h : (world.move move).workers[j]? = some found) :
    world.workers[j]? = some found ∨
      j = world.workers.length ∧ found.todo = [] ∧ move.spawn = some found.stage := by
  simp only [AppWorld.move, List.getElem?_append] at h
  split at h
  · exact Or.inl h
  · rename_i hlength
    cases hspawn : move.spawn with
    | none => simp [hspawn] at h
    | some stage =>
        rw [hspawn] at h
        simp only [Option.map_some, Option.toList_some, List.getElem?_singleton] at h
        split at h
        · rename_i hfirst
          cases h
          have hj : j = world.workers.length :=
            Nat.le_antisymm (Nat.sub_eq_zero_iff_le.mp hfirst) (Nat.le_of_not_lt hlength)
          exact Or.inr ⟨hj, rfl, rfl⟩
        · cases h

/-- What the step of a worker makes of it and of the shared values. -/
inductive Advances [Sys.F32 F] (id : WorkerId) (shared : Shared F) :
    Worker F → Shared F → Worker F → Prop
  | write (send : Send) (write : Write F) (todo : List (Write F)) (stage : WorkerStage) :
      Advances id shared ⟨write :: todo, stage⟩ (write.apply send shared) ⟨todo, stage⟩
  | next (stage : WorkerStage) (event : Option WorkerEvent) (todo : List (Write F))
      (stage' : WorkerStage) (hnext : stage.next id shared event = some (todo, stage')) :
      Advances id shared ⟨[], stage⟩ shared ⟨todo, stage'⟩

/-- A worker that takes a step was in flight, and afterwards it may do no more than before. -/
structure WorkerStep [Sys.F32 F] (world next : AppWorld F) (id : WorkerId)
    (worker worker' : Worker F) : Prop where
  advances : Advances id world.shared worker next.shared worker'
  before : world.workers[id]? = some worker
  after : next.workers = world.workers.set id worker'
  ui : next.ui = world.ui
  cancelled : next.cancelled = world.cancelled
  kind : worker'.kind = worker.kind
  inFlight : worker.inFlight = true
  writesPhase : worker'.writesPhase = true → worker.writesPhase = true
  begun : ∀ n, next.begun n = true →
    world.begun n = true ∨ n = id ∧ worker.stage.isStarted = true

theorem workerStep_of_moves [Sys.F32 F] {world next : AppWorld F} {id : WorkerId}
    {event : Option WorkerEvent} (h : Moves world (.worker id event) next) :
    ∃ worker worker' : Worker F, WorkerStep world next id worker worker' := by
  cases h with
  | workerWrite send id worker write todo begun hworker htodo hbegun =>
      obtain ⟨before, stage⟩ := worker
      cases htodo
      refine ⟨_, _, .write send write todo stage, hworker, rfl, rfl, rfl, rfl, rfl, ?_, hbegun⟩
      intro hwrites
      rw [Worker.writesPhase, Bool.or_eq_true] at hwrites
      rw [Worker.writesPhase, List.any_cons, Bool.or_eq_true, Bool.or_eq_true]
      exact hwrites.imp_left Or.inr
  | workerNext id worker event todo stage hworker htodo hnext =>
      obtain ⟨before, stage⟩ := worker
      cases htodo
      refine ⟨_, _, .next stage event todo _ hnext, hworker, rfl, rfl, rfl, next_kind hnext, ?_,
        fun _ => ?_, fun n => Or.inl⟩
      · simp [Worker.inFlight, next_unfinished hnext]
      · simp [Worker.writesPhase, next_unfinished hnext]

namespace WorkerStep

variable [Sys.F32 F] {world next : AppWorld F} {id : WorkerId} {worker worker' : Worker F}
  (h : WorkerStep world next id worker worker')

include h

theorem old {i : WorkerId} {w : Worker F} (hw : next.workers[i]? = some w) :
    ∃ old : Worker F, world.workers[i]? = some old ∧ w.kind = old.kind ∧
      (w.inFlight = true → old.inFlight = true) ∧
        (w.writesPhase = true → old.writesPhase = true) := by
  rw [h.after] at hw
  rcases of_get_set hw with ⟨rfl, rfl⟩ | ⟨-, hsame⟩
  · exact ⟨worker, h.before, h.kind, fun _ => h.inFlight, h.writesPhase⟩
  · exact ⟨w, hsame, rfl, fun hw => hw, fun hw => hw⟩

theorem mem_old {w : Worker F} (hw : w ∈ next.workers) :
    ∃ old ∈ world.workers, w.kind = old.kind ∧ (w.inFlight = true → old.inFlight = true) ∧
      (w.writesPhase = true → old.writesPhase = true) := by
  obtain ⟨i, hi⟩ := List.getElem?_of_mem hw
  obtain ⟨old, hold, hrest⟩ := h.old hi
  exact ⟨old, List.mem_of_getElem? hold, hrest⟩

end WorkerStep

theorem eq_false_of_imp {a b : Bool} (h : a = true → b = true) (hb : b = false) : a = false :=
  Bool.eq_false_iff.mpr (mt h (Bool.eq_false_iff.mp hb))

theorem mark_of_marked {marked : WorkerId → Bool} {id : WorkerId} (h : marked id = true)
    (added : Option WorkerId) : mark marked added id = true := by
  cases added with
  | none => exact h
  | some other =>
      by_cases hsame : id = other
      · rw [mark, hsame, Function.update_self]
      · rw [mark, Function.update_of_ne hsame, h]

/-! ## The control -/

/-- The user interface thread has checked everything and is about to write the phase. -/
def AppWorld.commits (world : AppWorld F) : Bool :=
  world.ui.todo.isEmpty &&
    (world.ui.stage.next world.shared).any fun move => move.todo.any Write.isPhase

/-- `start_selected_application` is about to go ahead. -/
def AppWorld.startsStream (world : AppWorld F) : Bool :=
  world.commits &&
    match world.ui.stage with
    | .startItems _ _ => true
    | _ => false

theorem commits_of_next {world : AppWorld F} {move : UiMove F} (htodo : world.ui.todo = [])
    (hnext : world.ui.stage.next world.shared = some move)
    (hphase : move.todo.any Write.isPhase = true) : world.commits = true := by
  rw [AppWorld.commits, htodo, hnext, Option.any_some, hphase]
  rfl

theorem startsStream_of_next {world : AppWorld F} {move : UiMove F} {connected : ConnectedHost}
    {index : Nat} (htodo : world.ui.todo = [])
    (hnext : world.ui.stage.next world.shared = some move)
    (hstage : world.ui.stage = .startItems connected index)
    (hphase : move.todo.any Write.isPhase = true) : world.startsStream = true := by
  rw [AppWorld.startsStream, commits_of_next htodo hnext hphase, hstage]
  rfl

/-- `connect` is about to go ahead, if only to say that the host is missing. -/
def AppWorld.connectsHost (world : AppWorld F) : Bool :=
  world.commits &&
    match world.ui.stage with
    | .connectHost => true
    | .connectPhase _ => true
    | _ => false

theorem connectsHost_of_next {world : AppWorld F} {move : UiMove F} (htodo : world.ui.todo = [])
    (hnext : world.ui.stage.next world.shared = some move)
    (hstage : (match world.ui.stage with
      | .connectHost => true
      | .connectPhase _ => true
      | _ => false) = true)
    (hphase : move.todo.any Write.isPhase = true) : world.connectsHost = true := by
  rw [AppWorld.connectsHost, commits_of_next htodo hnext hphase]
  exact hstage

/-- A stream is started only after the last write of any worker to the control. -/
def StartsAfterControl (world : AppWorld F) : Label F → Prop
  | .ui _ => world.startsStream = true → ∀ worker ∈ world.workers, worker.writesControl = false
  | _ => True

/-- The invariant of the control. -/
structure Controlled (world : AppWorld F) : Prop where
  shaped : ∀ (id : WorkerId) (worker : Worker F), world.workers[id]? = some worker →
    worker.Shaped id
  unique : ∀ (i j : WorkerId) (w v : Worker F), world.workers[i]? = some w →
    world.workers[j]? = some v → w.writesControl = true → v.writesControl = true → i = j
  spawning : ∀ connected application, world.ui.stage = .startSpawn connected application →
    ∀ worker ∈ world.workers, worker.writesControl = false
  holder : ∀ id, world.shared.streamControl = some id →
    ∃ worker, world.workers[id]? = some worker ∧ worker.Holds
  announced : ∀ (id : WorkerId) (worker : Worker F), world.workers[id]? = some worker →
    worker.announced = true → world.shared.streamControl = some id ∨ world.cancelled id = true
  clearing : world.ui.todo.any Write.isControl = true → ∀ (id : WorkerId) (worker : Worker F),
    world.workers[id]? = some worker → worker.writesControl = true → world.cancelled id = true
  clears : ∀ control, .streamControl control ∈ world.ui.todo → control = none

theorem Controlled.new : Controlled ({} : AppWorld F) where
  shaped _ _ h := by simp at h
  unique _ _ _ _ h := by simp at h
  spawning _ _ h := by cases h
  holder _ h := by cases h
  announced _ _ h := by simp at h
  clearing h := by cases h
  clears _ h := by simp at h

section Write

variable {id : WorkerId} {worker : Worker F} {write : Write F} {todo : List (Write F)}
  (htodo : worker.todo = write :: todo)

include htodo

theorem writesControl_of_rest (h : Worker.writesControl { worker with todo } = true) :
    worker.writesControl = true := by
  rw [Worker.writesControl, Bool.or_eq_true] at h
  rw [Worker.writesControl, htodo, List.any_cons, Bool.or_eq_true, Bool.or_eq_true]
  exact h.imp_left Or.inr

/-- A write of a worker leaves the control alone, or opens it or closes it. -/
theorem shaped_write (h : worker.Shaped id) :
    Worker.Shaped id { worker with todo } ∧
      (write.isControl = false ∨ write = .streamControl (some id) ∧
          Worker.announced { worker with todo } = true ∨
        write = .streamControl none ∧ worker.stage.isStarted = false) := by
  cases h with
  | other _ hnone =>
      rw [htodo, List.any_cons, Bool.or_eq_false_iff] at hnone
      exact ⟨.other _ hnone.2, Or.inl hnone.1⟩
  | started session =>
      cases htodo
      exact ⟨.other _ rfl, Or.inr (Or.inl ⟨rfl, rfl⟩)⟩
  | closed session result =>
      cases htodo
      exact ⟨.other _ rfl, Or.inr (Or.inr ⟨rfl, rfl⟩)⟩

theorem announced_of_rest (hcontrol : write.isControl = false) :
    Worker.announced { worker with todo } = worker.announced := by
  rw [Worker.announced, Worker.announced, htodo, List.any_cons, hcontrol, Bool.false_or]

theorem holds_write (h : worker.Holds) (hcontrol : write.isControl = false) :
    Worker.Holds { worker with todo } := by
  cases h with
  | announced _ h => exact .announced _ ((announced_of_rest htodo hcontrol).trans h)
  | closed session result =>
      cases htodo
      cases hcontrol

end Write

theorem get_set_self {α : Type} {items : List α} {i : Nat} {old : α} (h : items[i]? = some old)
    (item : α) : (items.set i item)[i]? = some item :=
  List.getElem?_set_self (List.getElem?_eq_some_iff.mp h).1

section Preserved

variable {world : AppWorld F} (h : Controlled world)

include h

/-- The step of one worker that leaves the control alone. -/
theorem Controlled.replace {id : WorkerId} {worker worker' : Worker F} {shared : Shared F}
    (begun : WorkerId → Bool) (hworker : world.workers[id]? = some worker)
    (hcontrol : shared.streamControl = world.shared.streamControl)
    (hshaped : worker'.Shaped id)
    (hwrites : worker'.writesControl = true → worker.writesControl = true)
    (hholds : worker.Holds → worker'.Holds)
    (hannounced : worker'.announced = true → worker.announced = true) :
    Controlled { world with shared, workers := world.workers.set id worker', begun } := by
  have hold (i : WorkerId) (w : Worker F) (hw : (world.workers.set id worker')[i]? = some w) :
      ∃ old : Worker F, world.workers[i]? = some old ∧
        (w.writesControl = true → old.writesControl = true) ∧
          (w.announced = true → old.announced = true) := by
    rcases of_get_set hw with ⟨rfl, rfl⟩ | ⟨-, hsame⟩
    · exact ⟨worker, hworker, hwrites, hannounced⟩
    · exact ⟨w, hsame, fun hw => hw, fun hw => hw⟩
  refine ⟨forall_set hshaped h.shaped, ?_, ?_, ?_, ?_, ?_, h.clears⟩
  · intro i j w v hw hv hwritesw hwritesv
    obtain ⟨oldw, holdw, hwbefore, -⟩ := hold i w hw
    obtain ⟨oldv, holdv, hvbefore, -⟩ := hold j v hv
    exact h.unique i j oldw oldv holdw holdv (hwbefore hwritesw) (hvbefore hwritesv)
  · intro connected application hstage w hw
    rcases List.mem_or_eq_of_mem_set hw with hmem | rfl
    · exact h.spawning connected application hstage w hmem
    · exact eq_false_of_imp hwrites
        (h.spawning connected application hstage worker (List.mem_of_getElem? hworker))
  · intro i hi
    obtain ⟨w, hw, hwholds⟩ := h.holder i (hcontrol ▸ hi)
    by_cases hsame : i = id
    · subst hsame
      obtain rfl := Option.some.inj (hworker.symm.trans hw)
      exact ⟨worker', get_set_self hworker worker', hholds hwholds⟩
    · refine ⟨w, ?_, hwholds⟩
      rw [List.getElem?_set_ne fun hid => hsame hid.symm]
      exact hw
  · intro i w hw hwannounced
    obtain ⟨old, hold, -, hbefore⟩ := hold i w hw
    rw [hcontrol]
    exact h.announced i old hold (hbefore hwannounced)
  · intro htodo i w hw hwritesw
    obtain ⟨old, hold, hbefore, -⟩ := hold i w hw
    exact h.clearing htodo i old hold (hbefore hwritesw)

/-- A worker writes its control, or the end of it: no other worker has one to lose. -/
theorem Controlled.replace_control {id : WorkerId} {worker worker' : Worker F}
    {shared : Shared F} (begun : WorkerId → Bool) (hworker : world.workers[id]? = some worker)
    (hshaped : worker'.Shaped id) (hbefore : worker.writesControl = true)
    (hcontrol : shared.streamControl = some id ∧ worker'.announced = true ∨
      shared.streamControl = none ∧ worker'.announced = false) :
    Controlled { world with shared, workers := world.workers.set id worker', begun } := by
  have hother (i : WorkerId) (w : Worker F) (hw : (world.workers.set id worker')[i]? = some w)
      (hwrites : w.writesControl = true) : i = id := by
    rcases of_get_set hw with ⟨hid, -⟩ | ⟨-, hsame⟩
    · exact hid
    · exact h.unique i id w worker hsame hworker hwrites hbefore
  refine ⟨forall_set hshaped h.shaped, ?_, ?_, ?_, ?_, ?_, h.clears⟩
  · intro i j w v hw hv hwritesw hwritesv
    exact (hother i w hw hwritesw).trans (hother j v hv hwritesv).symm
  · intro connected application hstage
    have hnone := h.spawning connected application hstage worker (List.mem_of_getElem? hworker)
    exact absurd (hnone.symm.trans hbefore) Bool.false_ne_true
  · intro i hi
    rcases hcontrol with ⟨hsome, hannounced⟩ | ⟨hnone, -⟩
    · obtain rfl := Option.some.inj (hsome.symm.trans hi)
      exact ⟨worker', get_set_self hworker worker', .announced _ hannounced⟩
    · rw [hnone] at hi
      cases hi
  · intro i w hw hwannounced
    obtain rfl := hother i w hw (Worker.Holds.announced w hwannounced).writesControl
    rcases hcontrol with ⟨hsome, -⟩ | ⟨-, hnot⟩
    · exact Or.inl hsome
    · obtain rfl := Option.some.inj ((get_set_self hworker worker').symm.trans hw)
      exact absurd (hnot.symm.trans hwannounced) Bool.false_ne_true
  · intro htodo i w hw hwritesw
    obtain rfl := hother i w hw hwritesw
    exact h.clearing htodo i worker hworker hbefore

theorem Controlled.workerNext {id : WorkerId} {worker : Worker F} {event : Option WorkerEvent}
    {todo : List (Write F)} {stage : WorkerStage} (hworker : world.workers[id]? = some worker)
    (htodo : worker.todo = [])
    (hnext : worker.stage.next id world.shared event = some (todo, stage)) :
    Controlled { world with workers := world.workers.set id { todo, stage } } := by
  refine h.replace world.begun hworker rfl (next_shaped hnext) ?_ ?_ ?_
  · intro hwrites
    rw [Worker.writesControl, next_writesControl hnext hwrites, Bool.or_true]
  · intro hholds
    cases hholds with
    | announced _ hannounced =>
        rw [Worker.announced, Bool.and_eq_true] at hannounced
        exact next_holds hnext hannounced.1
    | closed session result => cases htodo
  · intro hannounced
    rw [Worker.announced, next_announced hnext hannounced, htodo]
    rfl

theorem Controlled.spawned {stage : UiStage} {spawned : WorkerStage}
    (hstage : world.ui.stage = stage) (hspawns : Spawns stage spawned) :
    spawned.isStarted = false ∧
      (spawned.isOpen = true → ∀ worker ∈ world.workers, worker.writesControl = false) := by
  cases hspawns with
  | connect requestedHost => exact ⟨rfl, fun hopen => by cases hopen⟩
  | start connected application => exact ⟨rfl, fun _ => h.spawning connected application hstage⟩
  | cancel connected => exact ⟨rfl, fun hopen => by cases hopen⟩

/-- A move of the user interface thread that starts a stream only after the writes to the
control. -/
theorem Controlled.moved {move : UiMove F} (hmoves : UiMoves world.shared world.ui.stage move)
    (hstarts : ∀ connected index, world.ui.stage = .startItems connected index →
      move.todo.any Write.isPhase = true →
        ∀ worker ∈ world.workers, worker.writesControl = false) :
    Controlled (world.move move) := by
  have hspawns {spawned : WorkerStage} (hspawn : move.spawn = some spawned) :=
    h.spawned rfl (hmoves.spawns hspawn)
  have hnew {i : WorkerId} {w : Worker F} (hw : (world.move move).workers[i]? = some w)
      (hwrites : w.writesControl = true) : world.workers[i]? = some w ∨
        i = world.workers.length ∧ ∀ worker ∈ world.workers, worker.writesControl = false := by
    rcases of_get_move hw with hold | ⟨hlast, htodo, hspawn⟩
    · exact Or.inl hold
    · rw [Worker.writesControl, htodo] at hwrites
      exact Or.inr ⟨hlast, (hspawns hspawn).2 hwrites⟩
  have hnone {i : WorkerId} {w : Worker F} (hw : world.workers[i]? = some w)
      (hwrites : w.writesControl = true)
      (hall : ∀ worker ∈ world.workers, worker.writesControl = false) : False :=
    Bool.false_ne_true ((hall w (List.mem_of_getElem? hw)).symm.trans hwrites)
  refine ⟨?_, ?_, ?_, ?_, ?_, ?_, fun control hmem => (hmoves.clears hmem).1⟩
  · intro i w hw
    rcases of_get_move hw with hold | ⟨-, htodo, -⟩
    · exact h.shaped i w hold
    · exact .other w (by rw [htodo]; rfl)
  · intro i j w v hw hv hwritesw hwritesv
    rcases hnew hw hwritesw with holdw | ⟨hlastw, hall⟩
    · rcases hnew hv hwritesv with holdv | ⟨-, hall⟩
      · exact h.unique i j w v holdw holdv hwritesw hwritesv
      · exact (hnone holdw hwritesw hall).elim
    · rcases hnew hv hwritesv with holdv | ⟨hlastv, -⟩
      · exact (hnone holdv hwritesv hall).elim
      · exact hlastw.trans hlastv.symm
  · intro connected application hspawning worker hmem
    obtain ⟨index, hitems, hphase, hno⟩ := hmoves.starts hspawning
    refine hstarts connected index hitems hphase worker ?_
    simpa [AppWorld.move, hno] using hmem
  · intro i hi
    obtain ⟨w, hw, hholds⟩ := h.holder i hi
    exact ⟨w, List.getElem?_append_left (List.getElem?_eq_some_iff.mp hw).1 ▸ hw, hholds⟩
  · intro i w hw hannounced
    rcases of_get_move hw with hold | ⟨-, -, hspawn⟩
    · exact (h.announced i w hold hannounced).imp_right fun hcancelled =>
        mark_of_marked hcancelled move.cancel
    · rw [Worker.announced, (hspawns hspawn).1] at hannounced
      cases hannounced
  · -- The control that a cancel finds is that of the only worker that may still write it.
    intro hcontrol i w hw hwrites
    obtain ⟨control, hmem⟩ := exists_control hcontrol
    obtain ⟨-, hno, holder, hsome, hcancel⟩ := hmoves.clears hmem
    obtain ⟨v, hv, hholds⟩ := h.holder holder hsome
    have hold : world.workers[i]? = some w := by simpa [AppWorld.move, hno] using hw
    obtain rfl := h.unique i holder w v hold hv hwrites hholds.writesControl
    exact (congrArg (mark world.cancelled · i) hcancel).trans (Function.update_self ..)

variable [Sys.F32 F]

/-- A write of the user interface thread to the control is the end of a cancelled stream. -/
theorem Controlled.uiWrite {write : Write F} {todo : List (Write F)} (send : Send)
    (htodo : world.ui.todo = write :: todo) :
    Controlled { world with
      shared := write.apply send world.shared, ui := { world.ui with todo } } := by
  have hclears : ∀ control, .streamControl control ∈ todo → control = none := fun control hmem =>
    h.clears control (htodo ▸ List.mem_cons_of_mem _ hmem)
  have hclearing (hany : todo.any Write.isControl = true) (id : WorkerId) (worker : Worker F)
      (hworker : world.workers[id]? = some worker) (hwrites : worker.writesControl = true) :
      world.cancelled id = true :=
    h.clearing (by rw [htodo, List.any_cons, hany, Bool.or_true]) id worker hworker hwrites
  cases hcontrol : write.isControl with
  | false =>
      have hsame := apply_control send world.shared hcontrol
      refine ⟨h.shaped, h.unique, h.spawning, ?_, ?_, hclearing, hclears⟩
      · exact fun id hid => h.holder id (hsame ▸ hid)
      · exact fun id worker hworker hannounced =>
          (h.announced id worker hworker hannounced).imp_left fun hid => hsame.trans hid
  | true =>
      have hnone : (write.apply send world.shared).streamControl = none := by
        cases write with
        | streamControl control => exact h.clears control (htodo ▸ List.mem_cons_self)
        | _ => cases hcontrol
      refine ⟨h.shaped, h.unique, h.spawning, ?_, ?_, hclearing, hclears⟩
      · intro id hid
        rw [hnone] at hid
        cases hid
      · intro id worker hworker hannounced
        have hany : world.ui.todo.any Write.isControl = true := by
          rw [htodo, List.any_cons, hcontrol, Bool.true_or]
        exact Or.inr (h.clearing hany id worker hworker
          (Worker.Holds.announced worker hannounced).writesControl)

theorem Controlled.workerWrite {id : WorkerId} {worker : Worker F} {write : Write F}
    {todo : List (Write F)} (send : Send) (begun : WorkerId → Bool)
    (hworker : world.workers[id]? = some worker) (htodo : worker.todo = write :: todo) :
    Controlled { world with
      shared := write.apply send world.shared
      workers := world.workers.set id { worker with todo }
      begun } := by
  obtain ⟨hshaped, hcontrol | ⟨rfl, hannounced⟩ | ⟨rfl, hstarted⟩⟩ :=
    shaped_write htodo (h.shaped id worker hworker)
  · refine h.replace begun hworker (apply_control send world.shared hcontrol) hshaped
      (writesControl_of_rest htodo) (fun hholds => holds_write htodo hholds hcontrol) ?_
    rw [announced_of_rest htodo hcontrol]
    exact fun hannounced => hannounced
  · refine h.replace_control begun hworker hshaped ?_ (Or.inl ⟨rfl, hannounced⟩)
    simp [Worker.writesControl, htodo, Write.isControl]
  · refine h.replace_control begun hworker hshaped ?_ (Or.inr ⟨rfl, ?_⟩)
    · simp [Worker.writesControl, htodo, Write.isControl]
    · simp [Worker.announced, hstarted]

theorem Controlled.step {label : Label F} {next : AppWorld F}
    (hstarts : StartsAfterControl world label) (hstep : world.step label = some next) :
    Controlled next := by
  cases moves_of_step hstep with
  | call action htodo hstage =>
      refine h.moved (hstage ▸ .quiet _ _ (begin_quiet world.shared action)) ?_
      intro connected index hitems
      rw [hstage] at hitems
      cases hitems
  | uiWrite send write todo htodo => exact h.uiWrite send htodo
  | uiNext send move htodo hnext =>
      exact h.moved (uiMoves_of_next hnext) fun connected index hitems hphase =>
        hstarts (startsStream_of_next htodo hnext hitems hphase)
  | workerWrite send id worker write todo begun hworker htodo hbegun =>
      exact h.workerWrite send begun hworker htodo
  | workerNext id worker event todo stage hworker htodo hnext =>
      exact h.workerNext hworker htodo hnext

end Preserved

/-! ## Schedules -/

def desktop : Application := { id := 1, title := "Desktop" }

def desktopHost : ConnectedHost where
  endpoint := { host := "pc", httpPort := 47989 }
  server :=
    { hostname := "pc", uniqueId := "0", appVersion := "7.1.431.0", gfeVersion := none
      serverCodecModeSupport := 1, httpsPort := 47984, paired := true, currentGame := 0
      state := "SUNSHINE_SERVER_FREE" }
  applications := [desktop]
  newlyPaired := false

def desktopSession : StreamSession where
  endpoint := desktopHost.endpoint
  server := { desktopHost.server with currentGame := 1 }
  application := desktop
  config := {}
  sessionUrl := "rtsp://pc:48010"
  remoteInputAesKey := Vector.replicate 16 0
  remoteInputAesIv := Vector.replicate 16 0
  resumed := false

/-- A call of the user, and the steps of the thread that follow. -/
def calls (action : UiAction Rat) (steps : Nat) : List (Label Rat) :=
  .call action :: List.replicate steps (.ui fun _ _ => .ok ())

/-- An event that a worker waits for, and the steps of the worker that follow. -/
def happens (id : WorkerId) (event : WorkerEvent) (steps : Nat) : List (Label Rat) :=
  .worker id (some event) :: List.replicate steps (.worker id none)

/-- Worker 0 connects to the host, and the user selects the first application. -/
def connectRun : List (Label Rat) :=
  calls (.enterHost "pc") 1 ++ calls .connect 13 ++ happens 0 (.connected (.ok desktopHost)) 9 ++
    calls (.selectApplication 0) 1

/-- Worker `id` starts the application and streams it. -/
def streamRun (id : WorkerId) : List (Label Rat) :=
  calls .startSelectedApplication 12 ++ happens id (.session (.ok desktopSession)) 4 ++
    happens id .started 4

end MoonlightScarlet.App
