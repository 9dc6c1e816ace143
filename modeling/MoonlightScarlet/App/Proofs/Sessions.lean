import MoonlightScarlet.App.Proofs.Workers
/-!
# Streams one after the other

A stream that starts while no older stream or cancel is in flight keeps its control,
phase, page and tracked input from the steps of the older workers.
-/

namespace MoonlightScarlet.App

open Control Gamepad Support.Runs

variable {F : Type}

/-- What a stream needs of the shared values is the same. -/
structure SameStream (world next : AppWorld F) : Prop where
  control : next.shared.streamControl = world.shared.streamControl
  phase : next.shared.phase = world.shared.phase
  page : next.shared.selectedPage = world.shared.selectedPage
  input : next.shared.remoteInput = world.shared.remoteInput
  gamepads : next.shared.remoteGamepads = world.shared.remoteGamepads

/-- Once a stream has begun, the older workers of streams and cancels leave it alone; and
while it runs, its control is there until the user cancels it. -/
structure Unclobbered [Sys.F32 F] (world : AppWorld F) : Prop where
  older : ∀ (id newer : WorkerId) (worker : Worker F) (event : Option WorkerEvent)
    (next : AppWorld F), id < newer → world.begun newer = true →
      world.workers[id]? = some worker → worker.kind ≠ .connect →
        world.step (.worker id event) = some next → SameStream world next
  control : ∀ (id : WorkerId) (worker : Worker F), world.workers[id]? = some worker →
    worker.isStreaming = true →
      world.shared.streamControl = some id ∨ world.cancelled id = true

/-- A stream is started only while no worker of a stream or a cancel is in flight. -/
def StartsAlone (world : AppWorld F) : Label F → Prop
  | .ui _ => world.startsStream = true → ∀ worker ∈ world.workers, worker.kind ≠ .connect →
      worker.inFlight = false
  | _ => True

instance (world : AppWorld F) : ∀ label : Label F, Decidable (StartsAlone world label)
  | .call _ => .isTrue trivial
  | .ui _ => inferInstanceAs (Decidable (_ → ∀ _ ∈ world.workers, _ → _))
  | .worker _ _ => .isTrue trivial

/-- No worker of a stream or a cancel is older than a stream and still in flight. -/
structure Separate (world : AppWorld F) : Prop where
  controlled : Controlled world
  later : ∀ (n id : WorkerId) (stream worker : Worker F), world.workers[n]? = some stream →
    stream.kind = .stream → world.workers[id]? = some worker → worker.kind ≠ .connect →
      worker.inFlight = true → n ≤ id
  spawning : ∀ connected application, world.ui.stage = .startSpawn connected application →
    ∀ worker ∈ world.workers, worker.kind ≠ .connect → worker.inFlight = false
  begun : ∀ n, world.begun n = true →
    ∃ stream : Worker F, world.workers[n]? = some stream ∧ stream.kind = .stream

theorem Separate.new : Separate ({} : AppWorld F) where
  controlled := Controlled.new
  later _ _ _ _ h := by simp at h
  spawning _ _ h := by cases h
  begun _ h := by cases h

theorem writesControl_of_done {id : WorkerId} {worker : Worker F} (hshaped : worker.Shaped id)
    (h : worker.kind ≠ .connect → worker.inFlight = false) : worker.writesControl = false := by
  by_cases hkind : worker.kind = .connect
  · cases hshaped with
    | other _ hnone =>
        rw [Worker.writesControl, hnone, Bool.false_or]
        obtain ⟨todo, stage⟩ := worker
        cases stage <;> first | rfl | cases hkind
    | started session => cases hkind
    | closed session result => cases hkind
  · have hdone := h hkind
    obtain ⟨todo, stage⟩ := worker
    simp only [Worker.inFlight, Bool.or_eq_false_iff, Bool.not_eq_false'] at hdone
    obtain ⟨hempty, hfinished⟩ := hdone
    rw [Worker.writesControl, List.isEmpty_iff.mp hempty]
    cases stage <;> first | rfl | cases hfinished

section Step

variable {world next : AppWorld F} {label : Label F}

theorem StartsAlone.afterControl (h : Separate world) (halone : StartsAlone world label) :
    StartsAfterControl world label := by
  cases label with
  | ui send =>
      intro hstarts worker hmem
      obtain ⟨id, hworker⟩ := List.getElem?_of_mem hmem
      exact writesControl_of_done (h.controlled.shaped id worker hworker)
        (halone hstarts worker hmem)
  | call action => exact trivial
  | worker id event => exact trivial

theorem Separate.spawned (h : Separate world) {stage : UiStage} {spawned : WorkerStage}
    (hstage : world.ui.stage = stage) (hspawns : Spawns stage spawned)
    (hkind : spawned.kind = .stream) :
    ∀ worker ∈ world.workers, worker.kind ≠ .connect → worker.inFlight = false := by
  cases hspawns with
  | connect requestedHost => cases hkind
  | start connected application => exact h.spawning connected application hstage
  | cancel connected => cases hkind

/-- A move of the user interface thread that starts a stream only when it is alone. -/
theorem Separate.moved (h : Separate world) {move : UiMove F}
    (hmoves : UiMoves world.shared world.ui.stage move)
    (hstarts : ∀ connected index, world.ui.stage = .startItems connected index →
      move.todo.any Write.isPhase = true →
        ∀ worker ∈ world.workers, worker.kind ≠ .connect → worker.inFlight = false)
    (hcontrolled : Controlled (world.move move)) : Separate (world.move move) := by
  refine ⟨hcontrolled, ?_, ?_, ?_⟩
  · intro n id stream worker hstream hkind hworker hworkerKind hflight
    rcases of_get_move hstream with hold | ⟨hlast, -, hspawned⟩
    · rcases of_get_move hworker with holdWorker | ⟨hlast, -, -⟩
      · exact h.later n id stream worker hold hkind holdWorker hworkerKind hflight
      · exact hlast ▸ Nat.le_of_lt (List.getElem?_eq_some_iff.mp hold).1
    · rcases of_get_move hworker with holdWorker | ⟨hlastWorker, -, -⟩
      · have hnone := h.spawned rfl (hmoves.spawns hspawned) hkind worker
          (List.mem_of_getElem? holdWorker) hworkerKind
        exact absurd (hnone.symm.trans hflight) Bool.false_ne_true
      · exact Nat.le_of_eq (hlast.trans hlastWorker.symm)
  · intro connected application hspawning worker hmem
    obtain ⟨index, hitems, hphase, hno⟩ := hmoves.starts hspawning
    refine hstarts connected index hitems hphase worker ?_
    simpa [AppWorld.move, hno] using hmem
  · intro n hbegun
    obtain ⟨stream, hstream, hkind⟩ := h.begun n hbegun
    exact ⟨stream, List.getElem?_append_left (List.getElem?_eq_some_iff.mp hstream).1 ▸ hstream,
      hkind⟩

variable [Sys.F32 F]

theorem Separate.worker (h : Separate world) {id : WorkerId} {event : Option WorkerEvent}
    (hmoves : Moves world (.worker id event) next) (hcontrolled : Controlled next) :
    Separate next := by
  obtain ⟨worker, worker', hstep⟩ := workerStep_of_moves hmoves
  refine ⟨hcontrolled, ?_, ?_, ?_⟩
  · intro n i stream w hstream hstreamKind hw hwKind hwFlight
    obtain ⟨oldStream, holdStream, hsameKind, -⟩ := hstep.old hstream
    obtain ⟨old, hold, hsame, hflight, -⟩ := hstep.old hw
    exact h.later n i oldStream old holdStream (hsameKind ▸ hstreamKind) hold
      (hsame ▸ hwKind) (hflight hwFlight)
  · intro connected application hstage w hmem hwKind
    obtain ⟨old, hold, hsame, hflight, -⟩ := hstep.mem_old hmem
    exact eq_false_of_imp hflight
      (h.spawning connected application (hstep.ui ▸ hstage) old hold (hsame ▸ hwKind))
  · intro n hbegun
    have hafter := hstep.after ▸ get_set_self hstep.before worker'
    rcases hstep.begun n hbegun with hbefore | ⟨rfl, hstarted⟩
    · obtain ⟨stream, hstream, hkind⟩ := h.begun n hbefore
      by_cases hsame : n = id
      · subst hsame
        obtain rfl := Option.some.inj (hstep.before.symm.trans hstream)
        exact ⟨worker', hafter, hstep.kind.trans hkind⟩
      · refine ⟨stream, ?_, hkind⟩
        rw [hstep.after, List.getElem?_set_ne fun hid => hsame hid.symm]
        exact hstream
    · refine ⟨worker', hafter, hstep.kind.trans ?_⟩
      obtain ⟨todo, stage⟩ := worker
      cases stage <;> first | rfl | cases hstarted

theorem Separate.step (h : Separate world) (halone : StartsAlone world label)
    (hstep : world.step label = some next) : Separate next := by
  have hcontrolled := h.controlled.step (halone.afterControl h) hstep
  have hmoves := moves_of_step hstep
  cases label with
  | worker id event => exact h.worker hmoves hcontrolled
  | call action =>
      cases hmoves with
      | call action htodo hstage =>
          refine h.moved (hstage ▸ .quiet _ _ (begin_quiet world.shared action)) ?_ hcontrolled
          intro connected index hitems
          rw [hstage] at hitems
          cases hitems
  | ui send =>
      cases hmoves with
      | uiWrite send write todo htodo => exact ⟨hcontrolled, h.later, h.spawning, h.begun⟩
      | uiNext send move htodo hnext =>
          refine h.moved (uiMoves_of_next hnext) ?_ hcontrolled
          exact fun connected index hitems hphase =>
            halone (startsStream_of_next htodo hnext hitems hphase)

theorem Separate.unclobbered (h : Separate world) : Unclobbered world where
  older id newer worker event next hlt hbegun hworker hkind hstep := by
    obtain ⟨stream, hstream, hstreamKind⟩ := h.begun newer hbegun
    obtain ⟨old, _, hstep⟩ := workerStep_of_moves (moves_of_step hstep)
    obtain rfl := Option.some.inj (hworker.symm.trans hstep.before)
    have hle := h.later newer id stream worker hstream hstreamKind hworker hkind hstep.inFlight
    exact absurd hlt (Nat.not_lt.mpr hle)
  control id worker hworker hstreaming :=
    h.controlled.announced id worker hworker
      (announced_of_streaming (h.controlled.shaped id worker hworker) hstreaming)

end Step

/-- In every run whose streams start while no other stream or cancel is in flight, no
older worker clobbers a stream. -/
theorem streams_unclobbered [Sys.F32 F] {labels : List (Label F)}
    (h : Meets AppWorld.step StartsAlone {} labels) : Always AppWorld.step Unclobbered {} labels :=
  Always.of_meets (fun _ _ _ hseparate halone hstep => hseparate.step halone hstep)
    (fun _ hseparate => hseparate.unclobbered) Separate.new h

/-- A stream is cancelled, and the next one starts once both workers are done. -/
theorem streams_unclobbered_cancel : Always AppWorld.step Unclobbered {}
    (connectRun ++ streamRun 1 ++ calls .cancelHostApplication 14 ++
      happens 1 (.returned (.ok ())) 7 ++ happens 2 (.cancelled (.ok desktopHost.server)) 7 ++
        streamRun 3) :=
  streams_unclobbered (by decide +kernel)

/-- A stream is cancelled and the next one starts before `stream::run` has returned to
the first worker, which then takes the control of the second. -/
theorem control_lost_to_older_stream :
    ∃ world, run AppWorld.step {} (connectRun ++ streamRun 1 ++ calls .cancelHostApplication 14 ++
        happens 2 (.cancelled (.ok desktopHost.server)) 7 ++ streamRun 3 ++
          happens 1 (.returned (.ok ())) 1) = some world ∧
      (∃ worker : Worker Rat, world.workers[3]? = some worker ∧ worker.isStreaming = true) ∧
        world.cancelled 3 = false ∧ world.shared.streamControl = none ∧ ¬Unclobbered world := by
  refine ⟨_, rfl, ⟨_, rfl, rfl⟩, rfl, rfl, fun hworld => ?_⟩
  rcases hworld.control 3 _ rfl rfl with hcontrol | hcancelled
  · cases hcontrol
  · cases hcancelled

end MoonlightScarlet.App
