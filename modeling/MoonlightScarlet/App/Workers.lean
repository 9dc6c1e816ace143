import MoonlightScarlet.App.Window
import MoonlightScarlet.Control.Endpoint
import MoonlightScarlet.Control.Session
/-!
# The user interface thread and its workers

The actions that connect to a host, start an application, cancel it and stop its stream
run on the user interface thread; all but the last spawn a worker.  The threads share
the `State` values: a `get` or a `set` is one step, and a thread does the writes of its
`todo` list before it goes on from its stage.
-/

namespace MoonlightScarlet.App

open Control Gamepad

variable {F : Type}

def computersPage : Nat := 0

inductive SessionPhase
  | idle
  | connecting
  | pairing
  | ready
  | launching
  | sessionPrepared
  | streaming
  | failed (message : String)
  deriving DecidableEq, Repr

/-- Workers are numbered in the order in which they are spawned. -/
abbrev WorkerId := Nat

/-- The values that the threads share.  `streamControl` names the worker whose stream
the control belongs to. -/
structure Shared (F : Type) where
  host : String := ""
  phase : SessionPhase := .idle
  status : String := "Enter a Sunshine host"
  pairing : String := ""
  applications : String := ""
  applicationItems : List Application := []
  selectedApplication : Option Nat := none
  connectedHost : Option ConnectedHost := none
  preparedSession : Option StreamSession := none
  sessionDetails : String := ""
  selectedPage : Nat := computersPage
  streamControl : Option WorkerId := none
  remoteInput : PressedInput F := {}
  remoteGamepads : Gamepads := {}
  streamInputFocused : Bool := false
  pointerLockDesired : Bool := false
  fullscreenDesired : Bool := false
  windowTitle : String := defaultWindowTitle

/-- One `set`, or one call that changes the tracked input. -/
inductive Write (F : Type)
  | host (text : String)
  | phase (value : SessionPhase)
  | status (text : String)
  | pairing (text : String)
  | applications (text : String)
  | applicationItems (items : List Application)
  | selectedApplication (index : Option Nat)
  | connectedHost (connected : Option ConnectedHost)
  | preparedSession (session : Option StreamSession)
  | sessionDetails (url : String)
  | selectedPage (page : Nat)
  | streamControl (control : Option WorkerId)
  | streamInputFocused (focused : Bool)
  | pointerLockDesired (desired : Bool)
  | fullscreenDesired (desired : Bool)
  | windowTitle (title : String)
  | tracked (remoteInput : PressedInput F) (remoteGamepads : Gamepads)
  | resetInput
  | resetGamepads
  | releaseInput
  | releaseGamepads (control : Option WorkerId)

/-- `send` is how the connection answers the packets of a release.  What `release_all`
leaves tracked of the keys and buttons does not depend on the control. -/
def Write.apply [Sys.F32 F] (send : Send) (shared : Shared F) : Write F → Shared F
  | .host text => { shared with host := text }
  | .phase value => { shared with phase := value }
  | .status text => { shared with status := text }
  | .pairing text => { shared with pairing := text }
  | .applications text => { shared with applications := text }
  | .applicationItems items => { shared with applicationItems := items }
  | .selectedApplication index => { shared with selectedApplication := index }
  | .connectedHost connected => { shared with connectedHost := connected }
  | .preparedSession session => { shared with preparedSession := session }
  | .sessionDetails url => { shared with sessionDetails := url }
  | .selectedPage page => { shared with selectedPage := page }
  | .streamControl control => { shared with streamControl := control }
  | .streamInputFocused focused => { shared with streamInputFocused := focused }
  | .pointerLockDesired desired => { shared with pointerLockDesired := desired }
  | .fullscreenDesired desired => { shared with fullscreenDesired := desired }
  | .windowTitle title => { shared with windowTitle := title }
  | .tracked remoteInput remoteGamepads => { shared with remoteInput, remoteGamepads }
  | .resetInput => { shared with remoteInput := {} }
  | .resetGamepads => { shared with remoteGamepads := shared.remoteGamepads.resetSession }
  | .releaseInput =>
      { shared with remoteInput := ((shared.remoteInput.releaseAll none).run {}).1.2 }
  | .releaseGamepads control =>
      { shared with
        remoteGamepads := (shared.remoteGamepads.releaseAll (control.map fun _ => send)).pads }

def formatWindowTitle (gameTitle : Option String) : String :=
  match gameTitle with
  | none => defaultWindowTitle
  | some title => s!"{title} - {defaultWindowTitle}"

/-! ## Workers -/

inductive ConnectProgress
  | fetchingServerInfo
  | waitingForPin (pin : String)
  | pairingStage (stage : Nat)
  | fetchingApplications

inductive WorkerKind
  | connect
  | stream
  | cancel
  deriving DecidableEq, Repr

/-- Where a worker goes on after its writes. -/
inductive WorkerStage
  /-- In `client.connect`. -/
  | connecting (requestedHost : String)
  /-- In `client.start_session`. -/
  | preparing (connected : ConnectedHost) (application : Application)
  /-- In `stream::run`, before it calls `started`. -/
  | starting (session : StreamSession)
  /-- In the callback `started`. -/
  | started (session : StreamSession)
  /-- In `stream::run`, after `started` has returned. -/
  | running (session : StreamSession)
  /-- `stream::run` has returned. -/
  | returned (session : StreamSession) (result : Except String Unit)
  /-- In `client.cancel`. -/
  | cancelling (connected : ConnectedHost)
  | finished (kind : WorkerKind)

def WorkerStage.kind : WorkerStage → WorkerKind
  | .connecting _ => .connect
  | .preparing _ _ => .stream
  | .starting _ => .stream
  | .started _ => .stream
  | .running _ => .stream
  | .returned _ _ => .stream
  | .cancelling _ => .cancel
  | .finished kind => kind

/-- What the network or the stream does while a worker waits for it. -/
inductive WorkerEvent
  | progress (progress : ConnectProgress)
  | connected (result : Except String ConnectedHost)
  | session (result : Except String StreamSession)
  | message (text : String)
  | started
  | returned (result : Except String Unit)
  | cancelled (result : Except String ServerInfo)

def connectProgress (requestedHost : String) : ConnectProgress → List (Write F)
  | .fetchingServerInfo => [.phase .connecting, .status s!"Contacting {requestedHost}"]
  | .waitingForPin pin =>
      [.phase .pairing, .pairing s!"Enter PIN {pin} on the Sunshine host",
        .status "Waiting for Sunshine to accept pairing"]
  | .pairingStage stage => [.phase .pairing, .status s!"Pairing stage {stage}/5"]
  | .fetchingApplications => [.status "Loading applications"]

def failure (message : String) : List (Write F) := [.status message, .phase (.failed message)]

def connectFinished : Except String ConnectedHost → List (Write F)
  | .ok connected =>
      let appCount := connected.applications.length
      let hostname := connected.server.hostname
      let runningTitle := (connected.applications.find? fun application =>
        application.id == connected.server.currentGame).map Application.title
      let appText :=
        if connected.applications.isEmpty then "No applications advertised by Sunshine"
        else "\n".intercalate (connected.applications.map fun application =>
          s!"{application.id}  ·  {application.title}")
      [.pairing "", .applications appText, .applicationItems connected.applications,
        .selectedApplication none, .windowTitle (formatWindowTitle runningTitle),
        .connectedHost (some connected),
        .status s!"Connected to {hostname} — {appCount} application(s)",
        .phase .ready, .selectedPage computersPage]
  | .error message => failure message

def sessionPrepared (connected : ConnectedHost) (session : StreamSession) : List (Write F) :=
  [.windowTitle (formatWindowTitle (some session.application.title)),
    .connectedHost (some { connected with server := session.server }),
    .sessionDetails session.sessionUrl, .preparedSession (some session)]

def streamStarted (id : WorkerId) : List (Write F) :=
  [.streamControl (some id), .phase .streaming, .selectedPage streamPage]

/-- `stream_control.set(None)` and `reset_stream_window_state`. -/
def streamClosed : List (Write F) :=
  [.streamControl none, .resetInput, .resetGamepads, .pointerLockDesired false,
    .fullscreenDesired false, .streamInputFocused false]

/-- The arms of `match stream_result`. -/
def streamResult (session : StreamSession) (phase : SessionPhase) :
    Except String Unit → List (Write F)
  | .ok () =>
      if phase = .streaming then
        [.status s!"Stream stopped; {session.application.title} remains open on the host",
          .phase .sessionPrepared, .selectedPage gamesPage]
      else []
  | .error message => failure message ++ [.selectedPage gamesPage]

def cancelFinished (connected : ConnectedHost) : Except String ServerInfo → List (Write F)
  | .ok server =>
      [.connectedHost (some { connected with server }), .preparedSession none,
        .sessionDetails "", .windowTitle defaultWindowTitle,
        .status "Host application stopped", .phase .ready, .selectedPage gamesPage]
  | .error message => failure message

/-- The next writes and stage of a worker whose writes are done. -/
def WorkerStage.next (id : WorkerId) (shared : Shared F) :
    WorkerStage → Option WorkerEvent → Option (List (Write F) × WorkerStage)
  | .connecting requestedHost, some (.progress progress) =>
      some (connectProgress requestedHost progress, .connecting requestedHost)
  | .connecting _, some (.connected result) => some (connectFinished result, .finished .connect)
  | .preparing connected _, some (.session (.ok session)) =>
      some (sessionPrepared connected session, .starting session)
  | .preparing _ _, some (.session (.error message)) => some (failure message, .finished .stream)
  | .starting session, some (.message text) => some ([.status text], .starting session)
  | .starting session, some .started => some (streamStarted id, .started session)
  | .starting session, some (.returned result) => some (streamClosed, .returned session result)
  | .started session, none => some ([], .running session)
  | .running session, some (.message text) => some ([.status text], .running session)
  | .running session, some (.returned result) => some (streamClosed, .returned session result)
  | .returned session result, none =>
      some (streamResult session shared.phase result, .finished .stream)
  | .cancelling connected, some (.cancelled result) =>
      some (cancelFinished connected result, .finished .cancel)
  | _, _ => none

def WorkerStage.isFinished : WorkerStage → Bool
  | .finished _ => true
  | _ => false

structure Worker (F : Type) where
  todo : List (Write F) := []
  stage : WorkerStage

def Worker.kind (worker : Worker F) : WorkerKind := worker.stage.kind

/-- The `started` callback has made its writes and is about to return. -/
def Worker.hasBegun (worker : Worker F) : Bool :=
  match worker.stage with
  | .started _ => worker.todo.isEmpty
  | _ => false

/-- From the last write of the `started` callback until `stream::run` returns. -/
def Worker.isStreaming (worker : Worker F) : Bool :=
  match worker.stage with
  | .running _ => true
  | _ => worker.hasBegun

def Worker.inFlight (worker : Worker F) : Bool :=
  !worker.todo.isEmpty || !worker.stage.isFinished

/-! ## The user interface thread -/

inductive UiAction (F : Type)
  | connect
  | startSelectedApplication
  | cancelHostApplication
  | stopStream
  | enterHost (text : String)
  | selectApplication (index : Nat)
  | openPage (page : Nat)
  /-- A handler of input, which may track anything. -/
  | handleInput (remoteInput : PressedInput F) (remoteGamepads : Gamepads)

/-- Where the user interface thread goes on after its writes. -/
inductive UiStage
  | idle
  | connectHost
  | connectPhase (requestedHost : String)
  | connectSpawn (requestedHost : String)
  | startPhase
  | startConnected
  | startSelected (connected : ConnectedHost)
  | startItems (connected : ConnectedHost) (selectedIndex : Nat)
  | startSpawn (connected : ConnectedHost) (application : Application)
  | cancelPhase
  | cancelConnected
  | cancelLeave (connected : ConnectedHost)
  | cancelControl (connected : ConnectedHost)
  | cancelSpawn (connected : ConnectedHost)
  | stopLeave
  | stopControl

/-- What the user interface thread does at the end of a stage: the writes and the stage
that follow, a worker that it spawns, and a stream that it asks to stop. -/
structure UiMove (F : Type) where
  todo : List (Write F) := []
  stage : UiStage := .idle
  spawn : Option WorkerStage := none
  stop : Option WorkerId := none
  cancel : Option WorkerId := none

def UiAction.begin : UiAction F → UiMove F
  | .connect => { stage := .connectHost }
  | .startSelectedApplication => { stage := .startPhase }
  | .cancelHostApplication => { stage := .cancelPhase }
  | .stopStream => { stage := .stopLeave }
  | .enterHost text => { todo := [.host text] }
  | .selectApplication index => { todo := [.selectedApplication (some index)] }
  | .openPage page => { todo := [.selectedPage page] }
  | .handleInput remoteInput remoteGamepads => { todo := [.tracked remoteInput remoteGamepads] }

def connectBegun (requestedHost : String) : List (Write F) :=
  [.phase .connecting, .status s!"Querying {requestedHost}", .pairing "", .applications "",
    .applicationItems [], .selectedApplication none, .connectedHost none, .preparedSession none,
    .sessionDetails "", .windowTitle defaultWindowTitle]

def startBegun (application : Application) : List (Write F) :=
  [.phase .launching, .status s!"Preparing {application.title}", .sessionDetails "", .resetInput,
    .resetGamepads, .streamInputFocused false, .pointerLockDesired false]

/-- `leave_stream_mode` after it has read the control. -/
def streamLeft (control : Option WorkerId) : List (Write F) :=
  [.releaseGamepads control, .releaseInput, .pointerLockDesired false, .fullscreenDesired false,
    .streamInputFocused false]

def cancelBegun (control : Option WorkerId) : List (Write F) :=
  (match control with
    | some _ => [.streamControl none]
    | none => []) ++
  [.phase .launching, .status "Stopping the host application", .selectedPage gamesPage]

def streamStopping (control : Option WorkerId) : List (Write F) :=
  (match control with
    | some _ => [.status "Disconnecting stream"]
    | none => []) ++
  [.selectedPage gamesPage]

def UiStage.next (shared : Shared F) : UiStage → Option (UiMove F)
  | .idle => none
  | .connectHost =>
      let requestedHost := trim shared.host
      if requestedHost = "" then
        some { todo := [.phase .idle, .status "Enter a host first"] }
      else some { stage := .connectPhase requestedHost }
  | .connectPhase requestedHost =>
      if shared.phase = .connecting ∨ shared.phase = .pairing then some {}
      else some { todo := connectBegun requestedHost, stage := .connectSpawn requestedHost }
  | .connectSpawn requestedHost => some { spawn := some (.connecting requestedHost) }
  | .startPhase =>
      if shared.phase = .connecting ∨ shared.phase = .pairing ∨ shared.phase = .launching ∨
          shared.phase = .streaming then some {}
      else some { stage := .startConnected }
  | .startConnected =>
      match shared.connectedHost with
      | none => some { todo := [.status "Connect to a host first"] }
      | some connected => some { stage := .startSelected connected }
  | .startSelected connected =>
      match shared.selectedApplication with
      | none => some { todo := [.status "Select an application first"] }
      | some selectedIndex => some { stage := .startItems connected selectedIndex }
  | .startItems connected selectedIndex =>
      match shared.applicationItems[selectedIndex]? with
      | none => some { todo := [.status "Select an application first"] }
      | some application =>
          some { todo := startBegun application, stage := .startSpawn connected application }
  | .startSpawn connected application => some { spawn := some (.preparing connected application) }
  | .cancelPhase =>
      if shared.phase = .connecting ∨ shared.phase = .pairing ∨ shared.phase = .launching then
        some {}
      else some { stage := .cancelConnected }
  | .cancelConnected =>
      match shared.connectedHost with
      | none => some { todo := [.status "Connect to a host first"] }
      | some connected => some { stage := .cancelLeave connected }
  | .cancelLeave connected =>
      some { todo := streamLeft shared.streamControl, stage := .cancelControl connected }
  | .cancelControl connected =>
      some
        { todo := cancelBegun shared.streamControl
          stage := .cancelSpawn connected
          cancel := shared.streamControl }
  | .cancelSpawn connected => some { spawn := some (.cancelling connected) }
  | .stopLeave => some { todo := streamLeft shared.streamControl, stage := .stopControl }
  | .stopControl =>
      some { todo := streamStopping shared.streamControl, stop := shared.streamControl }

structure Ui (F : Type) where
  todo : List (Write F) := []
  stage : UiStage := .idle

/-! ## Runs -/

/-- All threads, with the streams that the user has asked to stop or to cancel, and
those whose `started` callback has made its writes. -/
structure AppWorld (F : Type) where
  shared : Shared F := {}
  ui : Ui F := {}
  workers : List (Worker F) := []
  stopped : WorkerId → Bool := fun _ => false
  cancelled : WorkerId → Bool := fun _ => false
  begun : WorkerId → Bool := fun _ => false

inductive Label (F : Type)
  | call (action : UiAction F)
  | ui (send : Send)
  | worker (id : WorkerId) (event : Option WorkerEvent)

def mark (marked : WorkerId → Bool) : Option WorkerId → WorkerId → Bool
  | none => marked
  | some id => Function.update marked id true

namespace AppWorld

def move (world : AppWorld F) (move : UiMove F) : AppWorld F :=
  { world with
    ui := { todo := move.todo, stage := move.stage }
    workers := world.workers ++ (move.spawn.map fun stage => { stage }).toList
    stopped := mark world.stopped move.stop
    cancelled := mark world.cancelled move.cancel }

variable [Sys.F32 F]

def stepUi (world : AppWorld F) (send : Send) : Option (AppWorld F) :=
  match world.ui.todo with
  | write :: todo =>
      some { world with shared := write.apply send world.shared, ui := { world.ui with todo } }
  | [] => (world.ui.stage.next world.shared).map world.move

/-- No worker releases gamepads, so none of its writes waits for an answer. -/
def stepWorker (world : AppWorld F) (id : WorkerId) (event : Option WorkerEvent) :
    Option (AppWorld F) :=
  match world.workers[id]? with
  | none => none
  | some worker =>
      match worker.todo, event with
      | write :: todo, none =>
          some
            { world with
              shared := write.apply (fun _ _ => .ok ()) world.shared
              workers := world.workers.set id { worker with todo }
              begun :=
                if Worker.hasBegun { worker with todo } then Function.update world.begun id true
                else world.begun }
      | _ :: _, some _ => none
      | [], event =>
          (worker.stage.next id world.shared event).map fun (todo, stage) =>
            { world with workers := world.workers.set id { todo, stage } }

def step (world : AppWorld F) : Label F → Option (AppWorld F)
  | .call action =>
      match world.ui.todo, world.ui.stage with
      | [], .idle => some (world.move action.begin)
      | _, _ => none
  | .ui send => world.stepUi send
  | .worker id event => world.stepWorker id event

end AppWorld

end MoonlightScarlet.App
