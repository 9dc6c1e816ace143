import MoonlightScarlet.App.RemoteInput
/-!
# The stream page

The handlers of `MoonlightApp` that run on the user interface thread while a stream
is open, with the state they read and write.
-/

namespace MoonlightScarlet.App

open Sys Gamepad

def gamesPage : Nat := 1
def streamPage : Nat := 4

structure MoonlightApp (F : Type) where
  streamControl : Option (ConnectionControl F) := none
  /-- What the connection behind `streamControl` was sent. -/
  wire : Wire F := {}
  remoteInput : PressedInput F := {}
  remoteGamepads : Gamepads := {}
  status : String := "Enter a Sunshine host"
  selectedPage : Nat := 0
  nativeWindowId : Option UInt32 := none
  streamInputFocused : Bool := false
  pointerLockDesired : Bool := false
  pointerLockApplied : Bool := false
  fullscreenDesired : Bool := false

namespace MoonlightApp

variable {F : Type}

/-- Use the tracked input; an error is only reported. -/
def withInput {α : Type} (app : MoonlightApp F)
    (call : PressedInput F → StateM (Wire F) (Except InputError α × PressedInput F)) :
    Except InputError α × MoonlightApp F :=
  let ((result, remoteInput), wire) := (call app.remoteInput).run app.wire
  (result, { app with remoteInput, wire })

def requestPointerLock (app : MoonlightApp F) : MoonlightApp F :=
  if app.streamControl.isNone then app
  else { app with pointerLockDesired := true, status := "Requesting mouse capture…" }

def releasePointerLock (app : MoonlightApp F) : MoonlightApp F :=
  let (_, app) := app.withInput fun input => input.releaseMouse app.streamControl
  { app with
    pointerLockDesired := false
    status := "Mouse released · Ctrl+Alt+Shift+Z to capture again" }

def togglePointerLock (app : MoonlightApp F) : MoonlightApp F :=
  if app.pointerLockDesired || app.pointerLockApplied then app.releasePointerLock
  else app.requestPointerLock

def toggleFullscreen (app : MoonlightApp F) : MoonlightApp F :=
  { app with fullscreenDesired := !app.fullscreenDesired }

/-- `remote_gamepads.release_all(control)`. -/
def releaseGamepads (app : MoonlightApp F) : MoonlightApp F :=
  match app.streamControl with
  | none => { app with remoteGamepads := (app.remoteGamepads.releaseAll none).pads }
  | some control =>
      let ((_, remoteGamepads), wire) :=
        (control.gamepads fun send => app.remoteGamepads.releaseAll (some send)).run app.wire
      { app with remoteGamepads, wire }

/-- `remote_input.release_all(control)`. -/
def releaseInput [F32 F] (app : MoonlightApp F) : MoonlightApp F :=
  (app.withInput fun input => input.releaseAll app.streamControl).2

def leaveStreamMode [F32 F] (app : MoonlightApp F) : MoonlightApp F :=
  { app.releaseGamepads.releaseInput with
    pointerLockDesired := false
    fullscreenDesired := false
    streamInputFocused := false }

def resetStreamWindowState (app : MoonlightApp F) : MoonlightApp F :=
  { app with
    remoteInput := {}
    remoteGamepads := app.remoteGamepads.resetSession
    pointerLockDesired := false
    fullscreenDesired := false
    streamInputFocused := false }

def stopStream [F32 F] (app : MoonlightApp F) : MoonlightApp F :=
  let app := app.leaveStreamMode
  let app :=
    match app.streamControl with
    | none => app
    | some control =>
        { app with
          wire := (control.requestStop.run app.wire).2
          status := "Disconnecting stream" }
  { app with selectedPage := gamesPage }

def handleStreamKey [F32 F] (app : MoonlightApp F) (event : KeyEvent) :
    Bool × MoonlightApp F :=
  let (dispatch, remoteInput) := app.remoteInput.classifyShortcut event
  let app := { app with remoteInput }
  match dispatch with
  | .command .toggleCapture => (true, app.togglePointerLock)
  | .command .disconnect => (true, app.stopStream)
  | .command .toggleFullscreen => (true, app.toggleFullscreen)
  | .consumed => (true, app)
  | .notShortcut =>
      match app.streamControl with
      | none => (false, app)
      | some control =>
          match app.withInput fun input => input.sendKey control event with
          | (.ok handled, app) => (handled, app)
          | (.error _, app) => (true, app)

def handleStreamMouseButton (app : MoonlightApp F) (button : MouseButton) (pressed : Bool) :
    Bool × MoonlightApp F :=
  let (consumed, remoteInput) :=
    if pressed then (false, app.remoteInput)
    else app.remoteInput.consumeSuppressedMouseRelease button
  let app := { app with remoteInput }
  if consumed then (true, app)
  else if !app.pointerLockApplied then
    if pressed then
      (true, { app with
        remoteInput := app.remoteInput.suppressCaptureClick button }.requestPointerLock)
    else (false, app)
  else
    match app.streamControl with
    | none => (false, app)
    | some control =>
        (true, (app.withInput fun input => input.sendMouseButton control button pressed).2)

/-- Focus acquisition is broadcast as well as loss, to every window. -/
def onFocusChanged [F32 F] (app : MoonlightApp F) (windowId : UInt32) : MoonlightApp F :=
  if app.nativeWindowId = some windowId then app
  else app.releaseGamepads.releaseInput

end MoonlightApp

end MoonlightScarlet.App
