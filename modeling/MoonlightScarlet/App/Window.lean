import MoonlightScarlet.App.Stream
/-!
# The window of the application

Pointer lock and fullscreen are asked of the window system, which answers later:
`on_window_sync` makes the requests, and a changed notification reports the state
that the window is in.
-/

namespace MoonlightScarlet.App

open Sys Gamepad

def defaultWindowTitle : String := "Moonlight"

structure WindowApp (F : Type) extends MoonlightApp F where
  gamepadNavigationApplied : Option Bool := none
  pointerLockPending : Bool := false
  fullscreenApplied : Bool := false
  fullscreenPending : Bool := false
  decorationsHidden : Bool := false
  windowTitle : String := defaultWindowTitle
  appliedWindowTitle : String := defaultWindowTitle

/-- Which requests of one `on_window_sync` the window accepts. -/
structure WindowAnswers where
  gamepadInput : Bool
  pointerLock : Bool
  fullscreen : Bool

namespace WindowApp

variable {F : Type}

/-- A handler of the stream page. -/
def onStream (app : WindowApp F) (handle : MoonlightApp F → MoonlightApp F) : WindowApp F :=
  { app with toMoonlightApp := handle app.toMoonlightApp }

def streaming (app : WindowApp F) : Bool :=
  app.selectedPage == streamPage && app.streamControl.isSome

def syncGamepadInput (app : WindowApp F) (accepted : Bool) : WindowApp F :=
  let navigation := !app.streaming
  if app.gamepadNavigationApplied ≠ some navigation ∧ accepted then
    { app with gamepadNavigationApplied := some navigation }
  else app

/-- Replay devices observed in menus when streaming starts, and retry failed packets. -/
def syncGamepads (app : WindowApp F) : WindowApp F :=
  match app.streaming, app.gamepadNavigationApplied, app.streamControl with
  | true, some false, some control =>
      let ((_, remoteGamepads), wire) :=
        (control.gamepads fun send => app.remoteGamepads.sync send).run app.wire
      { app with remoteGamepads, wire }
  | _, _, _ => app

def syncTitle (app : WindowApp F) : WindowApp F :=
  { app with appliedWindowTitle := app.windowTitle }

def syncPointerLock (app : WindowApp F) (accepted : Bool) : WindowApp F :=
  if app.pointerLockDesired ≠ app.pointerLockApplied ∧ !app.pointerLockPending then
    if accepted then { app with pointerLockPending := true }
    else
      { app with
        pointerLockPending := false
        pointerLockDesired := app.pointerLockApplied
        status := "Mouse capture is unavailable for this window" }
  else app

def syncFullscreen (app : WindowApp F) (accepted : Bool) : WindowApp F :=
  if app.fullscreenDesired ≠ app.fullscreenApplied ∧ !app.fullscreenPending then
    if accepted then { app with fullscreenPending := true }
    else
      { app with
        fullscreenPending := false
        fullscreenDesired := app.fullscreenApplied
        status := "Fullscreen request was not accepted" }
  else app

def onWindowSync (app : WindowApp F) (answers : WindowAnswers) : WindowApp F :=
  let app := (app.syncGamepadInput answers.gamepadInput).syncGamepads.syncTitle
  (app.syncPointerLock answers.pointerLock).syncFullscreen answers.fullscreen

def onWindowPointerLockChanged (app : WindowApp F) (locked : Bool) : WindowApp F :=
  let app := { app with
    pointerLockPending := false, pointerLockApplied := locked, pointerLockDesired := locked }
  if locked then { app with status := "Mouse captured · Ctrl+Alt+Shift+Z to release" }
  else
    let app := app.onStream fun app =>
      (app.withInput fun input => input.releaseMouse app.streamControl).2
    if app.selectedPage = streamPage then
      { app with status := "Mouse released · click video or press Ctrl+Alt+Shift+Z" }
    else app

def onWindowFullscreenChanged (app : WindowApp F) (fullscreen : Bool) : WindowApp F :=
  { app with
    fullscreenPending := false
    fullscreenApplied := fullscreen
    fullscreenDesired := fullscreen
    decorationsHidden := fullscreen }

end WindowApp

end MoonlightScarlet.App
