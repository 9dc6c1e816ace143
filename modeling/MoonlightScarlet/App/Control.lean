import MoonlightScarlet.Gamepad.Tracker
import MoonlightScarlet.Touch.Routing
/-!
# The connection as the user interface sees it

`ConnectionControl` is how the core answers; `Wire` is what one connection was
asked and what it accepted.  The answer to a send may differ from turn to turn,
and within one turn no two sends are equal.
-/

namespace MoonlightScarlet.App

open Sys

variable {F : Type}

/-- An input event for the host, as the `send_*` methods describe it. -/
inductive Input (F : Type)
  | keyboard (keyCode : UInt16) (action : InputAction) (modifiers : KeyboardModifiers)
  | mouseButton (button : MouseButton) (action : InputAction)
  | mouseMove (deltaX deltaY : Int16)
  | horizontalScroll (amount : Int16)
  | verticalScroll (amount : Int16)
  | touch (event : TouchEventType) (id : UInt32) (x y : F)
  | mousePosition (x y : F)
  | controller (packet : Gamepad.Packet)

structure ConnectionControl (F : Type) where
  supportsTouch : Nat → Except InputError Bool
  send : Nat → Input F → Except InputError Unit

structure Wire (F : Type) where
  turn : Nat := 0
  delivered : List (Input F) := []
  stopRequested : Bool := false

/-- One `send_*` call. -/
def ConnectionControl.deliver (control : ConnectionControl F) (input : Input F) :
    StateM (Wire F) (Except InputError Unit) := fun wire =>
  match control.send wire.turn input with
  | .ok () =>
      (.ok (), { wire with turn := wire.turn + 1, delivered := wire.delivered ++ [input] })
  | .error error => (.error error, { wire with turn := wire.turn + 1 })

/-- `first_error.get_or_insert(error)`. -/
def firstError (first next : Except InputError Unit) : Except InputError Unit :=
  match first with
  | .ok () => next
  | .error error => .error error

/-- Send every input, whatever becomes of the others, and keep the first error. -/
def ConnectionControl.deliverEach (control : ConnectionControl F) (inputs : List (Input F))
    (first : Except InputError Unit) : StateM (Wire F) (Except InputError Unit) :=
  inputs.foldlM
    (fun first input => do return firstError first (← control.deliver input)) first

/-- `impl TouchSink for ConnectionControl`. -/
def Input.ofTouch : Touch.Sent F → Input F
  | .touch phase id x y => .touch phase id x y
  | .position x y => .mousePosition x y
  | .button pressed => .mouseButton .left (if pressed then .press else .release)

def ConnectionControl.touchSink (control : ConnectionControl F) (turn : Nat) :
    Touch.TouchSink F where
  supportsTouch := control.supportsTouch turn
  send packet := control.send turn (.ofTouch packet)

/-- A call of the touch router, which takes one turn. -/
def ConnectionControl.touches {α : Type} (control : ConnectionControl F)
    (call : Touch.TouchSink F → Touch.TouchOutcome F α) :
    StateM (Wire F) (Except InputError α × Touch.TouchInput F) := fun wire =>
  let outcome := call (control.touchSink wire.turn)
  ((outcome.result, outcome.input),
    { wire with
      turn := wire.turn + 1
      delivered := wire.delivered ++ outcome.delivered.map .ofTouch })

/-- `gamepads.sync(|packet| packet.send(control))` and its `release_all`, which take
a turn for each packet. -/
def ConnectionControl.gamepads (control : ConnectionControl F)
    (call : Gamepad.Send → Gamepad.SyncOutcome) :
    StateM (Wire F) (Except InputError Unit × Gamepad.Gamepads) := fun wire =>
  let outcome := call fun n packet => control.send (wire.turn + n) (.controller packet)
  ((outcome.result, outcome.pads),
    { wire with
      turn := wire.turn + outcome.delivered.length + 1
      delivered := wire.delivered ++
        outcome.delivered.map fun delivery => .controller delivery.packet })

def ConnectionControl.requestStop (_ : ConnectionControl F) : StateM (Wire F) Unit :=
  modify fun wire => { wire with stopRequested := true }

end MoonlightScarlet.App
