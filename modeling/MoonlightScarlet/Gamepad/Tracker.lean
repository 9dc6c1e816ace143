import MoonlightScarlet.Sys.Input
import Mathlib.Data.List.FinRange
import Mathlib.Logic.Function.Basic
/-!
# Session-local controller tracking

`Gamepads` holds two tables of sixteen slots: `devices`, what the window system
last reported, and `sent`, what the host was told.  `sync` turns the difference
into packets and commits each of them to `sent` only when `send` accepted it.
-/

namespace MoonlightScarlet.Gamepad

open Sys

abbrev maxGamepads : Nat := 16

/-- A table index; the protocol sends it as a `u8`. -/
abbrev Slot := Fin maxGamepads

inductive GamepadButton
  | south
  | east
  | west
  | north
  | leftShoulder
  | rightShoulder
  | leftTrigger
  | rightTrigger
  | select
  | start
  | home
  | leftStick
  | rightStick
  deriving DecidableEq, Repr

/-- A controller snapshot of the window system.  `pressed` is its own accessor
for the button bitmap. -/
structure GamepadEvent where
  deviceId : UInt32
  reset : Bool := false
  pressed : GamepadButton → Bool := fun _ => false
  hatX : Int := 0
  hatY : Int := 0
  leftTrigger : UInt16 := 0
  rightTrigger : UInt16 := 0
  leftX : Int16 := 0
  leftY : Int16 := 0
  rightX : Int16 := 0
  rightY : Int16 := 0

def saturatingNeg (value : Int16) : Int16 :=
  if value = Int16.minValue then Int16.maxValue else -value

def trigger (value : UInt16) (digital : Bool) : UInt8 :=
  if digital && value == 0 then 255
  else (((min value 32767).toUInt32 * 255 + 16383) / 32767).toUInt8

def faceButtons : List (GamepadButton × ControllerButton) :=
  [(.south, .a), (.east, .b), (.west, .x), (.north, .y),
    (.leftShoulder, .leftShoulder), (.rightShoulder, .rightShoulder),
    (.select, .back), (.start, .start), (.home, .home),
    (.leftStick, .leftStick), (.rightStick, .rightStick)]

def hatButtons (event : GamepadEvent) : List (Bool × ControllerButton) :=
  [(event.hatX < 0, .left), (event.hatX > 0, .right),
    (event.hatY < 0, .up), (event.hatY > 0, .down)]

def translate (event : GamepadEvent) : ControllerState :=
  if event.reset then {}
  else
    let buttons := faceButtons.foldl (fun buttons (here, remote) =>
      if event.pressed here then buttons ||| remote.raw else buttons) 0
    let buttons := (hatButtons event).foldl (fun buttons (pressed, button) =>
      if pressed then buttons ||| button.raw else buttons) buttons
    { buttons
      leftTrigger := trigger event.leftTrigger (event.pressed .leftTrigger)
      rightTrigger := trigger event.rightTrigger (event.pressed .rightTrigger)
      leftX := event.leftX
      leftY := saturatingNeg event.leftY
      rightX := event.rightX
      rightY := saturatingNeg event.rightY }

structure Device where
  id : UInt32
  state : ControllerState
  deriving DecidableEq, Repr

abbrev Devices := Slot → Option Device

def noDevices : Devices := fun _ => none

inductive Packet
  | arrival (slot : Slot) (mask : BitVec 16)
  | state (slot : Slot) (mask : BitVec 16) (state : ControllerState)
  deriving DecidableEq, Repr

structure Gamepads where
  devices : Devices := noDevices
  sent : Devices := noDevices
  swapAb : Bool := false

/-- `1 << slot`. -/
def bit (slot : Slot) : BitVec 16 := BitVec.twoPow 16 slot

def mask (devices : Devices) : BitVec 16 :=
  (List.finRange maxGamepads).foldl
    (fun mask slot => mask ||| if (devices slot).isSome then bit slot else 0) 0

/-- `devices.iter().position(found)`. -/
def position (devices : Devices) (found : Option Device → Bool) : Option Slot :=
  (List.finRange maxGamepads).find? fun slot => found (devices slot)

def Gamepads.setDevice (pads : Gamepads) (slot : Slot) (device : Option Device) :
    Gamepads :=
  { pads with devices := Function.update pads.devices slot device }

def Gamepads.setSent (pads : Gamepads) (slot : Slot) (device : Option Device) :
    Gamepads :=
  { pads with sent := Function.update pads.sent slot device }

def Gamepads.observe (pads : Gamepads) (event : GamepadEvent) : Gamepads :=
  let existing := position pads.devices fun device =>
    device.any fun device => device.id == event.deviceId
  if event.reset then
    match existing with
    | some slot => pads.setDevice slot none
    | none => pads
  else
    match existing.or (position pads.devices Option.isNone) with
    | some slot =>
        pads.setDevice slot (some { id := event.deviceId, state := translate event })
    | none => pads

/-- The button exchange inside `sync`. -/
def swapButtons (buttons : BitVec 32) : BitVec 32 :=
  let a := ControllerButton.a.raw
  let b := ControllerButton.b.raw
  (buttons &&& ~~~(a ||| b))
    ||| (if buttons &&& a ≠ 0 then b else 0)
    ||| (if buttons &&& b ≠ 0 then a else 0)

/-- The device as `sync` presents it under the current `swap_ab`. -/
def Device.presented (swapAb : Bool) (device : Device) : Device :=
  if swapAb then
    { device with state :=
      { device.state with buttons := swapButtons device.state.buttons } }
  else device

/-- A packet that `send` accepted, with the tracker right after its commit.
`pads` is a history variable: no code reads it. -/
structure Delivery where
  packet : Packet
  pads : Gamepads

structure SyncState where
  self : Gamepads
  delivered : List Delivery

/-- The closure handed to `sync`: what its `n`-th call returns. -/
abbrev Send := Nat → Packet → Except InputError Unit

/-- `send(packet)?` followed by the assignment to `self.sent`. -/
def deliver (send : Send) (packet : Packet) (commit : Gamepads → Gamepads) :
    EStateM InputError SyncState Unit := do
  let s ← get
  match send s.delivered.length packet with
  | .error error => throw error
  | .ok () =>
      set { self := commit s.self
            delivered := s.delivered ++ [⟨packet, commit s.self⟩] : SyncState }

/-- Body of the first loop of `sync`: remove an identity that left its slot. -/
def removeStale (send : Send) (slot : Slot) : EStateM InputError SyncState Unit := do
  let pads := (← get).self
  if (pads.sent slot).isSome ∧
      (pads.sent slot).map Device.id ≠ (pads.devices slot).map Device.id then
    deliver send (.state slot (mask pads.sent &&& ~~~bit slot) {})
      fun pads => pads.setSent slot none
  else pure ()

def announce (send : Send) (slot : Slot) (device : Device) :
    EStateM InputError SyncState Unit := do
  let pads := (← get).self
  if pads.sent slot = none then
    deliver send (.arrival slot (mask pads.sent ||| bit slot))
      fun pads => pads.setSent slot (some { id := device.id, state := {} })
  else pure ()

def sendState (send : Send) (slot : Slot) (device : Device) :
    EStateM InputError SyncState Unit := do
  let pads := (← get).self
  if pads.sent slot ≠ some device then
    deliver send (.state slot (mask pads.sent) device.state)
      fun pads => pads.setSent slot (some device)
  else pure ()

/-- Body of the second loop of `sync`. -/
def update (send : Send) (slot : Slot) : EStateM InputError SyncState Unit := do
  let pads := (← get).self
  match pads.devices slot with
  | none => pure ()
  | some device => do
      let device := device.presented pads.swapAb
      announce send slot device
      sendState send slot device

def syncM (send : Send) : EStateM InputError SyncState Unit := do
  (List.finRange maxGamepads).forM (removeStale send)
  (List.finRange maxGamepads).forM (update send)

/-- How a call of `sync` ends: its result, the tracker and the accepted packets. -/
structure SyncOutcome where
  result : Except InputError Unit
  pads : Gamepads
  delivered : List Delivery

def Gamepads.sync (pads : Gamepads) (send : Send) : SyncOutcome :=
  match (syncM send).run { self := pads, delivered := [] } with
  | .ok _ s => ⟨.ok (), s.self, s.delivered⟩
  | .error error s => ⟨.error error, s.self, s.delivered⟩

/-- `release_all`: with no control there is no host to tell. -/
def Gamepads.releaseAll (pads : Gamepads) (control : Option Send) : SyncOutcome :=
  let pads := { pads with devices := noDevices }
  match control with
  | some send => pads.sync send
  | none => ⟨.ok (), { pads with sent := noDevices }, []⟩

/-- `reset_session`: the old connection no longer exists. -/
def Gamepads.resetSession (pads : Gamepads) : Gamepads :=
  { pads with sent := noDevices }

def Gamepads.activeMask (pads : Gamepads) : BitVec 16 := mask pads.devices

end MoonlightScarlet.Gamepad
