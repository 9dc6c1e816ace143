import MoonlightScarlet.App.Control
import MoonlightScarlet.Support.SortedSet
import Mathlib.Order.Defs.LinearOrder
/-!
# Input that was sent to the remote host

`PressedInput` tracks the keys, mouse buttons and contacts that the host holds for
this client, and the presses that were kept back as local shortcuts or as capture
clicks.
-/

namespace MoonlightScarlet.App

open Sys Support

instance linearOrderUInt16 : LinearOrder UInt16 where
  le_refl := UInt16.le_refl
  le_trans _ _ _ := UInt16.le_trans
  le_antisymm _ _ := UInt16.le_antisymm
  le_total := UInt16.le_total
  lt_iff_le_not_ge a b := by
    simp only [UInt16.lt_iff_toNat_lt, UInt16.le_iff_toNat_le]
    omega
  toDecidableLE := inferInstance

inductive KeyCode
  | unknown
  | escape
  | enter
  | tab
  | backspace
  | space
  | left
  | right
  | up
  | down
  | home
  | endKey
  | pageUp
  | pageDown
  | insert
  | delete
  | f (number : UInt8)
  | char (character : Char)
  deriving DecidableEq, Repr

structure KeyModifiers where
  shift : Bool := false
  control : Bool := false
  alt : Bool := false
  superKey : Bool := false
  deriving DecidableEq, Repr

inductive KeyEvent
  | pressed (keycode : KeyCode) (modifiers : KeyModifiers)
  | released (keycode : KeyCode) (modifiers : KeyModifiers)
  | char (character : Char)
  deriving DecidableEq, Repr

def vkBack : UInt16 := 0x08
def vkTab : UInt16 := 0x09
def vkReturn : UInt16 := 0x0D
def vkEscape : UInt16 := 0x1B
def vkSpace : UInt16 := 0x20
def vkPrior : UInt16 := 0x21
def vkNext : UInt16 := 0x22
def vkEnd : UInt16 := 0x23
def vkHome : UInt16 := 0x24
def vkLeft : UInt16 := 0x25
def vkUp : UInt16 := 0x26
def vkRight : UInt16 := 0x27
def vkDown : UInt16 := 0x28
def vkInsert : UInt16 := 0x2D
def vkDelete : UInt16 := 0x2E
def vkF1 : UInt16 := 0x70
def vkOem1 : UInt16 := 0xBA
def vkOemPlus : UInt16 := 0xBB
def vkOemComma : UInt16 := 0xBC
def vkOemMinus : UInt16 := 0xBD
def vkOemPeriod : UInt16 := 0xBE
def vkOem2 : UInt16 := 0xBF
def vkOem3 : UInt16 := 0xC0
def vkOem4 : UInt16 := 0xDB
def vkOem5 : UInt16 := 0xDC
def vkOem6 : UInt16 := 0xDD
def vkOem7 : UInt16 := 0xDE

/-- `character as u16`, for characters that fit. -/
def charCode (character : Char) : UInt16 := character.toNat.toUInt16

def charToVk (character : Char) : Option UInt16 :=
  if 'a' ≤ character ∧ character ≤ 'z' then some (charCode character.toUpper)
  else if ('A' ≤ character ∧ character ≤ 'Z') ∨ ('0' ≤ character ∧ character ≤ '9') then
    some (charCode character)
  else if 0x01 ≤ character.toNat ∧ character.toNat ≤ 0x1A then
    some (charCode character - 1 + charCode 'A')
  else
    match character with
    | '\x1B' => some vkOem4
    | '\x1C' => some vkOem5
    | '\x1D' => some vkOem6
    | '\x1F' => some vkOemMinus
    | '!' => some (charCode '1')
    | '@' => some (charCode '2')
    | '#' => some (charCode '3')
    | '$' => some (charCode '4')
    | '%' => some (charCode '5')
    | '^' => some (charCode '6')
    | '&' => some (charCode '7')
    | '*' => some (charCode '8')
    | '(' => some (charCode '9')
    | ')' => some (charCode '0')
    | ';' | ':' => some vkOem1
    | '=' | '+' => some vkOemPlus
    | ',' | '<' => some vkOemComma
    | '-' | '_' => some vkOemMinus
    | '.' | '>' => some vkOemPeriod
    | '/' | '?' => some vkOem2
    | '\x60' | '~' => some vkOem3
    | '[' | '\x7b' => some vkOem4
    | '\\' | '|' => some vkOem5
    | ']' | '\x7d' => some vkOem6
    | '\'' | '"' => some vkOem7
    | _ => none

def keycodeToVk : KeyCode → Option UInt16
  | .unknown => none
  | .escape => some vkEscape
  | .enter => some vkReturn
  | .tab => some vkTab
  | .backspace => some vkBack
  | .space => some vkSpace
  | .left => some vkLeft
  | .right => some vkRight
  | .up => some vkUp
  | .down => some vkDown
  | .home => some vkHome
  | .endKey => some vkEnd
  | .pageUp => some vkPrior
  | .pageDown => some vkNext
  | .insert => some vkInsert
  | .delete => some vkDelete
  | .f number =>
      if 1 ≤ number ∧ number ≤ 24 then some (vkF1 + (number - 1).toUInt16) else none
  | .char character => charToVk character

def remoteModifiers (modifiers : KeyModifiers) : KeyboardModifiers :=
  .new modifiers.shift modifiers.control modifiers.alt modifiers.superKey

/-- The virtual key of an event. -/
def KeyEvent.vkCode : KeyEvent → Option UInt16
  | .pressed keycode _ => keycodeToVk keycode
  | .released keycode _ => keycodeToVk keycode
  | .char _ => none

def moonlightShortcutModifiers (modifiers : KeyModifiers) : Bool :=
  modifiers.shift && modifiers.control && modifiers.alt

def mouseButtonBit : MouseButton → BitVec 8
  | .left => 0x01
  | .middle => 0x02
  | .right => 0x04

inductive StreamShortcut
  | toggleCapture
  | disconnect
  | toggleFullscreen
  deriving DecidableEq, Repr

inductive ShortcutDispatch
  | notShortcut
  | consumed
  | command (shortcut : StreamShortcut)
  deriving DecidableEq, Repr

structure PressedInput (F : Type) where
  touches : Touch.TouchInput F := {}
  keys : SortedSet UInt16 := ∅
  mouseButtons : BitVec 8 := 0
  suppressedMouseButtons : BitVec 8 := 0
  suppressedShortcutKeys : SortedSet UInt16 := ∅

/-- The command of a shortcut letter: Z, Q or X. -/
def shortcutCommand (vkCode : UInt16) : Option StreamShortcut :=
  if vkCode = 0x5A then some .toggleCapture
  else if vkCode = 0x51 then some .disconnect
  else if vkCode = 0x58 then some .toggleFullscreen
  else none

namespace PressedInput

variable {F : Type}

def classifyShortcut (state : PressedInput F) (event : KeyEvent) :
    ShortcutDispatch × PressedInput F :=
  match event with
  | .char _ => (.notShortcut, state)
  | .released keycode _ =>
      match keycodeToVk keycode with
      | none => (.notShortcut, state)
      | some vkCode =>
          if vkCode ∈ state.suppressedShortcutKeys then
            (.consumed, { state with
              suppressedShortcutKeys := state.suppressedShortcutKeys.erase vkCode })
          else (.notShortcut, state)
  | .pressed keycode modifiers =>
      match keycodeToVk keycode with
      | none => (.notShortcut, state)
      | some vkCode =>
          if !moonlightShortcutModifiers modifiers then (.notShortcut, state)
          else
            match shortcutCommand vkCode with
            | none => (.notShortcut, state)
            | some command =>
                if vkCode ∈ state.suppressedShortcutKeys then (.consumed, state)
                else
                  (.command command, { state with
                    suppressedShortcutKeys := state.suppressedShortcutKeys.insert vkCode })

def sendKey (state : PressedInput F) (control : ConnectionControl F) (event : KeyEvent) :
    StateM (Wire F) (Except InputError Bool × PressedInput F) := do
  match event with
  | .char _ => return (.ok false, state)
  | .pressed keycode modifiers =>
      match keycodeToVk keycode with
      | none => return (.ok false, state)
      | some vkCode =>
          match ← control.deliver (.keyboard vkCode .press (remoteModifiers modifiers)) with
          | .error error => return (.error error, state)
          | .ok () => return (.ok true, { state with keys := state.keys.insert vkCode })
  | .released keycode modifiers =>
      match keycodeToVk keycode with
      | none => return (.ok false, state)
      | some vkCode =>
          match ← control.deliver (.keyboard vkCode .release (remoteModifiers modifiers)) with
          | .error error => return (.error error, state)
          | .ok () => return (.ok true, { state with keys := state.keys.erase vkCode })

def suppressCaptureClick (state : PressedInput F) (button : MouseButton) : PressedInput F :=
  { state with
    suppressedMouseButtons := state.suppressedMouseButtons ||| mouseButtonBit button }

def consumeSuppressedMouseRelease (state : PressedInput F) (button : MouseButton) :
    Bool × PressedInput F :=
  let bit := mouseButtonBit button
  if state.suppressedMouseButtons &&& bit = 0 then (false, state)
  else
    (true, { state with suppressedMouseButtons := state.suppressedMouseButtons &&& ~~~bit })

def sendMouseButton (state : PressedInput F) (control : ConnectionControl F)
    (button : MouseButton) (pressed : Bool) :
    StateM (Wire F) (Except InputError Unit × PressedInput F) := do
  let action := if pressed then .press else .release
  match ← control.deliver (.mouseButton button action) with
  | .error error => return (.error error, state)
  | .ok () =>
      let bit := mouseButtonBit button
      let mouseButtons :=
        if pressed then state.mouseButtons ||| bit else state.mouseButtons &&& ~~~bit
      return (.ok (), { state with mouseButtons })

/-- The releases of the mouse buttons in a mask, in the order of the source. -/
def buttonReleases (buttons : BitVec 8) : List (Input F) :=
  ([.left, .middle, .right] : List MouseButton).filterMap fun button =>
    if buttons &&& mouseButtonBit button ≠ 0 then some (.mouseButton button .release) else none

/-- Unlocking the pointer must not cancel independent touch or key input. -/
def releaseMouse (state : PressedInput F) (control : Option (ConnectionControl F)) :
    StateM (Wire F) (Except InputError Unit × PressedInput F) := do
  let released := { state with mouseButtons := 0, suppressedMouseButtons := 0 }
  match control with
  | none => return (.ok (), released)
  | some control =>
      let result ← control.deliverEach (buttonReleases state.mouseButtons) (.ok ())
      return (result, released)

def releaseAll (state : PressedInput F) [F32 F] (control : Option (ConnectionControl F)) :
    StateM (Wire F) (Except InputError Unit × PressedInput F) := do
  let released := { state with
    keys := ∅, mouseButtons := 0, suppressedMouseButtons := 0, touches := {} }
  match control with
  | none => return (.ok (), released)
  | some control =>
      let (first, _) ← control.touches state.touches.releaseTo
      let keyReleases := state.keys.toList.map fun keyCode => .keyboard keyCode .release {}
      let first ← control.deliverEach keyReleases first
      let result ← control.deliverEach (buttonReleases state.mouseButtons) first
      return (result, released)

end PressedInput

end MoonlightScarlet.App
