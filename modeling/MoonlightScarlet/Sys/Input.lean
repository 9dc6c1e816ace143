import Mathlib.Data.Fintype.Basic
/-!
# Input types of the connection crate

The values that the tracking modules hand to a `ConnectionControl`, and the calls
that it makes to the C core for them.  The arithmetic of `f32` is a parameter:
`F32` lists the operations that the source applies to coordinates and assumes no
law about them.
-/

namespace MoonlightScarlet.Sys

/-- Operations on `f32` used for normalized coordinates. -/
class F32 (F : Type) where
  zero : F
  half : F
  one : F
  ofInt : Int → F
  sub : F → F → F
  mul : F → F → F
  div : F → F → F
  le : F → F → Bool

/-- Exact arithmetic, which `f32` agrees with as long as nothing is rounded. -/
instance f32Rat : F32 Rat where
  zero := 0
  half := 1 / 2
  one := 1
  ofInt value := value
  sub := (· - ·)
  mul := (· * ·)
  div := (· / ·)
  le x y := x ≤ y

/-- `(0.0..=1.0).contains(&x)`. -/
def inUnit {F : Type} [F32 F] (x : F) : Bool :=
  F32.le F32.zero x && F32.le x F32.one

/-- `x.clamp(0.0, 1.0)`. -/
def clampUnit {F : Type} [F32 F] (x : F) : F :=
  if F32.le F32.zero x then (if F32.le x F32.one then x else F32.one) else F32.zero

inductive InputError
  | invalidCoordinates
  | invalidController (number : UInt8)
  | connectionInactive
  | core (operation : String) (code : Int32)
  deriving DecidableEq, Repr

inductive InputAction
  | press
  | release
  deriving DecidableEq, Repr

inductive MouseButton
  | left
  | middle
  | right
  deriving DecidableEq, Repr

/-- Packed modifier flags: Shift, Control, Alt and Meta from bit 0 up. -/
structure KeyboardModifiers where
  bits : BitVec 8 := 0
  deriving DecidableEq, Repr, Inhabited

def KeyboardModifiers.new (shift control alt metaKey : Bool) : KeyboardModifiers :=
  let bits : BitVec 8 := 0
  let bits := if shift then bits ||| 0x01 else bits
  let bits := if control then bits ||| 0x02 else bits
  let bits := if alt then bits ||| 0x04 else bits
  let bits := if metaKey then bits ||| 0x08 else bits
  { bits }

inductive TouchEventType
  | down
  | up
  | move
  | cancel
  | cancelAll
  deriving DecidableEq, Repr

inductive ControllerButton
  | up
  | down
  | left
  | right
  | start
  | back
  | leftStick
  | rightStick
  | leftShoulder
  | rightShoulder
  | home
  | a
  | b
  | x
  | y
  deriving DecidableEq, Repr

/-- `button as u32`. -/
def ControllerButton.raw : ControllerButton → BitVec 32
  | .up => 0x0001
  | .down => 0x0002
  | .left => 0x0004
  | .right => 0x0008
  | .start => 0x0010
  | .back => 0x0020
  | .leftStick => 0x0040
  | .rightStick => 0x0080
  | .leftShoulder => 0x0100
  | .rightShoulder => 0x0200
  | .home => 0x0400
  | .a => 0x1000
  | .b => 0x2000
  | .x => 0x4000
  | .y => 0x8000

/-- Complete controller snapshot; the default value is the neutral one. -/
structure ControllerState where
  buttons : BitVec 32 := 0
  leftTrigger : UInt8 := 0
  rightTrigger : UInt8 := 0
  leftX : Int16 := 0
  leftY : Int16 := 0
  rightX : Int16 := 0
  rightY : Int16 := 0
  deriving DecidableEq, Repr, Inhabited

end MoonlightScarlet.Sys
