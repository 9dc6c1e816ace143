import MoonlightScarlet.Support.Memory
import Mathlib.Data.List.Basic
/-!
# Frames of the pull renderer

`Connection::wait_for_video_frame` takes a frame out of the core's queue and hands
its owner a `VideoFrame`, which copies the linked buffers of the decode unit and
gives the handle back to the core once.  `int` is `Int32` and `size_t` is `UInt64`.
-/

namespace MoonlightScarlet.Sys

open Support.Memory

/-- One buffer of a decode unit.  `data` is what the pointer points to, unless it
is null. -/
structure LEntry where
  data : Option (Mem UInt8)
  length : Int32

/-- `bufferList` is the chain from its head to the null pointer. -/
structure DecodeUnit where
  frameNumber : Int32 := 1
  frameType : Int32 := 0
  presentationTimeUs : UInt64 := 0
  fullLength : Int32
  hdrActive : Bool := false
  colorspace : UInt8 := 0
  bufferList : List LEntry

/-- The conversion of an `int` to `size_t`. -/
def sizeOfInt (value : Int32) : UInt64 := value.toInt64.toUInt64

/-- The variables of the loop of `mls_copy_video_frame` and the destination. -/
structure Copy where
  offset : UInt64
  destination : Mem UInt8

/-- Body of the loop; an error is `return -1`. -/
def copyEntry (expected : UInt64) (copy : Copy) (entry : LEntry) : Except Copy Copy :=
  match entry.data with
  | none => .error copy
  | some data =>
      if entry.length ≤ 0 then .error copy
      else if sizeOfInt entry.length > expected - copy.offset then .error copy
      else .ok {
        offset := copy.offset + sizeOfInt entry.length
        destination := write copy.destination copy.offset.toNat
          (read data 0 (sizeOfInt entry.length).toNat) }

def copyEntries (expected : UInt64) (copy : Copy) (entries : List LEntry) : Except Copy Copy :=
  entries.foldlM (copyEntry expected) copy

/-- `mls_copy_video_frame`: the returned `int` and the destination.  A `none` is a
null pointer. -/
def copyVideoFrame (unit : Option DecodeUnit) (destination : Option (Mem UInt8))
    (destinationLength : UInt64) : Int32 × Option (Mem UInt8) :=
  match unit, destination with
  | some unit, some memory =>
      if unit.fullLength ≤ 0 then (-1, some memory)
      else if destinationLength < sizeOfInt unit.fullLength then (-1, some memory)
      else
        match copyEntries (sizeOfInt unit.fullLength) ⟨0, memory⟩ unit.bufferList with
        | .error copy => (-1, some copy.destination)
        | .ok copy =>
            (if copy.offset = sizeOfInt unit.fullLength then unit.fullLength else -1,
              some copy.destination)
  | _, destination => (-1, destination)

/-! ## Calls of the core -/

/-- A frame handle of the core. -/
abbrev Handle := Nat

/-- What `LiWaitForNextVideoFrame` answers; the pointers may be null. -/
structure FrameWait where
  available : Bool
  frameHandle : Option Handle
  decodeUnit : Option DecodeUnit

/-- The calls around a frame, in the order in which they are made. -/
inductive FrameCall
  | waitVideoFrame (answer : FrameWait)
  | completeVideoFrame (handle : Handle) (status : Int32)
  | stopConnection

def drOk : Int32 := 0
def drNeedIdr : Int32 := -1

def maxAccessUnitLength : UInt64 := 64 * 1024 * 1024

/-- `ConnectionError::InvalidVideoFrame`. -/
structure InvalidVideoFrame where
  message : String
  deriving DecidableEq, Repr

/-- `fmt::Display` of the error. -/
def InvalidVideoFrame.display (error : InvalidVideoFrame) : String :=
  s!"invalid video frame: {error.message}"

/-- The calls so far are the state; the environment answers a wait. -/
abbrev FrameM := EStateM InvalidVideoFrame (List FrameCall)

def callCore (call : FrameCall) : FrameM Unit := modify fun calls => calls ++ [call]

/-- `mls_wait_video_frame`: without a frame the bridge stores null pointers. -/
def mlsWaitVideoFrame (answer : FrameWait) :
    FrameM (Bool × Option Handle × Option DecodeUnit) := do
  callCore (.waitVideoFrame answer)
  if answer.available then pure (true, answer.frameHandle, answer.decodeUnit)
  else pure (false, none, none)

def mlsCompleteVideoFrame (handle : Handle) (status : Int32) : FrameM Unit :=
  callCore (.completeVideoFrame handle status)

inductive VideoFrameStatus
  | complete
  | needIdr
  deriving DecidableEq, Repr

def VideoFrameStatus.raw : VideoFrameStatus → Int32
  | .complete => drOk
  | .needIdr => drNeedIdr

/-- `usize::try_from` of a `c_int`. -/
def usizeTryFrom (value : Int32) : Option UInt64 :=
  if value < 0 then none else some (sizeOfInt value)

/-- A length that `wait_for_video_frame` accepts. -/
def Supported (length : Int32) : Prop :=
  0 < length.toInt ∧ length.toInt ≤ 64 * 1024 * 1024

theorem toNat_sizeOfInt {value : Int32} (h : 0 ≤ value.toInt) :
    (sizeOfInt value).toNat = value.toInt.toNat := by
  have hle : 0 ≤ value.toInt64 := by
    rw [Int64.le_iff_toInt_le, Int32.toInt_toInt64]
    exact h
  rw [sizeOfInt, Int64.toNat_toUInt64_of_le hle, Int32.toNatClampNeg_toInt64]
  rfl

theorem usizeTryFrom_eq_some {value : Int32} {length : UInt64} :
    usizeTryFrom value = some length ↔ 0 ≤ value.toInt ∧ length = sizeOfInt value := by
  rw [usizeTryFrom, Option.ite_none_left_eq_some, Int32.lt_iff_toInt_lt, Int.not_lt,
    Option.some.injEq, eq_comm (a := length)]
  rfl

/-- The check of `wait_for_video_frame` on the converted length. -/
theorem supported_iff_in_range {value : Int32} {length : UInt64}
    (hlength : usizeTryFrom value = some length) :
    Supported value ↔ ¬(length = 0 ∨ length > maxAccessUnitLength) := by
  obtain ⟨hnonneg, rfl⟩ := usizeTryFrom_eq_some.mp hlength
  rw [not_or, gt_iff_lt, UInt64.lt_iff_toNat_lt, ← UInt64.toNat_inj, toNat_sizeOfInt hnonneg]
  have hmax : maxAccessUnitLength.toNat = 64 * 1024 * 1024 := by decide
  have hzero : (0 : UInt64).toNat = 0 := rfl
  unfold Supported
  omega

/-- A pulled frame.  Only `wait_for_video_frame` makes one, after it checked the
length. -/
structure VideoFrame where
  frameHandle : Handle
  decodeUnit : DecodeUnit
  frameNumber : Int32
  frameType : Int32
  presentationTimeUs : UInt64
  fullLength : UInt64
  hdrActive : Bool
  colorspace : UInt8
  completed : Bool
  hlength : fullLength = sizeOfInt decodeUnit.fullLength
  hsupported : Supported decodeUnit.fullLength

namespace VideoFrame

def isIdr (frame : VideoFrame) : Bool := frame.frameType == 1

/-- The destination is `vec![0_u8; self.full_length]`. -/
def copyAccessUnit (frame : VideoFrame) : Except InvalidVideoFrame (List UInt8) :=
  let (copied, destination) :=
    copyVideoFrame (some frame.decodeUnit) (some fun _ => 0) frame.fullLength
  match usizeTryFrom copied, destination with
  | some length, some accessUnit =>
      if length = frame.fullLength then .ok (read accessUnit 0 frame.fullLength.toNat)
      else .error ⟨"buffer chain did not match the advertised access-unit length"⟩
  | _, _ => .error ⟨"buffer chain did not match the advertised access-unit length"⟩

/-- `Drop` of a frame that goes out of scope. -/
def drop (frame : VideoFrame) : FrameM Unit :=
  if frame.completed then pure ()
  else mlsCompleteVideoFrame frame.frameHandle drNeedIdr

/-- `complete` takes the frame by value, so it is dropped at its end. -/
def complete (frame : VideoFrame) (status : VideoFrameStatus) : FrameM Unit := do
  mlsCompleteVideoFrame frame.frameHandle status.raw
  { frame with completed := true }.drop

end VideoFrame

/-- The checks of `wait_for_video_frame` on the length of a unit, and the frame. -/
def checkedFrame (frameHandle : Handle) (decodeUnit : DecodeUnit) : FrameM VideoFrame :=
  match hlength : usizeTryFrom decodeUnit.fullLength with
  | none => do
      mlsCompleteVideoFrame frameHandle drNeedIdr
      throw ⟨"core returned a non-positive access-unit length"⟩
  | some fullLength =>
      if hrange : fullLength = 0 ∨ fullLength > maxAccessUnitLength then do
        mlsCompleteVideoFrame frameHandle drNeedIdr
        throw ⟨s!"access-unit length {fullLength} is outside the supported range"⟩
      else
        pure {
          frameHandle, decodeUnit
          frameNumber := decodeUnit.frameNumber
          frameType := decodeUnit.frameType
          presentationTimeUs := decodeUnit.presentationTimeUs
          fullLength
          hdrActive := decodeUnit.hdrActive
          colorspace := decodeUnit.colorspace
          completed := false
          hlength := (usizeTryFrom_eq_some.mp hlength).2
          hsupported := (supported_iff_in_range hlength).mpr hrange }

/-- `wait_for_video_frame`.  `ended` tells that the connection was stopped, asked to
stop or terminated, and `answer` is what the core answers if it is asked. -/
def Connection.waitForVideoFrame (ended : Bool) (answer : FrameWait) :
    FrameM (Option VideoFrame) := do
  if ended then return none
  let (available, frameHandle, decodeUnit) ← mlsWaitVideoFrame answer
  if !available then return none
  match frameHandle, decodeUnit with
  | some frameHandle, some decodeUnit => return some (← checkedFrame frameHandle decodeUnit)
  | some frameHandle, none => do
      mlsCompleteVideoFrame frameHandle drNeedIdr
      throw ⟨"core returned a null frame pointer"⟩
  | none, _ => throw ⟨"core returned a null frame pointer"⟩

end MoonlightScarlet.Sys
