import MoonlightScarlet.Core.Proofs.LinkedBlockingQueue
import MoonlightScarlet.Support.Runs
/-!
# The input stream

The callers of `send_input` take turns, because it holds `CORE_CONNECTION_LOCK` around its
call of the core.  Such a call leaves a packet holder on the queue of the input thread, or
it adds to one that the thread has not come to yet.  A section under `batchedInputMutex` and
a call of the queue are one step each, and the threads take their steps in any order.  One
connection follows another, and what `initializeInputStream` does not reset stays.
-/

namespace MoonlightScarlet.Core.InputStream

open LinkedBlockingQueue (Contents)

/-- `NV_MULTI_CONTROLLER_PACKET` without its constant fields. -/
structure MultiController where
  controllerNumber : Fin 16
  activeGamepadMask : UInt16
  buttonFlags : UInt16
  leftTrigger : UInt8
  rightTrigger : UInt8
  leftStickX : Int16
  leftStickY : Int16
  rightStickX : Int16
  rightStickY : Int16
  buttonFlags2 : UInt16
  deriving DecidableEq

/-- What a holder carries, as far as the input thread tells it apart by its magic. -/
inductive Packet (K : Type)
  | mouseMoveRel (deltaX deltaY : Int16)
  | mouseMoveAbs (x y width height : Int16)
  | multiController (state : MultiController)
  | other (payload : K)
  deriving DecidableEq

/-- What `AppVersionQuad` says about the host, the packet for hosts of generation 3, and that
of a scroll. -/
structure Host (K : Type) where
  generation : Nat := 7
  sunshine : Bool
  needsBatchedScroll : Bool := false
  legacyController : MultiController → K
  scroll : Int16 → K

/-- The arguments of `LiSendMultiControllerEvent`. -/
structure ControllerEvent where
  controllerNumber : Nat
  activeGamepadMask : UInt16
  buttonFlags : UInt32
  leftTrigger : UInt8
  rightTrigger : UInt8
  leftStickX : Int16
  leftStickY : Int16
  rightStickX : Int16
  rightStickY : Int16

/-- The calls of `send_input`.  Touches, buttons, keys, horizontal scrolls and arrivals only
differ in what they write into their holder. -/
inductive Event (K : Type)
  | mouseMove (deltaX deltaY : Int16)
  | mousePosition (x y referenceWidth referenceHeight : Int16)
  | controller (event : ControllerEvent)
  | scroll (amount : Int16)
  | other (payload : K)

def miscFlag : UInt32 := 0x200000

def specialFlag : UInt32 := 0x0400

/-- The flags of a client that passed a `short`, and those that GFE knows. -/
def fixedButtonFlags (sunshine : Bool) (buttonFlags : UInt32) : UInt32 :=
  let flags := if buttonFlags.toInt32 < 0 then buttonFlags &&& 0xFFFF else buttonFlags
  if !sunshine && flags &&& miscFlag != 0 then flags ||| specialFlag else flags

/-- The fields that `sendControllerEventInternal` writes. -/
def controllerFields (sunshine : Bool) (event : ControllerEvent) : MultiController :=
  let buttonFlags := fixedButtonFlags sunshine event.buttonFlags
  { controllerNumber := Fin.ofNat 16 (event.controllerNumber % (if sunshine then 16 else 4))
    activeGamepadMask :=
      if sunshine then event.activeGamepadMask else event.activeGamepadMask &&& 0xF
    buttonFlags := buttonFlags.toUInt16
    leftTrigger := event.leftTrigger
    rightTrigger := event.rightTrigger
    leftStickX := event.leftStickX
    leftStickY := event.leftStickY
    rightStickX := event.rightStickX
    rightStickY := event.rightStickY
    buttonFlags2 := if sunshine then (buttonFlags >>> 16).toUInt16 else 0 }

variable {P K : Type}

def controllerPacket (host : Host K) (event : ControllerEvent) : Packet K :=
  let fields := controllerFields host.sunshine event
  if host.generation = 3 then .other (host.legacyController fields) else .multiController fields

/-- `currentRelativeMouseState`.  Sums that do not fit an `int` wrap here; in C they are
undefined. -/
structure RelativeMouse where
  deltaX : Int32 := 0
  deltaY : Int32 := 0
  dirty : Bool := false

/-- `currentAbsoluteMouseState`. -/
structure AbsoluteMouse where
  x : Int16 := 0
  y : Int16 := 0
  width : Int16 := 0
  height : Int16 := 0
  dirty : Bool := false

/-- Where the caller stands that has `CORE_CONNECTION_LOCK`. -/
inductive Sender (P K : Type)
  | idle
  | allocating (packet : Packet K)
  | filling (packet : Packet K) (holder : P)
  | offering (packet : Packet K) (holder : P)

/-- Where `inputSendThreadProc` stands; there is none between `destroyInputStream` and the
next `startInputStream`. -/
inductive InputThread (P : Type)
  | absent
  | waiting
  | taken (holder : P)
  | moving (holder : P)
  | sendingMove (holder : P) (more : Bool)
  | sending (holder : P)
  | ended
  | failed
  deriving DecidableEq

/-- The statics of the input stream and the threads, in the connection with this number.
`scrolling` tells that the caller is in the loop that sends the batched scroll.  `given` lists
the packets that the calls of the connection ask for, as if each were sent on its own, and
`sent` those that went to `sendInputPacket`, with `moreData`. -/
structure State (P K : Type) where
  connection : Nat := 0
  initialized : Bool := true
  packetQueue : Contents P P := { bound := 150 }
  memory : P → Packet K
  relative : RelativeMouse := {}
  absolute : AbsoluteMouse := {}
  currentQueuedControllerPacket : Fin 16 → Option P := fun _ => none
  batchedScrollDelta : Int32 := 0
  scrolling : Bool := false
  sender : Sender P K := .idle
  thread : InputThread P := .waiting
  given : List (Packet K) := []
  sent : List (Packet K × Bool) := []

inductive Label (P K : Type)
  | call (event : Event K)
  /-- `allocatePacketHolder` finds a holder that nobody uses, or returns `NULL`. -/
  | allocate (holder : Option P)
  | fill
  | offer
  /-- `stopInputStream` up to the join: under the same lock as the calls, it signals the
  drain. -/
  | stop
  /-- `destroyInputStream`, after the join: the holders on the queue are freed. -/
  | destroy
  /-- `initializeInputStream` and `startInputStream` for the next connection. -/
  | restart
  | wait
  | dispatch
  | split
  | send (ok : Bool)

namespace Packet

/-- `LiSendMousePositionEvent` is sent with the extent less one. -/
def ofPosition (x y width height : Int16) : Packet K :=
  .mouseMoveAbs x y (width - 1) (height - 1)

/-- A later event of the same controller may take the place of this packet. -/
def sameButtons : Packet K → MultiController → Bool
  | .multiController old, new =>
      old.buttonFlags == new.buttonFlags && old.buttonFlags2 == new.buttonFlags2
  | _, _ => false

end Packet

/-- `LbqOfferQueueItem` on the packet queue, and whether it returned `LBQ_SUCCESS`. -/
def offerHolder (queue : Contents P P) (holder : P) : Contents P P × Bool :=
  match queue.perform (.offer holder holder) with
  | (queue, .code .success) => (queue, true)
  | (queue, _) => (queue, false)

/-- `LbqWaitForQueueElement` on the packet queue, with the holder for `LBQ_SUCCESS`. -/
def waitForHolder (queue : Contents P P) : Option (Contents P P × Option P) :=
  if queue.ready then
    match queue.perform .wait with
    | (queue, .element holder) => some (queue, some holder)
    | (queue, _) => some (queue, none)
  else none

/-- The part of a delta that goes into the next packet, what is left of it, and whether it
did not fit. -/
def splitDelta (delta : Int32) : Int16 × Int32 × Bool :=
  if delta < -32768 then (-32768, delta + 32768, true)
  else if delta > 32767 then (32767, delta - 32767, true)
  else (delta.toInt16, 0, false)

namespace InputThread

/-- The holder that the input thread has taken off the queue. -/
def holder? : InputThread P → Option P
  | .taken holder | .moving holder | .sendingMove holder _ | .sending holder => some holder
  | .absent | .waiting | .ended | .failed => none

end InputThread

namespace Sender

/-- The holder that the caller has allocated. -/
def holder? : Sender P K → Option P
  | .filling _ holder | .offering _ holder => some holder
  | .idle | .allocating _ => none

end Sender

namespace State

variable [DecidableEq P] (s : State P K)

/-- The holders on the queue, behind the one that the input thread works on. -/
def holders : List P := s.thread.holder?.toList ++ s.packetQueue.elements.map Prod.snd

/-- `LiSendMouseMoveEvent` up to the allocation. -/
def mouseMove (deltaX deltaY : Int16) : State P K :=
  if deltaX = 0 ∧ deltaY = 0 then s
  else
    { s with
      relative :=
        { deltaX := s.relative.deltaX + deltaX.toInt32
          deltaY := s.relative.deltaY + deltaY.toInt32
          dirty := true }
      sender := if s.relative.dirty then .idle else .allocating (.mouseMoveRel 0 0)
      given := s.given ++ [.mouseMoveRel deltaX deltaY] }

/-- `LiSendMousePositionEvent` up to the allocation. -/
def mousePosition (x y width height : Int16) : State P K :=
  { s with
    absolute := { x, y, width, height, dirty := true }
    sender := if s.absolute.dirty then .idle else .allocating (.mouseMoveAbs 0 0 0 0)
    given := s.given ++ [.ofPosition x y width height] }

def write (holder : P) (packet : Packet K) : State P K :=
  { s with memory := Function.update s.memory holder packet }

/-- `sendControllerEventInternal` up to the allocation. -/
def controllerEvent (packet : Packet K) : State P K :=
  match packet with
  | .multiController fields =>
      match s.currentQueuedControllerPacket fields.controllerNumber with
      | some holder =>
          if (s.memory holder).sameButtons fields then
            { s.write holder packet with given := s.given ++ [packet] }
          else { s with sender := .allocating packet }
      | none => { s with sender := .allocating packet }
  | packet => { s with sender := .allocating packet }

/-- The amount of the next packet of the batched scroll. -/
def wheelDelta : Int16 := if 0 < s.batchedScrollDelta then 120 else -120

/-- A round of the loop in `LiSendHighResScrollEvent` up to the allocation, or its end. -/
def scrollRound (host : Host K) : State P K :=
  if 120 ≤ s.batchedScrollDelta ∨ s.batchedScrollDelta ≤ -120 then
    { s with sender := .allocating (.other (host.scroll s.wheelDelta)), scrolling := true }
  else { s with sender := .idle, scrolling := false }

/-- `LiSendHighResScrollEvent` up to the first allocation. -/
def scroll (host : Host K) (amount : Int16) : State P K :=
  if amount = 0 then s
  else if host.needsBatchedScroll then
    let turned := (s.batchedScrollDelta < 0 ∧ 0 < amount) ∨ (0 < s.batchedScrollDelta ∧ amount < 0)
    let delta := if turned then 0 else s.batchedScrollDelta
    { s with batchedScrollDelta := delta + amount.toInt32 }.scrollRound host
  else { s with sender := .allocating (.other (host.scroll amount)) }

def call (host : Host K) : Event K → State P K
  | .mouseMove deltaX deltaY => s.mouseMove deltaX deltaY
  | .mousePosition x y width height => s.mousePosition x y width height
  | .controller event => s.controllerEvent (controllerPacket host event)
  | .scroll amount => s.scroll host amount
  | .other payload => { s with sender := .allocating (.other payload) }

/-- The call fails; whoever comes next may try again. -/
def abandon : Packet K → State P K
  | .mouseMoveRel _ _ =>
      { s with sender := .idle, relative := { s.relative with dirty := false } }
  | .mouseMoveAbs _ _ _ _ =>
      { s with sender := .idle, absolute := { s.absolute with dirty := false } }
  | _ => { s with sender := .idle, scrolling := false }

/-- The fields of the holder are written, and it becomes the current one of its controller. -/
def fill (packet : Packet K) (holder : P) : State P K :=
  let s := { s.write holder packet with sender := .offering packet holder }
  match packet with
  | .multiController fields =>
      { s with
        currentQueuedControllerPacket :=
          Function.update s.currentQueuedControllerPacket fields.controllerNumber (some holder) }
  | _ => s

/-- The moves and positions were counted when they were added to the statics. -/
def offered (packet : Packet K) : State P K :=
  match packet with
  | .multiController _ | .other _ => { s with sender := .idle, given := s.given ++ [packet] }
  | _ => { s with sender := .idle }

/-- A call is done when its packet is on the queue, unless it sends a batched scroll. -/
def goOn (host : Host K) : Packet K → State P K
  | .other _ =>
      if s.scrolling then
        { s with
          batchedScrollDelta := s.batchedScrollDelta - s.wheelDelta.toInt32 }.scrollRound host
      else s
  | _ => s

def offer (host : Host K) (packet : Packet K) (holder : P) : State P K :=
  match offerHolder s.packetQueue holder with
  | (queue, true) => ({ s with packetQueue := queue }.offered packet).goOn host packet
  | (_, false) => s.abandon packet

/-- The statics keep what they hold, also the pointers to the holders. -/
def destroy : State P K :=
  { s with packetQueue := { s.packetQueue with elements := [] }, thread := .absent }

def restart : State P K :=
  { s with
    connection := s.connection + 1
    initialized := true
    packetQueue := { bound := 150 }
    relative := {}
    absolute := {}
    batchedScrollDelta := 0
    thread := .waiting
    given := []
    sent := [] }

/-- What the input thread does first with a packet, by its magic. -/
def dispatch (holder : P) : State P K :=
  match s.memory holder with
  | .multiController fields =>
      let current := s.currentQueuedControllerPacket
      { s with
        thread := .sending holder
        currentQueuedControllerPacket :=
          if current fields.controllerNumber = some holder then
            Function.update current fields.controllerNumber none
          else current }
  | .mouseMoveRel _ _ => { s with thread := .moving holder }
  | .mouseMoveAbs _ _ _ _ =>
      { s.write holder
          (.ofPosition s.absolute.x s.absolute.y s.absolute.width s.absolute.height) with
        thread := .sending holder
        absolute := { s.absolute with dirty := false } }
  | .other _ => { s with thread := .sending holder }

/-- One round of the loop that sends the deltas, up to its send. -/
def split (holder : P) : State P K :=
  if s.relative.deltaX = 0 ∧ s.relative.deltaY = 0 then
    { s with thread := .waiting, relative := { s.relative with dirty := false } }
  else
    let (deltaX, restX, moreX) := splitDelta s.relative.deltaX
    let (deltaY, restY, moreY) := splitDelta s.relative.deltaY
    { s.write holder (.mouseMoveRel deltaX deltaY) with
      thread := .sendingMove holder (moreX || moreY)
      relative := { s.relative with deltaX := restX, deltaY := restY } }

def send (holder : P) (more : Bool) (next : InputThread P) (ok : Bool) : State P K :=
  { s with
    sent := s.sent ++ [(s.memory holder, more)]
    thread := if ok then next else .failed }

end State

open State

variable [DecidableEq P]

/-- Each connection has a host. -/
def step (hosts : Nat → Host K) (s : State P K) : Label P K → Option (State P K)
  | .call event =>
      match s.sender with
      | .idle => some (if s.initialized then s.call (hosts s.connection) event else s)
      | _ => none
  | .allocate holder =>
      match s.sender, holder with
      | .allocating packet, some holder =>
          if holder ∈ s.holders then none else some { s with sender := .filling packet holder }
      | .allocating packet, none => some (s.abandon packet)
      | _, _ => none
  | .fill =>
      match s.sender with
      | .filling packet holder => some (s.fill packet holder)
      | _ => none
  | .offer =>
      match s.sender with
      | .offering packet holder => some (s.offer (hosts s.connection) packet holder)
      | _ => none
  | .stop =>
      match s.sender with
      | .idle =>
          some { s with
            initialized := false
            packetQueue := (s.packetQueue.perform .signalDrain).1 }
      | _ => none
  | .destroy =>
      match s.sender, s.initialized, s.thread with
      | .idle, false, .ended | .idle, false, .failed => some s.destroy
      | _, _, _ => none
  | .restart =>
      match s.sender, s.thread with
      | .idle, .absent => some s.restart
      | _, _ => none
  | .wait =>
      match s.thread with
      | .waiting => (waitForHolder s.packetQueue).map fun (queue, holder) =>
          { s with packetQueue := queue, thread := (holder.map .taken).getD .ended }
      | _ => none
  | .dispatch =>
      match s.thread with
      | .taken holder => some (s.dispatch holder)
      | _ => none
  | .split =>
      match s.thread with
      | .moving holder => some (s.split holder)
      | _ => none
  | .send ok =>
      match s.thread with
      | .sendingMove holder more => some (s.send holder more (.moving holder) ok)
      | .sending holder =>
          some (s.send holder (!s.packetQueue.elements.isEmpty) .waiting ok)
      | _ => none

/-- The state after the first `startInputStream`. -/
def start (memory : P → Packet K) : State P K := { memory }

end MoonlightScarlet.Core.InputStream
