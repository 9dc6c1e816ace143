import MoonlightScarlet.Fec.ReedSolomon
import MoonlightScarlet.Support.ByteOrder
import MoonlightScarlet.Support.Runs
/-!
# The queue of audio packets

`RtpAudioQueue.c`: packets of audio data come in FEC blocks of four, with two FEC packets for
each block.  The queue puts them in order and recovers lost ones.  `violated` tells that an
`LC_ASSERT` has failed.  The list is a `List`, so those on the links of the blocks and on the
number of free blocks have no counterpart, nor have those that are off for invalid traffic.
-/

namespace MoonlightScarlet.Core.RtpAudioQueue

open Fec Support

/-- `RTP_PACKET` and the bytes that follow it. -/
structure RtpPacket where
  header : UInt8
  packetType : UInt8
  sequenceNumber : UInt16
  timestamp : UInt32
  ssrc : UInt32
  body : List UInt8
  deriving DecidableEq

structure AudioFecHeader where
  fecShardIndex : UInt8
  payloadType : UInt8
  baseSequenceNumber : UInt16
  baseTimestamp : UInt32
  ssrc : UInt32
  deriving DecidableEq

def rtpPayloadTypeAudio : UInt8 := 97

def rtpPayloadTypeFec : UInt8 := 127

/-- The header of an FEC packet and the data after it. -/
def readFecHeader : List UInt8 → Option (AudioFecHeader × List UInt8)
  | index :: payloadType :: s1 :: s0 :: t3 :: t2 :: t1 :: t0 :: r3 :: r2 :: r1 :: r0 :: data =>
      some ({
        fecShardIndex := index
        payloadType := payloadType
        baseSequenceNumber := UInt16.ofNat (Endian.big.number [s1, s0])
        baseTimestamp := UInt32.ofNat (Endian.big.number [t3, t2, t1, t0])
        ssrc := UInt32.ofNat (Endian.big.number [r3, r2, r1, r0]) }, data)
  | _ => none

/-- `RTPA_FEC_BLOCK`; a mark stands for a shard that is missing. -/
structure FecBlock where
  fecHeader : AudioFecHeader
  blockSize : Nat
  dataPackets : Nat → RtpPacket
  fecPackets : Nat → List UInt8
  marks : Nat → Bool
  queueTimeUs : UInt64
  dataShardsReceived : Nat := 0
  fecShardsReceived : Nat := 0
  fullyReassembled : Bool := false
  nextDataPacketIndex : Nat := 0
  allowDiscontinuity : Bool := false

abbrev FecBlock.baseSequenceNumber (block : FecBlock) : UInt16 :=
  block.fecHeader.baseSequenceNumber

structure Queue where
  blocks : List FecBlock := []
  nextRtpSequenceNumber : UInt16 := 0
  oldestRtpBaseSequenceNumber : UInt16 := 0
  lastOosSequenceNumber : UInt16 := 0
  receivedOosData : Bool := false
  synchronizing : Bool := true
  incompatibleServer : Bool
  violated : Bool := false

/-- `RtpaInitializeQueue`; hosts before GFE 3.19 are not compatible. -/
def initializeQueue (compatible : Bool) : Queue where
  incompatibleServer := !compatible

/-- The parity rows that stand in for those of `reed_solomon_new`. -/
def parity : List UInt8 := [0x77, 0x40, 0x38, 0x0e, 0xc7, 0xa7, 0x0d, 0x6c]

/-- `queue->rs`. -/
def coder : ReedSolomon where
  ds := 4
  ps := 2
  p j i := parity.getD (j * 4 + i) 0

/-- Whether `x` comes before `y`, less than half the numbers apart. -/
def isBefore16 (x y : UInt16) : Bool := 0x7FFF < x - y

def Queue.lcAssert (queue : Queue) (holds : Bool) : Queue :=
  { queue with violated := queue.violated || !holds }

/-- Each block of the list comes before the next. -/
def sortedBlocks : List FecBlock → Bool
  | [] => true
  | [_] => true
  | last :: block :: blocks =>
      isBefore16 last.baseSequenceNumber block.baseSequenceNumber &&
        sortedBlocks (block :: blocks)

/-- What `validateFecBlockState` asserts. -/
def validFecBlockState (queue : Queue) : Bool :=
  (!isBefore16 queue.nextRtpSequenceNumber queue.oldestRtpBaseSequenceNumber ||
    queue.synchronizing) &&
  match queue.blocks with
  | [] => true
  | head :: _ =>
      isBefore16 queue.nextRtpSequenceNumber (head.baseSequenceNumber + 4) &&
      !isBefore16 head.baseSequenceNumber queue.oldestRtpBaseSequenceNumber &&
      sortedBlocks queue.blocks

def validateFecBlockState (queue : Queue) : Queue := queue.lcAssert (validFecBlockState queue)

def freeFecBlockHead (queue : Queue) : Queue :=
  match queue.blocks with
  | [] => queue
  | head :: blocks =>
      validateFecBlockState { queue with
        blocks := blocks
        oldestRtpBaseSequenceNumber := head.baseSequenceNumber + 4
        synchronizing := false }

section GetFecBlock

variable (duration : UInt32)

/-- Remembers whether data packets came out of sequence lately. -/
def noteSequence (queue : Queue) (sequenceNumber : UInt16) : Queue :=
  if !queue.synchronizing && isBefore16 sequenceNumber queue.oldestRtpBaseSequenceNumber then
    { queue with lastOosSequenceNumber := sequenceNumber, receivedOosData := true }
  else if queue.receivedOosData &&
      isBefore16 queue.oldestRtpBaseSequenceNumber queue.lastOosSequenceNumber then
    { queue with receivedOosData := false }
  else queue

/-- The FEC header for a packet, made up for a data packet, and the size of its shard. -/
def blockHeader (queue : Queue) (packet : RtpPacket) : Queue × Option (AudioFecHeader × Nat) :=
  if packet.packetType = rtpPayloadTypeAudio then
    let base := packet.sequenceNumber / 4 * 4
    (noteSequence queue packet.sequenceNumber,
      some ({
        fecShardIndex := 0
        payloadType := packet.packetType
        baseSequenceNumber := base
        baseTimestamp :=
          packet.timestamp - (packet.sequenceNumber - base).toUInt32 * duration
        ssrc := packet.ssrc }, packet.body.length))
  else if packet.packetType = rtpPayloadTypeFec then
    match readFecHeader packet.body with
    | none => (queue, none)
    | some (fecHeader, data) =>
        if 2 ≤ fecHeader.fecShardIndex then (queue, none)
        else if fecHeader.baseSequenceNumber % 4 ≠ 0 then
          ({ queue with incompatibleServer := true }, none)
        else (queue, some ({ fecHeader with fecShardIndex := 0 }, data.length))
  else (queue, none)

/-- The place of a block in the list, and whether it is there already. -/
def findBlock (base : UInt16) : List FecBlock → Nat × Bool
  | [] => (0, false)
  | block :: blocks =>
      if block.baseSequenceNumber = base then (0, true)
      else if isBefore16 base block.baseSequenceNumber then (0, false)
      else
        let rest := findBlock base blocks
        (rest.1 + 1, rest.2)

/-- A block without shards; the contents of its packets are not read before they are set. -/
def newBlock (fecHeader : AudioFecHeader) (blockSize : Nat) (queueTimeUs : UInt64) :
    FecBlock where
  fecHeader := fecHeader
  blockSize := blockSize
  dataPackets _ := ⟨0, 0, 0, 0, 0, []⟩
  fecPackets _ := []
  marks _ := true
  queueTimeUs := queueTimeUs

/-- The place of the block that a packet belongs to, after it was made if need be. -/
def getFecBlockForRtpPacket (queue : Queue) (packet : RtpPacket) (alloc : Bool)
    (created : UInt64) : Queue × Option Nat :=
  match blockHeader duration (validateFecBlockState queue) packet with
  | (queue, none) => (queue, none)
  | (queue, some (fecHeader, blockSize)) =>
      let base := fecHeader.baseSequenceNumber
      if queue.synchronizing && queue.oldestRtpBaseSequenceNumber == 0 then
        ({ queue with
            nextRtpSequenceNumber := base + 4
            oldestRtpBaseSequenceNumber := base + 4 }, none)
      else if isBefore16 base queue.oldestRtpBaseSequenceNumber then (queue, none)
      else
        match findBlock base queue.blocks with
        | (place, true) =>
            match queue.blocks[place]? with
            | none => (queue, none)
            | some block =>
                if block.blockSize ≠ blockSize then
                  ({ queue with incompatibleServer := true }, none)
                else (queue, if block.fullyReassembled then none else some place)
        | (place, false) =>
            if alloc then
              (validateFecBlockState { queue with
                blocks := queue.blocks.insertIdx place (newBlock fecHeader blockSize created) },
                some place)
            else (queue, none)

end GetFecBlock

section CompleteFecBlock

variable (duration : UInt32)

/-- The bytes that the shard pointers of a block lead to. -/
def shardsOf (block : FecBlock) : Shards block.blockSize := fun t k =>
  if t < 4 then (block.dataPackets t).body.getD k 0 else (block.fecPackets (t - 4)).getD k 0

/-- The bytes that the shard pointers of the data packets lead to, after they were written. -/
def storeShards (block : FecBlock) (shards : Shards block.blockSize) : FecBlock :=
  { block with
    dataPackets := fun i =>
      if i < 4 then { block.dataPackets i with body := List.ofFn (shards i) }
      else block.dataPackets i }

/-- A missing data packet gets its header from that of the block. -/
def recoverHeaders (block : FecBlock) : FecBlock :=
  { block with
    dataPackets := fun i =>
      if i < 4 && block.marks i then
        { header := 0x80
          packetType := block.fecHeader.payloadType
          sequenceNumber := block.fecHeader.baseSequenceNumber + UInt16.ofNat i
          timestamp := block.fecHeader.baseTimestamp + UInt32.ofNat i * duration
          ssrc := block.fecHeader.ssrc
          body := (block.dataPackets i).body }
      else block.dataPackets i
    marks := fun i => if i < 4 then false else block.marks i }

/-- Whether the block is complete, the block after recovery, and whether the assertions
held. -/
def completeFecBlock (block : FecBlock) : Bool × FecBlock × Bool :=
  if block.dataShardsReceived + block.fecShardsReceived < 4 then (false, block, true)
  else if block.dataShardsReceived = 4 then (true, block, true)
  else
    let decoded := reedSolomonDecode coder (shardsOf block) block.marks 6
    let stored := storeShards block decoded.2
    if decoded.1 ≠ 0 then (false, stored, false)
    else (true, recoverHeaders duration stored, block.dataShardsReceived ≤ 4)

end CompleteFecBlock

def queueHasPacketReady (queue : Queue) : Bool :=
  match queue.blocks with
  | [] => false
  | head :: _ =>
      !head.marks head.nextDataPacketIndex &&
        head.baseSequenceNumber.toNat + head.nextDataPacketIndex ==
          queue.nextRtpSequenceNumber.toNat ||
      head.allowDiscontinuity

/-- The time to wait for a block after data came out of sequence. -/
def oosWaitTime (duration : UInt32) : UInt64 := (duration * 4).toUInt64 + 10 * 1000

def handleMissingPackets (duration : UInt32) (queue : Queue) (now : UInt64) : Queue :=
  match queue.blocks with
  | [] => queue
  | head :: blocks =>
      if isBefore16 queue.nextRtpSequenceNumber head.baseSequenceNumber then
        { queue with
          nextRtpSequenceNumber := head.baseSequenceNumber
          oldestRtpBaseSequenceNumber := head.baseSequenceNumber }
      else if blocks.isEmpty then queue
      else if !queue.receivedOosData || oosWaitTime duration < now - head.queueTimeUs then
        let queue := { queue with blocks := { head with allowDiscontinuity := true } :: blocks }
        (validateFecBlockState queue).lcAssert (queueHasPacketReady queue)
      else queue

inductive Status
  | rejected
  | packetReady
  | handleNow
  deriving DecidableEq

/-- The end of `RtpaAddPacket`, for a shard stored at `place` that is not handled at once. -/
def completeAndCheck (duration : UInt32) (queue : Queue) (place : Nat) (block : FecBlock)
    (now : UInt64) : Queue × Status :=
  let queue := queue.lcAssert (place == 0 || 1 < queue.blocks.length)
  let (complete, block, holds) := completeFecBlock duration block
  let block := if complete then { block with fullyReassembled := true } else block
  let queue := { queue.lcAssert holds with blocks := queue.blocks.set place block }
  let queue := validateFecBlockState queue
  let queue := if queueHasPacketReady queue then queue else handleMissingPackets duration queue now
  let queue := validateFecBlockState queue
  (queue, if queueHasPacketReady queue then .packetReady else .rejected)

/-- The part of `RtpaAddPacket` for a data packet that belongs to the block at `place`. -/
def addDataPacket (duration : UInt32) (queue : Queue) (packet : RtpPacket) (place : Nat)
    (block : FecBlock) (now : UInt64) : Queue × Status :=
  let pos := (packet.sequenceNumber - block.baseSequenceNumber).toNat
  let queue := queue.lcAssert (pos < 4)
  if block.marks pos then
    let block := { block with
      dataPackets := Function.update block.dataPackets pos packet
      marks := Function.update block.marks pos false
      dataShardsReceived := block.dataShardsReceived + 1 }
    if packet.sequenceNumber = queue.nextRtpSequenceNumber then
      let block := { block with nextDataPacketIndex := block.nextDataPacketIndex + 1 }
      let queue := { queue with
        nextRtpSequenceNumber := packet.sequenceNumber + 1
        blocks := queue.blocks.set place block }
      if queue.nextRtpSequenceNumber = block.baseSequenceNumber + 4 then
        (freeFecBlockHead (queue.lcAssert (place == 0 && block.nextDataPacketIndex == 4)),
          .handleNow)
      else (validateFecBlockState queue, .handleNow)
    else completeAndCheck duration { queue with blocks := queue.blocks.set place block } place
      block now
  else (queue, .rejected)

/-- The part of `RtpaAddPacket` for an FEC packet. -/
def addFecPacket (duration : UInt32) (queue : Queue) (packet : RtpPacket) (place : Nat)
    (block : FecBlock) (now : UInt64) : Queue × Status :=
  match readFecHeader packet.body with
  | none => (queue, .rejected)
  | some (fecHeader, data) =>
      let index := fecHeader.fecShardIndex.toNat
      let queue := queue.lcAssert (index < 2)
      if block.marks (4 + index) then
        let block := { block with
          fecPackets := Function.update block.fecPackets index data
          marks := Function.update block.marks (4 + index) false
          fecShardsReceived := block.fecShardsReceived + 1 }
        completeAndCheck duration { queue with blocks := queue.blocks.set place block } place
          block now
      else (queue, .rejected)

/-- `RtpaAddPacket`: `created` and `now` are the times that the clock shows. -/
def addPacket (duration : UInt32) (queue : Queue) (packet : RtpPacket) (alloc : Bool)
    (created now : UInt64) : Queue × Status :=
  if queue.incompatibleServer then
    (queue, if packet.packetType = rtpPayloadTypeAudio then .handleNow else .rejected)
  else
    match getFecBlockForRtpPacket duration queue packet alloc created with
    | (queue, none) => (queue, .rejected)
    | (queue, some place) =>
        match queue.blocks[place]? with
        | none => (queue, .rejected)
        | some block =>
            if packet.packetType = rtpPayloadTypeAudio then
              addDataPacket duration queue packet place block now
            else if packet.packetType = rtpPayloadTypeFec then
              addFecPacket duration queue packet place block now
            else (queue.lcAssert false, .rejected)

/-- What `RtpaGetQueuedPacket` hands out: a packet, or an empty entry for one that was lost. -/
inductive Queued
  | lost
  | packet (packet : RtpPacket)
  deriving DecidableEq

/-- Moves on to the next data packet of the first block. -/
def advance (queue : Queue) (head : FecBlock) (blocks : List FecBlock) : Queue :=
  { queue with
    blocks := { head with nextDataPacketIndex := head.nextDataPacketIndex + 1 } :: blocks
    nextRtpSequenceNumber := queue.nextRtpSequenceNumber + 1 }

/-- The first block is freed when `index` shows that all of it was read. -/
def freeIfRead (queue : Queue) (index : Nat) : Queue :=
  if index = 4 then freeFecBlockHead queue else validateFecBlockState queue

/-- The end of `RtpaGetQueuedPacket`: the next packet in order. -/
def takeReady (queue : Queue) (alloc : Bool) : Queue × Option Queued :=
  let queue := validateFecBlockState queue
  if queueHasPacketReady queue && alloc then
    match queue.blocks with
    | [] => (queue, none)
    | head :: blocks =>
        (freeIfRead (advance queue head blocks) (head.nextDataPacketIndex + 1),
          some (.packet (head.dataPackets head.nextDataPacketIndex)))
  else (queue, none)

def getQueuedPacket (queue : Queue) (alloc : Bool) : Queue × Option Queued :=
  let queue := validateFecBlockState queue
  match queue.blocks with
  | [] => takeReady queue alloc
  | head :: blocks =>
      if head.allowDiscontinuity then
        let queue := queue.lcAssert
          (head.baseSequenceNumber.toNat + head.nextDataPacketIndex ==
            queue.nextRtpSequenceNumber.toNat)
        if head.marks head.nextDataPacketIndex then
          if alloc then
            (freeIfRead (advance queue head blocks) (head.nextDataPacketIndex + 1), some .lost)
          else (queue, none)
        else
          let queue := queue.lcAssert (queueHasPacketReady queue)
          takeReady (freeIfRead queue head.nextDataPacketIndex) alloc
      else takeReady queue alloc

/-! ## Runs -/

/-- The receiving thread adds a packet that arrived or asks for one that is queued. -/
inductive Label
  | addPacket (packet : RtpPacket) (alloc : Bool) (created now : UInt64)
  | getQueuedPacket (alloc : Bool)

/-- What the queue passed on in its turn, and the sequence number it was expected at. -/
structure Entry where
  position : UInt16
  content : Queued
  deriving DecidableEq

/-- What the decoder gets: an entry in its turn, or a packet that is passed straight through
because the server is incompatible. -/
inductive Decoded
  | inTurn (entry : Entry)
  | straight (packet : RtpPacket)
  deriving DecidableEq

def Decoded.entry? : Decoded → Option Entry
  | .inTurn entry => some entry
  | .straight _ => none

structure State where
  queue : Queue
  decoded : List Decoded

namespace State

/-- What was passed on in its turn. -/
def entries (s : State) : List Entry := s.decoded.filterMap Decoded.entry?

/-- The packet goes to the decoder at once if the status says so. -/
def handle (s : State) (packet : RtpPacket) : Status → List Decoded
  | .handleNow =>
      [if s.queue.incompatibleServer then .straight packet
        else .inTurn ⟨s.queue.nextRtpSequenceNumber, .packet packet⟩]
  | .rejected | .packetReady => []

end State

def start (compatible : Bool) : State := ⟨initializeQueue compatible, []⟩

def step (duration : UInt32) (s : State) : Label → Option State
  | .addPacket packet alloc created now =>
      let (queue, status) := addPacket duration s.queue packet alloc created now
      some { queue, decoded := s.decoded ++ s.handle packet status }
  | .getQueuedPacket alloc =>
      let (queue, queued) := getQueuedPacket s.queue alloc
      some {
        queue
        decoded := s.decoded ++ (queued.map fun content =>
          .inTurn ⟨s.queue.nextRtpSequenceNumber, content⟩).toList }

end MoonlightScarlet.Core.RtpAudioQueue
