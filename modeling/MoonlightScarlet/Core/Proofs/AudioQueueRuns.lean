import MoonlightScarlet.Core.Proofs.AudioQueueInvariant
/-!
# What the queue of audio packets hands out

Every call keeps the invariant, as long as a packet carries data and the queue does not start
over while it has blocks.  So no assertion fails, and what reaches the decoder is in order.
-/

namespace MoonlightScarlet.Core.RtpAudioQueue

open Support.Runs

variable {K : Knowledge} {duration : UInt32} {queue : Queue} {decoded : List Entry}
  {packet : RtpPacket}

/-! ## The block of a packet -/

/-- What a packet needs to make up a shard. -/
def Carries (packet : RtpPacket) : Prop :=
  (packet.packetType = rtpPayloadTypeAudio → packet.body.length ≠ 0) ∧
    (packet.packetType = rtpPayloadTypeFec → packet.body.length ≠ 12)

instance (packet : RtpPacket) : Decidable (Carries packet) :=
  inferInstanceAs (Decidable (_ ∧ _))

/-- Two queues that differ in what the invariant does not speak of. -/
structure Same (queue' queue : Queue) : Prop where
  blocks : queue'.blocks = queue.blocks
  next : queue'.nextRtpSequenceNumber = queue.nextRtpSequenceNumber
  oldest : queue'.oldestRtpBaseSequenceNumber = queue.oldestRtpBaseSequenceNumber
  synchronizing : queue'.synchronizing = queue.synchronizing
  violated : queue'.violated = queue.violated

theorem Same.refl (queue : Queue) : Same queue queue := ⟨rfl, rfl, rfl, rfl, rfl⟩

theorem Inv.of_same {queue' : Queue} (h : Inv K queue decoded) (hsame : Same queue' queue) :
    Inv K queue' decoded := by
  obtain ⟨hblocks, hnext, holdest, hsync, hviolated⟩ := hsame
  refine ⟨?_, ?_, hviolated.trans h.unharmed, h.chain, h.packets, ?_, ?_⟩
  · rw [Queue.slots, hblocks, hnext, holdest]
    exact h.ordered
  · rw [hblocks]
    exact h.consistent
  · rw [Queue.slots, hblocks, hnext, holdest]
    exact h.last
  · rw [hblocks, hsync]
    exact h.synchronized

theorem noteSequence_same (queue : Queue) (sequenceNumber : UInt16) :
    Same (noteSequence queue sequenceNumber) queue := by
  unfold noteSequence
  split
  · exact ⟨rfl, rfl, rfl, rfl, rfl⟩
  · split <;> exact ⟨rfl, rfl, rfl, rfl, rfl⟩

theorem blockHeader_same (duration : UInt32) (queue : Queue) (packet : RtpPacket) :
    Same (blockHeader duration queue packet).1 queue := by
  unfold blockHeader
  split
  · exact noteSequence_same queue packet.sequenceNumber
  · split
    · split
      · exact .refl queue
      · split
        · exact .refl queue
        · split
          · exact ⟨rfl, rfl, rfl, rfl, rfl⟩
          · exact .refl queue
    · exact .refl queue

theorem length_of_readFecHeader {body data : List UInt8} {fecHeader : AudioFecHeader}
    (h : readFecHeader body = some (fecHeader, data)) : body.length = data.length + 12 := by
  unfold readFecHeader at h
  split at h
  · cases h
    rfl
  · cases h

/-- What is known of a packet that arrives. -/
structure Knowledge.Admits (K : Knowledge) (duration : UInt32) (packet : RtpPacket) : Prop where
  block : ∀ queue fecHeader blockSize,
    (blockHeader duration queue packet).2 = some (fecHeader, blockSize) →
      K.block fecHeader blockSize
  data : packet.packetType = rtpPayloadTypeAudio → K.packet packet.sequenceNumber packet
  fec : packet.packetType = rtpPayloadTypeFec → ∀ fecHeader data,
    readFecHeader packet.body = some (fecHeader, data) → fecHeader.fecShardIndex.toNat < 2 →
      K.parity fecHeader.baseSequenceNumber fecHeader.fecShardIndex.toNat data

/-- A packet belongs to a block. -/
structure Belongs (K : Knowledge) (packet : RtpPacket) (base : UInt16) (blockSize : ℕ) :
    Prop where
  aligned : base.toNat % 4 = 0
  size : blockSize ≠ 0
  data : packet.packetType = rtpPayloadTypeAudio → base = packet.sequenceNumber / 4 * 4 ∧
    K.packet packet.sequenceNumber packet
  fec : packet.packetType ≠ rtpPayloadTypeAudio → packet.packetType = rtpPayloadTypeFec ∧
    ∃ fecHeader data, readFecHeader packet.body = some (fecHeader, data) ∧
      fecHeader.fecShardIndex.toNat < 2 ∧ K.parity base fecHeader.fecShardIndex.toNat data

/-- Where a packet has a block, it is a data packet, or an FEC packet whose header is valid. -/
theorem blockHeader_cases {fecHeader : AudioFecHeader} {blockSize : ℕ}
    (h : (blockHeader duration queue packet).2 = some (fecHeader, blockSize)) :
    (packet.packetType = rtpPayloadTypeAudio ∧ blockSize = packet.body.length ∧
      fecHeader = {
        fecShardIndex := 0
        payloadType := packet.packetType
        baseSequenceNumber := packet.sequenceNumber / 4 * 4
        baseTimestamp := packet.timestamp -
          (packet.sequenceNumber - packet.sequenceNumber / 4 * 4).toUInt32 * duration
        ssrc := packet.ssrc }) ∨
    (packet.packetType ≠ rtpPayloadTypeAudio ∧ packet.packetType = rtpPayloadTypeFec ∧
      ∃ fecHeader' data, readFecHeader packet.body = some (fecHeader', data) ∧
        fecHeader'.fecShardIndex.toNat < 2 ∧ fecHeader'.baseSequenceNumber.toNat % 4 = 0 ∧
        blockSize = data.length ∧ fecHeader = { fecHeader' with fecShardIndex := 0 }) := by
  unfold blockHeader at h
  split at h
  case isTrue haudio =>
    cases h
    exact Or.inl ⟨haudio, rfl, rfl⟩
  case isFalse haudio =>
    split at h
    case isTrue hfec =>
      split at h
      case h_1 => cases h
      case h_2 hread =>
        split at h
        case isTrue => cases h
        case isFalse hindex =>
          split at h
          case isTrue => cases h
          case isFalse hbase =>
            cases h
            have hmod := congrArg UInt16.toNat (not_not.mp hbase)
            rw [UInt16.toNat_mod] at hmod
            exact Or.inr ⟨haudio, hfec, _, _, hread, Nat.not_le.mp hindex, hmod, rfl, rfl⟩
    case isFalse => cases h

theorem toNat_base (sequenceNumber : UInt16) :
    (sequenceNumber / 4 * 4).toNat = sequenceNumber.toNat / 4 * 4 := by
  have hlt := sequenceNumber.toNat_lt
  rw [UInt16.toNat_mul, UInt16.toNat_div]
  simp only [UInt16.reduceToNat]
  omega

/-- A number is its block's base and a place in the block. -/
theorem base_split (n : UInt16) : (n - n / 4 * 4).toNat < 4 ∧
    n = n / 4 * 4 + UInt16.ofNat (n - n / 4 * 4).toNat := by
  have hlt := n.toNat_lt
  constructor
  · rw [UInt16.toNat_sub, toNat_base]
    omega
  · rw [UInt16.ofNat_toNat, UInt16.add_comm, UInt16.sub_add_cancel]

theorem blockHeader_belongs {fecHeader : AudioFecHeader} {blockSize : ℕ}
    (hcarries : Carries packet) (hadmits : K.Admits duration packet)
    (h : (blockHeader duration queue packet).2 = some (fecHeader, blockSize)) :
    Belongs K packet fecHeader.baseSequenceNumber blockSize := by
  rcases blockHeader_cases h with ⟨haudio, rfl, rfl⟩ |
    ⟨haudio, hfec, fecHeader', data, hread, hindex, hbase, rfl, rfl⟩
  · refine ⟨?_, hcarries.1 haudio, fun _ => ⟨rfl, hadmits.data haudio⟩,
      fun hne => absurd haudio hne⟩
    dsimp only
    rw [toNat_base]
    exact Nat.mul_mod_left _ 4
  · have hlength := length_of_readFecHeader hread
    exact ⟨hbase, fun hnil => hcarries.2 hfec (by omega), fun heq => absurd heq haudio,
      fun _ => ⟨hfec, fecHeader', data, hread, hindex, hadmits.fec hfec _ _ hread hindex⟩⟩

/-! ## Finding the block -/

theorem insertIdx_eq {α : Type*} (l : List α) {n : ℕ} (hn : n ≤ l.length) (a : α) :
    l.insertIdx n a = l.take n ++ a :: l.drop n := by
  induction l generalizing n with
  | nil =>
      obtain rfl := Nat.le_zero.mp hn
      rfl
  | cons b l ih =>
      cases n with
      | zero => rfl
      | succ n =>
          rw [List.insertIdx_succ_cons, ih (Nat.le_of_succ_le_succ hn)]
          rfl

theorem Consistent.new {fecHeader : AudioFecHeader} {blockSize : ℕ} (created : UInt64)
    (hsize : blockSize ≠ 0) (hheader : K.block fecHeader blockSize) :
    Consistent K (newBlock fecHeader blockSize created) where
  size := hsize
  data _ := rfl
  fec _ := rfl
  header := hheader
  packets _ _ hmark := absurd hmark Bool.noConfusion
  parity _ _ hmark := absurd hmark Bool.noConfusion

namespace Inv

/-- The first packet sets the place at which the queue begins. -/
theorem restart (h : Inv K queue decoded) (hsync : queue.synchronizing = true)
    (hempty : queue.blocks = []) {base : UInt16} (hbase : base.toNat % 4 = 0) :
    Inv K { queue with
        nextRtpSequenceNumber := base + 4
        oldestRtpBaseSequenceNumber := base + 4 } decoded := by
  have hdecoded : decoded = [] := by
    by_contra hne
    exact h.synchronized hsync hne hempty
  have hfour : (base + 4).toNat % 4 = 0 := by
    rw [UInt16.toNat_add]
    simp only [UInt16.reduceToNat]
    omega
  subst hdecoded
  refine ⟨?_, h.consistent, h.unharmed, h.chain, h.packets,
    fun _ hlast => absurd hlast.symm (Option.some_ne_none _), fun _ hne => absurd rfl hne⟩
  dsimp only [Queue.slots]
  rw [hempty]
  exact Ordered.nil hfour

/-- A new block enters the list. -/
theorem insert (h : Inv K queue decoded) {fecHeader : AudioFecHeader} {blockSize : ℕ}
    (created : UInt64) (hbelongs : Belongs K packet fecHeader.baseSequenceNumber blockSize)
    (hheader : K.block fecHeader blockSize)
    (hnear : isBefore16 fecHeader.baseSequenceNumber queue.oldestRtpBaseSequenceNumber ≠ true)
    (hmissing : (findBlock fecHeader.baseSequenceNumber queue.blocks).2 = false) :
    (findBlock fecHeader.baseSequenceNumber queue.blocks).1 ≤ queue.blocks.length ∧
      Inv K { queue with
        blocks := queue.blocks.insertIdx (findBlock fecHeader.baseSequenceNumber queue.blocks).1
          (newBlock fecHeader blockSize created) } decoded := by
  have hoffset := isBefore16_oldest.mp (Bool.eq_false_of_not_eq_true hnear)
  have hsorted := List.pairwise_map.mp h.ordered.sorted
  obtain ⟨hle, hbefore, hafter⟩ := findBlock_missing hoffset
    (fun b hb => h.ordered.near b.slot (List.mem_map_of_mem hb)) hsorted hmissing
  generalize (findBlock fecHeader.baseSequenceNumber queue.blocks).1 = place at *
  have hslots : (queue.blocks.insertIdx place (newBlock fecHeader blockSize created)).map
      FecBlock.slot = (queue.blocks.take place).map FecBlock.slot ++
        ⟨fecHeader.baseSequenceNumber, 0, false⟩ ::
          (queue.blocks.drop place).map FecBlock.slot := by
    rw [insertIdx_eq _ hle, List.map_append, List.map_cons]
    rfl
  have hold : (queue.blocks.take place).map FecBlock.slot ++
      (queue.blocks.drop place).map FecBlock.slot = queue.slots := by
    rw [← List.map_append, List.take_append_drop]
  have hordered := h.ordered
  rw [← hold] at hordered
  refine ⟨hle, ?_, fun b hb => ?_, h.unharmed, h.chain, h.packets, fun entry hlast => ?_,
    fun _ _ hnil => ?_⟩
  · rw [Queue.slots, hslots]
    exact hordered.insert hbelongs.aligned hoffset (List.forall_mem_map.mpr hbefore)
      (List.forall_mem_map.mpr hafter)
  · rcases (List.mem_insertIdx hle).mp hb with rfl | hmem
    · exact .new created hbelongs.size hheader
    · exact h.consistent b hmem
  · obtain ⟨hposition, hnext⟩ := h.last entry hlast
    refine ⟨hposition, hnext.imp_right ?_⟩
    rintro ⟨b, hb, hbase⟩
    refine ⟨b, ?_, hbase⟩
    rw [← hold, List.mem_append] at hb
    rw [Queue.slots, hslots, List.mem_append, List.mem_cons]
    tauto
  · have hlength := congrArg List.length hnil
    rw [List.length_insertIdx_of_le_length hle] at hlength
    exact absurd hlength (Nat.succ_ne_zero _)

end Inv

/-- A call that looks for the block of a packet keeps the invariant, and what it finds is open. -/
def Finds (K : Knowledge) (packet : RtpPacket) (next : UInt16) (decoded : List Entry)
    (result : Queue × Option ℕ) : Prop :=
  Inv K result.1 decoded ∧ ∀ place, result.2 = some place →
    result.1.nextRtpSequenceNumber = next ∧ ∃ block, result.1.blocks[place]? = some block ∧
      block.fullyReassembled = false ∧ Belongs K packet block.baseSequenceNumber block.blockSize

theorem Finds.none {next : UInt16} (h : Inv K queue decoded) :
    Finds K packet next decoded (queue, none) :=
  ⟨h, fun _ hplace => absurd hplace.symm (Option.some_ne_none _)⟩

theorem getFecBlock_finds (h : Inv K queue decoded) (hcarries : Carries packet)
    (hadmits : K.Admits duration packet)
    (hstart : queue.synchronizing = true → queue.oldestRtpBaseSequenceNumber = 0 →
      queue.blocks = []) (alloc : Bool) (created : UInt64) :
    Finds K packet queue.nextRtpSequenceNumber decoded
      (getFecBlockForRtpPacket duration queue packet alloc created) := by
  have hsame := blockHeader_same duration queue packet
  have hbelongs : ∀ fecHeader blockSize,
      (blockHeader duration queue packet).2 = some (fecHeader, blockSize) →
        Belongs K packet fecHeader.baseSequenceNumber blockSize :=
    fun _ _ => blockHeader_belongs hcarries hadmits
  unfold getFecBlockForRtpPacket
  rw [validate_eq h.ordered]
  rcases hheader : blockHeader duration queue packet with ⟨queue', _ | ⟨fecHeader, blockSize⟩⟩
  · rw [hheader] at hsame
    exact .none (h.of_same hsame)
  have hknown : K.block fecHeader blockSize := hadmits.block queue _ _ (by rw [hheader])
  rw [hheader] at hsame hbelongs
  have hinv : Inv K queue' decoded := h.of_same hsame
  have hpacket := hbelongs fecHeader blockSize rfl
  have hnext : queue'.nextRtpSequenceNumber = queue.nextRtpSequenceNumber := hsame.next
  dsimp only
  split
  case isTrue hfirst =>
    rw [Bool.and_eq_true, beq_iff_eq] at hfirst
    have hempty : queue'.blocks = [] := hsame.blocks.trans
      (hstart (hsame.synchronizing.symm.trans hfirst.1) (hsame.oldest.symm.trans hfirst.2))
    exact .none (hinv.restart hfirst.1 hempty hpacket.aligned)
  case isFalse =>
    split
    case isTrue => exact .none hinv
    case isFalse hnear =>
      split
      case h_1 place hfind =>
        obtain ⟨found, hget, hbase⟩ := findBlock_found (congrArg Prod.snd hfind)
        rw [hfind] at hget
        rw [hget]
        dsimp only
        split
        case isTrue => exact .none (hinv.of_same ⟨rfl, rfl, rfl, rfl, rfl⟩)
        case isFalse hsize =>
          split
          case isTrue => exact .none hinv
          case isFalse hopen =>
            refine ⟨hinv, fun place' hplace => ?_⟩
            cases hplace
            refine ⟨hnext, found, hget, Bool.eq_false_of_not_eq_true hopen, ?_⟩
            rw [hbase, not_not.mp hsize]
            exact hpacket
      case h_2 place hfind =>
        split
        case isFalse => exact .none hinv
        case isTrue =>
          obtain ⟨hle, hinserted⟩ := hinv.insert created hpacket hknown hnear
            (congrArg Prod.snd hfind)
          rw [hfind] at hle hinserted
          rw [validate_eq hinserted.ordered]
          refine ⟨hinserted, fun place' hplace => ?_⟩
          cases hplace
          exact ⟨hnext, newBlock fecHeader blockSize created,
            List.getElem?_insertIdx_self.trans (if_pos hle), rfl, hpacket⟩

/-! ## A shard arrives -/

namespace Consistent

variable {block : FecBlock} {pos : ℕ}

theorem read (h : Consistent K block) (index : ℕ) :
    Consistent K { block with nextDataPacketIndex := index } :=
  ⟨h.size, h.data, h.fec, h.header, h.packets, h.parity⟩

theorem dataArrives (h : Consistent K block) (hpos : pos < 4) (hmark : block.marks pos = true)
    (hpacket : K.packet (block.baseSequenceNumber + UInt16.ofNat pos) packet) :
    Consistent K { block with
      dataPackets := Function.update block.dataPackets pos packet
      marks := Function.update block.marks pos false
      dataShardsReceived := block.dataShardsReceived + 1 } where
  size := h.size
  data hopen := by
    rw [length_received_update _ (Nat.zero_le _) hpos hmark, h.data hopen]
  fec hopen := by
    rw [received_update_outside _ (Or.inl hpos)]
    exact h.fec hopen
  header := h.header
  packets i hi hpresent := by
    dsimp only at hpresent ⊢
    by_cases heq : i = pos
    · subst heq
      rw [Function.update_self]
      exact hpacket
    · rw [Function.update_of_ne heq] at hpresent ⊢
      exact h.packets i hi hpresent
  parity i hi hpresent := by
    dsimp only at hpresent
    rw [Function.update_of_ne (by omega)] at hpresent
    exact h.parity i hi hpresent

theorem fecArrives (h : Consistent K block) (data : List UInt8) (hpos : pos < 2)
    (hmark : block.marks (4 + pos) = true) (hparity : K.parity block.baseSequenceNumber pos data) :
    Consistent K { block with
      fecPackets := Function.update block.fecPackets pos data
      marks := Function.update block.marks (4 + pos) false
      fecShardsReceived := block.fecShardsReceived + 1 } where
  size := h.size
  data hopen := by
    rw [received_update_outside _ (Or.inr (Nat.le_add_right _ _))]
    exact h.data hopen
  fec hopen := by
    rw [length_received_update _ (Nat.le_add_right _ _) (by omega) hmark, h.fec hopen]
  header := h.header
  packets i hi hpresent := by
    dsimp only at hpresent
    rw [Function.update_of_ne (by omega)] at hpresent
    exact h.packets i hi hpresent
  parity i hi hpresent := by
    dsimp only at hpresent ⊢
    by_cases heq : i = pos
    · subst heq
      rw [Function.update_self]
      exact hparity
    · rw [Function.update_of_ne (by omega)] at hpresent
      rw [Function.update_of_ne heq]
      exact h.parity i hi hpresent

end Consistent

namespace Inv

variable {head head' : FecBlock} {blocks : List FecBlock} {content : Queued}

/-- The next packet of the first block is read. -/
theorem take (h : Inv K queue decoded) (hblocks : queue.blocks = head :: blocks)
    (hhead : head.baseSequenceNumber = queue.oldestRtpBaseSequenceNumber)
    (hconsistent : Consistent K head')
    (hslot : head'.slot = { head.slot with index := head.nextDataPacketIndex + 1 })
    (hcontent : ∀ packet, content = .packet packet →
      K.packet queue.nextRtpSequenceNumber packet) :
    Inv K (freeIfRead { queue with
        blocks := head' :: blocks
        nextRtpSequenceNumber := queue.nextRtpSequenceNumber + 1 } (head.nextDataPacketIndex + 1))
      (decoded ++ [⟨queue.nextRtpSequenceNumber, content⟩]) := by
  have hindex : head.nextDataPacketIndex = queue.nextRtpSequenceNumber.toNat % 4 :=
    h.ordered.first head.slot (head_mem_slots hblocks) hhead
  rw [freeIfRead]
  split
  case isTrue =>
    have hinv := h.deliverLast hblocks hhead (by omega) hcontent
    have hbase : head'.baseSequenceNumber = head.baseSequenceNumber := congrArg Slot.base hslot
    dsimp only [freeFecBlockHead]
    rw [hbase, validate_eq hinv.ordered]
    exact hinv
  case isFalse =>
    have hinv := h.deliver hblocks hhead (by omega) hslot hconsistent hcontent
    rw [validate_eq hinv.ordered]
    exact hinv

/-- A packet that is not there holds the queue up. -/
theorem handleMissing (h : Inv K queue decoded) (duration : UInt32) (now : UInt64) :
    Inv K (handleMissingPackets duration queue now) decoded := by
  have hordered := h.ordered
  have hoffset := hordered.offset_next
  have hnext : offset queue.oldestRtpBaseSequenceNumber queue.nextRtpSequenceNumber < 0x8000 := by
    omega
  unfold handleMissingPackets
  split
  case h_1 => exact h
  case h_2 head blocks hblocks =>
    rw [Queue.slots, hblocks, List.map_cons] at hordered
    have hnear : offset queue.oldestRtpBaseSequenceNumber head.baseSequenceNumber < 0x8000 :=
      hordered.near head.slot List.mem_cons_self
    have hmod : offset queue.oldestRtpBaseSequenceNumber head.baseSequenceNumber % 4 = 0 :=
      hordered.offset_mod List.mem_cons_self
    have hiff := isBefore16_iff hnext hnear
    split
    case isTrue hgap =>
      refine h.jump hblocks fun hhead => ?_
      have hlt := hiff.mp hgap
      rw [hhead, offset_self] at hlt
      exact absurd hlt (Nat.not_lt_zero _)
    case isFalse hgap =>
      have hle := Nat.not_lt.mp (mt hiff.mpr hgap)
      have hhead : head.baseSequenceNumber = queue.oldestRtpBaseSequenceNumber :=
        offset_eq_zero.mp (by omega)
      split
      case isTrue => exact h
      case isFalse =>
        split
        case isTrue =>
          have hinv := h.discontinue hblocks hhead
          have hready : queueHasPacketReady { queue with
              blocks := { head with allowDiscontinuity := true } :: blocks } = true :=
            Bool.or_true _
          dsimp only
          rw [validate_eq hinv.ordered, lcAssert_true hready]
          exact hinv
        case isFalse => exact h

/-- A shard that is not handled at once may complete its block. -/
theorem complete (hrecovers : K.Recovers duration) (h : Inv K queue decoded) {place : ℕ}
    {block : FecBlock} (hblock : queue.blocks[place]? = some block) (hopen : block.fullyReassembled = false)
    (now : UInt64) :
    Inv K (completeAndCheck duration queue place block now).1 decoded ∧
      (completeAndCheck duration queue place block now).2 ≠ .handleNow := by
  have hlt : place < queue.blocks.length := (List.getElem?_eq_some_iff.mp hblock).1
  have hplace : (place == 0 || decide (1 < queue.blocks.length)) = true := by
    rw [Bool.or_eq_true, beq_iff_eq, decide_eq_true_iff]
    omega
  have hconsistent := h.consistent block (List.mem_of_getElem? hblock)
  obtain ⟨hholds, hslot, hpartial, hcomplete⟩ :=
    completeFecBlock_spec hrecovers hconsistent hopen
  unfold completeAndCheck
  rw [lcAssert_true hplace]
  generalize completeFecBlock duration block = result at hholds hslot hpartial hcomplete ⊢
  obtain ⟨done, block', holds⟩ := result
  dsimp only at hholds hslot hpartial hcomplete ⊢
  rw [lcAssert_true hholds]
  have hfinished : (if done = true then { block' with fullyReassembled := true } else block').slot =
      block.slot ∧
      Consistent K (if done = true then { block' with fullyReassembled := true } else block') := by
    cases done with
    | false =>
        obtain rfl := hpartial rfl
        exact ⟨rfl, hconsistent⟩
    | true => exact ⟨hslot, hcomplete rfl⟩
  have hset := h.setBlock hblock hfinished.2 hfinished.1
  rw [validate_eq hset.ordered]
  generalize { queue with
    blocks := queue.blocks.set place
      (if done = true then { block' with fullyReassembled := true } else block') } = stored at *
  have hready : Inv K (if queueHasPacketReady stored = true then stored
      else handleMissingPackets duration stored now) decoded := by
    split
    case isTrue => exact hset
    case isFalse => exact hset.handleMissing duration now
  rw [validate_eq hready.ordered]
  refine ⟨hready, ?_⟩
  generalize queueHasPacketReady _ = ready
  cases ready <;> exact Status.noConfusion

/-- The first block stands at the oldest place, so it tells which number is read next. -/
theorem next_eq (h : Inv K queue decoded) (hblocks : queue.blocks = head :: blocks)
    (hhead : head.baseSequenceNumber = queue.oldestRtpBaseSequenceNumber) :
    head.nextDataPacketIndex < 4 ∧
      head.baseSequenceNumber.toNat + head.nextDataPacketIndex =
        queue.nextRtpSequenceNumber.toNat := by
  have hindex : head.nextDataPacketIndex = queue.nextRtpSequenceNumber.toNat % 4 :=
    h.ordered.first head.slot (head_mem_slots hblocks) hhead
  have haligned := h.ordered.aligned
  have hbase := congrArg UInt16.toNat hhead
  omega

theorem place_eq_zero (h : Inv K queue decoded) {place : ℕ} {block : FecBlock}
    (hblock : queue.blocks[place]? = some block)
    (hbase : block.baseSequenceNumber = queue.oldestRtpBaseSequenceNumber) :
    place = 0 ∧ ∃ blocks, queue.blocks = block :: blocks := by
  have hsorted := h.ordered.sorted
  rw [Queue.slots] at hsorted
  cases hblocks : queue.blocks with
  | nil =>
      rw [hblocks] at hblock
      cases hblock
  | cons head blocks =>
      rw [hblocks] at hblock hsorted
      cases place with
      | zero =>
          cases hblock
          exact ⟨rfl, blocks, rfl⟩
      | succ place =>
          have hmem : block.slot ∈ blocks.map FecBlock.slot :=
            List.mem_map_of_mem (List.mem_of_getElem? hblock)
          have hlt := (List.pairwise_cons.mp hsorted).1 block.slot hmem
          change _ < offset _ block.baseSequenceNumber at hlt
          rw [hbase, offset_self] at hlt
          exact absurd hlt (Nat.not_lt_zero _)

end Inv

/-! ## A packet arrives -/

/-- After a call that adds a packet, which is passed on if it is handled at once. -/
def Hands (K : Knowledge) (queue : Queue) (packet : RtpPacket) (decoded : List Entry)
    (result : Queue × Status) : Prop :=
  Inv K result.1 (if result.2 = .handleNow
    then decoded ++ [⟨queue.nextRtpSequenceNumber, .packet packet⟩] else decoded)

theorem Hands.keeps {result : Queue × Status} (h : Inv K result.1 decoded)
    (hstatus : result.2 ≠ .handleNow) : Hands K queue packet decoded result := by
  rw [Hands, if_neg hstatus]
  exact h

theorem Hands.passes {queue' : Queue}
    (h : Inv K queue' (decoded ++ [⟨queue.nextRtpSequenceNumber, .packet packet⟩])) :
    Hands K queue packet decoded (queue', .handleNow) := by
  rw [Hands, if_pos rfl]
  exact h

section Adding

variable {place : ℕ} {block : FecBlock}

theorem addDataPacket_hands (hrecovers : K.Recovers duration) (h : Inv K queue decoded)
    (hblock : queue.blocks[place]? = some block)
    (hopen : block.fullyReassembled = false)
    (hbase : block.baseSequenceNumber = packet.sequenceNumber / 4 * 4)
    (hpacket : K.packet packet.sequenceNumber packet) (now : UInt64) :
    Hands K queue packet decoded (addDataPacket duration queue packet place block now) := by
  have hconsistent := h.consistent block (List.mem_of_getElem? hblock)
  have htoNat : block.baseSequenceNumber.toNat = packet.sequenceNumber.toNat / 4 * 4 := by
    rw [hbase, toNat_base]
  obtain ⟨hpos, hnumber⟩ := base_split packet.sequenceNumber
  rw [← hbase] at hpos hnumber
  have hknown := hpacket
  rw [hnumber] at hknown
  unfold addDataPacket
  dsimp only
  rw [lcAssert_true (decide_eq_true hpos)]
  generalize (packet.sequenceNumber - block.baseSequenceNumber).toNat = pos at *
  split
  case isFalse => exact .keeps h Status.noConfusion
  case isTrue hmark =>
    have harrived := hconsistent.dataArrives hpos hmark hknown
    split
    case isFalse =>
      have hset := h.setBlock hblock harrived rfl
      have hlt : place < queue.blocks.length := (List.getElem?_eq_some_iff.mp hblock).1
      obtain ⟨hinv, hstatus⟩ :=
        hset.complete hrecovers (List.getElem?_set_self hlt) hopen now
      exact .keeps hinv hstatus
    case isTrue hexpected =>
      have haligned := h.ordered.aligned
      have hhead : block.baseSequenceNumber = queue.oldestRtpBaseSequenceNumber := by
        apply UInt16.toNat_inj.mp
        rw [htoNat, hexpected, haligned]
      obtain ⟨rfl, blocks, hblocks⟩ := h.place_eq_zero hblock hhead
      obtain ⟨hindex, hsum⟩ := h.next_eq hblocks hhead
      have hcontent : ∀ packet', Queued.packet packet = .packet packet' →
          K.packet queue.nextRtpSequenceNumber packet' := by
        intro packet' heq
        cases heq
        rwa [← hexpected]
      have hread := h.take hblocks hhead (harrived.read (block.nextDataPacketIndex + 1)) rfl
        hcontent
      rw [hexpected, hblocks, List.set_cons_zero]
      rw [freeIfRead] at hread
      have hend : queue.nextRtpSequenceNumber + 1 = block.baseSequenceNumber + 4 ↔
          block.nextDataPacketIndex + 1 = 4 := by
        rw [← UInt16.toNat_inj, UInt16.toNat_add, UInt16.toNat_add]
        simp only [UInt16.reduceToNat]
        omega
      split
      case isTrue hlast =>
        have hfour := hend.mp hlast
        have hassert : (0 == 0 && block.nextDataPacketIndex + 1 == 4) = true := by
          rw [hfour]
          rfl
        rw [if_pos hfour] at hread
        rw [lcAssert_true hassert]
        exact .passes hread
      case isFalse hlast =>
        rw [if_neg (mt hend.mpr hlast)] at hread
        exact .passes hread

theorem addFecPacket_keeps (hrecovers : K.Recovers duration) (h : Inv K queue decoded)
    (hblock : queue.blocks[place]? = some block)
    (hopen : block.fullyReassembled = false) {fecHeader : AudioFecHeader} {data : List UInt8}
    (hread : readFecHeader packet.body = some (fecHeader, data))
    (hindex : fecHeader.fecShardIndex.toNat < 2)
    (hparity : K.parity block.baseSequenceNumber fecHeader.fecShardIndex.toNat data)
    (now : UInt64) :
    Inv K (addFecPacket duration queue packet place block now).1 decoded ∧
      (addFecPacket duration queue packet place block now).2 ≠ .handleNow := by
  have hconsistent := h.consistent block (List.mem_of_getElem? hblock)
  unfold addFecPacket
  rw [hread]
  dsimp only
  rw [lcAssert_true (decide_eq_true hindex)]
  split
  case isFalse => exact ⟨h, Status.noConfusion⟩
  case isTrue hmark =>
    have hset := h.setBlock hblock (hconsistent.fecArrives data hindex hmark hparity) rfl
    have hlt : place < queue.blocks.length := (List.getElem?_eq_some_iff.mp hblock).1
    exact hset.complete hrecovers (List.getElem?_set_self hlt) hopen now

end Adding

theorem addPacket_hands (hrecovers : K.Recovers duration) (h : Inv K queue decoded)
    (hcompatible : queue.incompatibleServer = false) (hcarries : Carries packet)
    (hadmits : K.Admits duration packet)
    (hstart : queue.synchronizing = true → queue.oldestRtpBaseSequenceNumber = 0 →
      queue.blocks = []) (alloc : Bool) (created now : UInt64) :
    Hands K queue packet decoded (addPacket duration queue packet alloc created now) := by
  obtain ⟨hinv, hfound⟩ := getFecBlock_finds h hcarries hadmits hstart alloc created
  unfold addPacket
  rw [hcompatible, if_neg Bool.false_ne_true]
  generalize getFecBlockForRtpPacket duration queue packet alloc created = result at hinv hfound ⊢
  obtain ⟨queue', _ | place⟩ := result
  · exact .keeps hinv Status.noConfusion
  obtain ⟨hnext, block, hblock, hopen, hbelongs⟩ := hfound place rfl
  dsimp only at hinv hnext hblock ⊢
  rw [hblock]
  dsimp only
  split
  case isTrue haudio =>
    obtain ⟨hbase, hpacket⟩ := hbelongs.data haudio
    have hdata := addDataPacket_hands hrecovers hinv hblock hopen hbase hpacket now
    rw [Hands, hnext] at hdata
    exact hdata
  case isFalse haudio =>
    obtain ⟨hfec, fecHeader, data, hread, hindex, hparity⟩ := hbelongs.fec haudio
    rw [if_pos hfec]
    obtain ⟨hkept, hstatus⟩ :=
      addFecPacket_keeps hrecovers hinv hblock hopen hread hindex hparity now
    exact .keeps hkept hstatus

/-! ## A packet is asked for -/

/-- After a call that asks for a packet. -/
def HandsOut (K : Knowledge) (queue : Queue) (decoded : List Entry)
    (result : Queue × Option Queued) : Prop :=
  Inv K result.1 (decoded ++
    (result.2.map fun content => (⟨queue.nextRtpSequenceNumber, content⟩ : Entry)).toList)

theorem HandsOut.none (h : Inv K queue decoded) : HandsOut K queue decoded (queue, none) := by
  rw [HandsOut, Option.map_none, Option.toList_none, List.append_nil]
  exact h

section Asking

variable {head : FecBlock} {blocks : List FecBlock}

theorem ready_of_discontinuous (hblocks : queue.blocks = head :: blocks)
    (hdiscontinuous : head.allowDiscontinuity = true) : queueHasPacketReady queue = true := by
  rw [queueHasPacketReady, hblocks]
  exact Bool.or_eq_true_iff.mpr (Or.inr hdiscontinuous)

/-- A block that may be read now is the one at the oldest place. -/
theorem Inv.oldest_of_ready (h : Inv K queue decoded) (hblocks : queue.blocks = head :: blocks)
    (hready : queueHasPacketReady queue = true) :
    head.baseSequenceNumber = queue.oldestRtpBaseSequenceNumber := by
  have hmem := head_mem_slots hblocks
  by_contra hne
  obtain ⟨hindex, hdiscontinuous⟩ := h.ordered.rest head.slot hmem hne
  change head.nextDataPacketIndex = 0 at hindex
  change head.allowDiscontinuity = false at hdiscontinuous
  rw [queueHasPacketReady, hblocks] at hready
  dsimp only at hready
  rw [hdiscontinuous, hindex, Bool.or_false, Bool.and_eq_true, beq_iff_eq] at hready
  have hbase : head.baseSequenceNumber.toNat % 4 = 0 := h.ordered.base head.slot hmem
  have haligned := h.ordered.aligned
  exact hne (UInt16.toNat_inj.mp (by omega))

theorem takeReady_handsOut (h : Inv K queue decoded)
    (hpresent : ∀ head blocks, queue.blocks = head :: blocks → head.allowDiscontinuity = true →
      head.marks head.nextDataPacketIndex = false) (alloc : Bool) :
    HandsOut K queue decoded (takeReady queue alloc) := by
  unfold takeReady
  dsimp only
  rw [validate_eq h.ordered]
  split
  case isFalse => exact .none h
  case isTrue hready =>
    rw [Bool.and_eq_true] at hready
    split
    case h_1 => exact .none h
    case h_2 head blocks hblocks =>
      have hhead := h.oldest_of_ready hblocks hready.1
      obtain ⟨hindex, hsum⟩ := h.next_eq hblocks hhead
      have hmark : head.marks head.nextDataPacketIndex = false := by
        have hcases := hready.1
        rw [queueHasPacketReady, hblocks] at hcases
        rcases Bool.or_eq_true_iff.mp hcases with hplain | hdiscontinuous
        · rw [Bool.and_eq_true, Bool.not_eq_true'] at hplain
          exact hplain.1
        · exact hpresent head blocks hblocks hdiscontinuous
      have hconsistent : Consistent K head := h.consistent head (by simp [hblocks])
      have hpacket := hconsistent.packets head.nextDataPacketIndex hindex hmark
      have hnext : head.baseSequenceNumber + UInt16.ofNat head.nextDataPacketIndex =
          queue.nextRtpSequenceNumber := by
        have hlt := queue.nextRtpSequenceNumber.toNat_lt
        apply UInt16.toNat_inj.mp
        rw [UInt16.toNat_add, UInt16.toNat_ofNat']
        omega
      rw [hnext] at hpacket
      refine h.take hblocks hhead (hconsistent.read (head.nextDataPacketIndex + 1)) rfl
        fun packet hcontent => ?_
      cases hcontent
      exact hpacket

theorem getQueuedPacket_handsOut (h : Inv K queue decoded) (alloc : Bool) :
    HandsOut K queue decoded (getQueuedPacket queue alloc) := by
  unfold getQueuedPacket
  dsimp only
  rw [validate_eq h.ordered]
  split
  case h_1 hblocks =>
    refine takeReady_handsOut h (fun head blocks hcons => ?_) alloc
    rw [hblocks] at hcons
    cases hcons
  case h_2 head blocks hblocks =>
    split
    case isFalse hplain =>
      refine takeReady_handsOut h (fun head' blocks' hcons hdiscontinuous => ?_) alloc
      rw [hblocks] at hcons
      cases hcons
      exact absurd hdiscontinuous hplain
    case isTrue hdiscontinuous =>
      have hready := ready_of_discontinuous hblocks hdiscontinuous
      have hhead := h.oldest_of_ready hblocks hready
      obtain ⟨hindex, hsum⟩ := h.next_eq hblocks hhead
      rw [lcAssert_true (beq_iff_eq.mpr hsum)]
      split
      case isTrue =>
        split
        case isFalse => exact .none h
        case isTrue =>
          have hconsistent : Consistent K head := h.consistent head (by simp [hblocks])
          exact h.take hblocks hhead (hconsistent.read (head.nextDataPacketIndex + 1)) rfl
            fun _ hpacket => Queued.noConfusion hpacket
      case isFalse hmark =>
        rw [lcAssert_true hready, freeIfRead, if_neg (by omega), validate_eq h.ordered]
        refine takeReady_handsOut h (fun head' blocks' hcons _ => ?_) alloc
        rw [hblocks] at hcons
        cases hcons
        exact Bool.eq_false_of_not_eq_true hmark

/-- With memory for it the queue hands out a packet exactly when it says that one is ready. -/
theorem takeReady_isSome (h : Inv K queue decoded) :
    (takeReady queue true).2.isSome = queueHasPacketReady queue := by
  unfold takeReady
  dsimp only
  rw [validate_eq h.ordered, Bool.and_true]
  split
  case isFalse hready =>
    rw [Bool.eq_false_of_not_eq_true hready]
    rfl
  case isTrue hready =>
    rw [hready]
    split
    case h_1 hblocks =>
      rw [queueHasPacketReady, hblocks] at hready
      exact absurd hready Bool.false_ne_true
    case h_2 => rfl

theorem getQueuedPacket_isSome (h : Inv K queue decoded) :
    (getQueuedPacket queue true).2.isSome = queueHasPacketReady queue := by
  unfold getQueuedPacket
  dsimp only
  rw [validate_eq h.ordered]
  split
  case h_1 => exact takeReady_isSome h
  case h_2 head blocks hblocks =>
    split
    case isFalse => exact takeReady_isSome h
    case isTrue hdiscontinuous =>
      have hready := ready_of_discontinuous hblocks hdiscontinuous
      have hhead := h.oldest_of_ready hblocks hready
      obtain ⟨hindex, hsum⟩ := h.next_eq hblocks hhead
      rw [lcAssert_true (beq_iff_eq.mpr hsum)]
      split
      case isTrue =>
        rw [if_pos rfl, hready]
        rfl
      case isFalse =>
        rw [lcAssert_true hready, freeIfRead, if_neg (by omega), validate_eq h.ordered]
        exact takeReady_isSome h

/-- A call that hands out nothing changes nothing. -/
theorem getQueuedPacket_none (h : Inv K queue decoded)
    (hnone : (getQueuedPacket queue true).2 = none) : (getQueuedPacket queue true).1 = queue := by
  have hready : queueHasPacketReady queue = false := by
    rw [← getQueuedPacket_isSome h, hnone]
    rfl
  have htake : takeReady queue true = (queue, none) := by
    unfold takeReady
    dsimp only
    rw [validate_eq h.ordered, hready]
    rfl
  unfold getQueuedPacket
  dsimp only
  rw [validate_eq h.ordered]
  split
  case h_1 => rw [htake]
  case h_2 head blocks hblocks =>
    split
    case isFalse => rw [htake]
    case isTrue hdiscontinuous =>
      rw [ready_of_discontinuous hblocks hdiscontinuous] at hready
      cases hready

end Asking

section Status

variable {place : ℕ} {block : FecBlock} {now : UInt64}

theorem completeAndCheck_ready
    (h : (completeAndCheck duration queue place block now).2 = .packetReady) :
    queueHasPacketReady (completeAndCheck duration queue place block now).1 = true := by
  unfold completeAndCheck at h ⊢
  dsimp only at h ⊢
  exact of_not_not fun hnot => by rw [if_neg hnot] at h; cases h

theorem addDataPacket_ready
    (h : (addDataPacket duration queue packet place block now).2 = .packetReady) :
    queueHasPacketReady (addDataPacket duration queue packet place block now).1 = true := by
  unfold addDataPacket at h ⊢
  dsimp only at h ⊢
  split_ifs at h ⊢
  all_goals first | cases h | exact completeAndCheck_ready h

theorem addFecPacket_ready
    (h : (addFecPacket duration queue packet place block now).2 = .packetReady) :
    queueHasPacketReady (addFecPacket duration queue packet place block now).1 = true := by
  unfold addFecPacket at h ⊢
  split at h
  case h_1 => cases h
  case h_2 =>
    dsimp only at h ⊢
    split_ifs at h ⊢
    exact completeAndCheck_ready h

/-- The status says that a packet is ready only when one is. -/
theorem addPacket_ready {alloc : Bool} {created : UInt64}
    (h : (addPacket duration queue packet alloc created now).2 = .packetReady) :
    queueHasPacketReady (addPacket duration queue packet alloc created now).1 = true := by
  unfold addPacket at h ⊢
  by_cases hincompatible : queue.incompatibleServer = true
  · rw [if_pos hincompatible] at h
    dsimp only at h
    split_ifs at h
  rw [if_neg hincompatible] at h ⊢
  generalize getFecBlockForRtpPacket duration queue packet alloc created = result at h ⊢
  obtain ⟨queue', _ | place⟩ := result
  · cases h
  dsimp only at h ⊢
  split at h
  case h_1 => cases h
  case h_2 =>
    split_ifs at h ⊢
    · exact addDataPacket_ready h
    · exact addFecPacket_ready h

end Status

/-! ## Runs -/

/-- Each packet carries data, and the queue does not start over while it has blocks.  It does
when the numbers come round to zero before it has freed a block. -/
def Fed (s : State) : Label → Prop
  | .addPacket packet _ _ _ => Carries packet ∧
      (s.queue.synchronizing = true → s.queue.oldestRtpBaseSequenceNumber = 0 →
        s.queue.blocks.isEmpty = true)
  | .getQueuedPacket _ => True

instance Fed.decidable : ∀ s label, Decidable (Fed s label)
  | _, .addPacket .. => inferInstanceAs (Decidable (_ ∧ (_ → _ → _)))
  | _, .getQueuedPacket _ => inferInstanceAs (Decidable True)

/-- What is known of a packet that is added. -/
def Knowledge.Admitted (K : Knowledge) (duration : UInt32) : Label → Prop
  | .addPacket packet _ _ _ => K.Admits duration packet
  | .getQueuedPacket _ => True

theorem State.entries_append (s : State) (queue : Queue) (decoded : List Decoded) :
    State.entries ⟨queue, s.decoded ++ decoded⟩ =
      s.entries ++ decoded.filterMap Decoded.entry? :=
  List.filterMap_append

/-- While the server is incompatible the queue stays as it is, and no packet has its turn. -/
theorem addPacket_incompatible {s : State} (hincompatible : s.queue.incompatibleServer = true)
    (duration : UInt32) (packet : RtpPacket) (alloc : Bool) (created now : UInt64) :
    (addPacket duration s.queue packet alloc created now).1 = s.queue ∧
      (s.handle packet (addPacket duration s.queue packet alloc created now).2).filterMap
        Decoded.entry? = [] := by
  rw [addPacket, if_pos hincompatible]
  refine ⟨rfl, ?_⟩
  split
  case isTrue => rw [State.handle, if_pos hincompatible]; rfl
  case isFalse => rfl

theorem handle_entries {s : State} (hcompatible : s.queue.incompatibleServer = false)
    (packet : RtpPacket) (status : Status) :
    s.entries ++ (s.handle packet status).filterMap Decoded.entry? =
      if status = .handleNow then
        s.entries ++ [⟨s.queue.nextRtpSequenceNumber, .packet packet⟩]
      else s.entries := by
  cases status with
  | handleNow =>
      rw [State.handle, hcompatible, if_neg Bool.false_ne_true, if_pos rfl]
      rfl
  | rejected => rw [if_neg Status.noConfusion]; exact List.append_nil _
  | packetReady => rw [if_neg Status.noConfusion]; exact List.append_nil _

theorem queued_entries (position : UInt16) (queued : Option Queued) :
    (queued.map fun content => Decoded.inTurn ⟨position, content⟩).toList.filterMap
      Decoded.entry? = (queued.map fun content => (⟨position, content⟩ : Entry)).toList := by
  cases queued <;> rfl

theorem step_addPacket (duration : UInt32) (s : State) (packet : RtpPacket) (alloc : Bool)
    (created now : UInt64) :
    step duration s (.addPacket packet alloc created now) = some {
      queue := (addPacket duration s.queue packet alloc created now).1
      decoded := s.decoded ++
        s.handle packet (addPacket duration s.queue packet alloc created now).2 } :=
  rfl

theorem step_getQueuedPacket (s : State) (alloc : Bool) :
    step duration s (.getQueuedPacket alloc) = some {
      queue := (getQueuedPacket s.queue alloc).1
      decoded := s.decoded ++ ((getQueuedPacket s.queue alloc).2.map fun content =>
        .inTurn ⟨s.queue.nextRtpSequenceNumber, content⟩).toList } :=
  rfl

theorem step_keeps (hrecovers : K.Recovers duration) {s t : State} {label : Label}
    (h : Inv K s.queue s.entries) (hfed : Fed s label)
    (hadmitted : K.Admitted duration label) (hstep : step duration s label = some t) :
    Inv K t.queue t.entries := by
  cases label with
  | addPacket packet alloc created now =>
      rw [step_addPacket] at hstep
      cases hstep
      rw [State.entries_append]
      rcases Bool.eq_false_or_eq_true s.queue.incompatibleServer with
        hincompatible | hcompatible
      · obtain ⟨hqueue, hentries⟩ :=
          addPacket_incompatible hincompatible duration packet alloc created now
        rw [hentries, List.append_nil]
        dsimp only
        rw [hqueue]
        exact h
      · rw [handle_entries hcompatible]
        exact addPacket_hands hrecovers h hcompatible hfed.1 hadmitted
          (fun hsync holdest => List.isEmpty_iff.mp (hfed.2 hsync holdest)) alloc created now
  | getQueuedPacket alloc =>
      rw [step_getQueuedPacket] at hstep
      cases hstep
      rw [State.entries_append, queued_entries]
      exact getQueuedPacket_handsOut h alloc

section Runs

variable {compatible : Bool} {labels : List Label} {s : State}

theorem run_inv (hrecovers : K.Recovers duration)
    (hfed : Meets (step duration) Fed (start compatible) labels)
    (hadmitted : ∀ label ∈ labels, K.Admitted duration label)
    (hrun : run (step duration) (start compatible) labels = some s) :
    Inv K s.queue s.entries :=
  invariant_of_meets (I := fun s => Inv K s.queue s.entries)
    (fun _ _ _ h hlabel hstep => step_keeps hrecovers h hlabel.1 hlabel.2 hstep)
    (.start compatible) (hfed.and_forall hadmitted) hrun

/-- A packet bears the number that it stands at. -/
def numbers : Knowledge where
  packet position packet := packet.sequenceNumber = position
  block _ _ := True
  parity _ _ _ := True

theorem numbers_recovers : numbers.Recovers duration := by
  intro block h _ _ i hi
  have hpackets := h.packets i hi
  simp only [recovered, recoverHeaders, storeShards, hi, decide_true, Bool.true_and]
  split
  case isTrue => rfl
  case isFalse hmark => exact hpackets (Bool.eq_false_of_not_eq_true hmark)

theorem numbers_admitted (label : Label) : numbers.Admitted duration label := by
  cases label with
  | addPacket packet alloc created now =>
      exact ⟨fun _ _ _ _ => trivial, fun _ => rfl, fun _ _ _ _ _ => trivial⟩
  | getQueuedPacket alloc => exact trivial

theorem run_numbers (hfed : Meets (step duration) Fed (start compatible) labels)
    (hrun : run (step duration) (start compatible) labels = some s) :
    Inv numbers s.queue s.entries :=
  run_inv numbers_recovers hfed (fun label _ => numbers_admitted label) hrun

/-- No assertion of the queue fails, and of what is passed on in its turn nothing comes before
what was sent earlier, and each packet stands at its own number. -/
theorem audio_in_order (hfed : Meets (step duration) Fed (start compatible) labels)
    (hrun : run (step duration) (start compatible) labels = some s) :
    s.queue.violated = false ∧
      (s.entries.IsChain fun a b => isBefore16 a.position b.position = true) ∧
      ∀ entry ∈ s.entries, ∀ packet, entry.content = .packet packet →
        packet.sequenceNumber = entry.position := by
  have hinv := run_numbers hfed hrun
  exact ⟨hinv.unharmed, hinv.chain, hinv.packets⟩

def sampleData (sequenceNumber : UInt16) : Label :=
  .addPacket ⟨0x80, rtpPayloadTypeAudio, sequenceNumber, 0, 0, [1, 2]⟩ true 0 0

/-- The second packet of a block comes before the first. -/
def sampleLabels : List Label :=
  [sampleData 0, sampleData 5, sampleData 4, .getQueuedPacket true, sampleData 6]

theorem audio_in_order_sample : ∃ s, run (step 5) (start true) sampleLabels = some s ∧
    s.entries.map Entry.position = [4, 5, 6] ∧ s.queue.violated = false := by
  refine ⟨_, rfl, rfl, ?_⟩
  have hfed : Meets (step 5) Fed (start true) sampleLabels := by decide +kernel
  exact (audio_in_order hfed rfl).1

/-- An assertion fails where the queue starts over with a block in it. -/
example : ((run (step 5) (start true)
    [sampleData 65528, sampleData 0, sampleData 1, sampleData 4]).map
      fun s => s.queue.violated) = some true := by
  decide +kernel

/-- What an incompatible server sends goes straight to the decoder, in any order. -/
example : ((run (step 5) (start false) [sampleData 9, sampleData 8, sampleData 8]).map
    fun s => (s.entries.length, s.decoded.length)) = some (0, 3) := by
  decide +kernel

/-- With memory for it, what is ready is handed out. -/
theorem queued_packet_iff_ready (hfed : Meets (step duration) Fed (start compatible) labels)
    (hrun : run (step duration) (start compatible) labels = some s) :
    (getQueuedPacket s.queue true).2.isSome = queueHasPacketReady s.queue :=
  getQueuedPacket_isSome (run_numbers hfed hrun)

theorem queued_packet_iff_ready_sample :
    ∃ s, run (step 5) (start true) (sampleLabels.take 3) = some s ∧
      queueHasPacketReady s.queue = true ∧ (getQueuedPacket s.queue true).2.isSome = true := by
  refine ⟨_, rfl, rfl, ?_⟩
  have hfed : Meets (step 5) Fed (start true) (sampleLabels.take 3) := by decide +kernel
  exact queued_packet_iff_ready hfed rfl

/-- A caller that asks until it gets nothing has all that was ready. -/
theorem none_ready_of_none (hfed : Meets (step duration) Fed (start compatible) labels)
    (hrun : run (step duration) (start compatible) labels = some s)
    (hnone : (getQueuedPacket s.queue true).2 = none) :
    queueHasPacketReady (getQueuedPacket s.queue true).1 = false := by
  have hinv := run_numbers hfed hrun
  rw [getQueuedPacket_none hinv hnone, ← getQueuedPacket_isSome hinv, hnone]
  rfl

/-- A caller that was told that a packet is ready gets one. -/
theorem queued_packet_of_status {packet : RtpPacket} {alloc : Bool} {created now : UInt64}
    (hfed : Meets (step duration) Fed (start compatible) labels)
    (hrun : run (step duration) (start compatible) labels = some s)
    (hpacket : Fed s (.addPacket packet alloc created now))
    (hstatus : (addPacket duration s.queue packet alloc created now).2 = .packetReady) :
    (getQueuedPacket (addPacket duration s.queue packet alloc created now).1 true).2.isSome =
      true := by
  have hinv := step_keeps numbers_recovers (run_numbers hfed hrun) hpacket (numbers_admitted _)
    (step_addPacket duration s packet alloc created now)
  rw [getQueuedPacket_isSome hinv]
  exact addPacket_ready hstatus

end Runs

end MoonlightScarlet.Core.RtpAudioQueue
