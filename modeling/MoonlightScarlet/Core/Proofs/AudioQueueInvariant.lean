import MoonlightScarlet.Core.Proofs.AudioQueueOrder
import MoonlightScarlet.Core.Proofs.AudioCoder
/-!
# What every call keeps

The blocks are in their places, the counts of a block are those of its marks, a data packet is
one that may stand at its number, and what was passed on to the decoder is in order.  Which
packets may stand where is left open: that they bear their numbers, or that the host sent them.
-/

namespace MoonlightScarlet.Core.RtpAudioQueue

open Fec

/-! ## Counts and marks -/

theorem length_received_succ (marks : ℕ → Bool) {j n : ℕ} (h : j < n) :
    (received marks j n).length =
      (if marks j then 0 else 1) + (received marks (j + 1) n).length := by
  have hsplit : n - j = (n - (j + 1)) + 1 := by omega
  rw [received, received, hsplit, List.range'_succ, List.filter_cons]
  cases marks j
  · exact Nat.add_comm _ 1
  · exact (Nat.zero_add _).symm

/-- A shard that arrives counts. -/
theorem length_received_update (marks : ℕ → Bool) {j n pos : ℕ} (hj : j ≤ pos) (hpos : pos < n)
    (hmark : marks pos = true) :
    (received (Function.update marks pos false) j n).length =
      (received marks j n).length + 1 := by
  induction hn : n - j generalizing j with
  | zero => omega
  | succ k ih =>
      have hlt : j < n := by omega
      rw [length_received_succ _ hlt, length_received_succ marks hlt]
      by_cases heq : j = pos
      · subst heq
        have hrest : received (Function.update marks j false) (j + 1) n =
            received marks (j + 1) n := by
          refine List.filter_congr fun t ht => ?_
          rw [List.mem_range'_1] at ht
          rw [Function.update_of_ne (by omega)]
        rw [Function.update_self, hmark, hrest]
        simp only [if_true, Bool.false_eq_true, if_false]
        omega
      · rw [Function.update_of_ne heq, ih (by omega) (by omega), Nat.add_assoc]

theorem received_update_outside (marks : ℕ → Bool) {j n pos : ℕ} (hpos : pos < j ∨ n ≤ pos) :
    received (Function.update marks pos false) j n = received marks j n := by
  refine List.filter_congr fun t ht => ?_
  rw [List.mem_range'_1] at ht
  rw [Function.update_of_ne (by omega)]

/-- Which packet may stand at a number, which header and size a block may have, and which
data the FEC packet `index` of the block at a number. -/
structure Knowledge where
  packet : UInt16 → RtpPacket → Prop
  block : AudioFecHeader → ℕ → Prop
  parity : UInt16 → ℕ → List UInt8 → Prop

variable {K : Knowledge}

/-- What holds of a block on its own. -/
structure Consistent (K : Knowledge) (block : FecBlock) : Prop where
  size : block.blockSize ≠ 0
  data : block.fullyReassembled = false →
    block.dataShardsReceived = (received block.marks 0 4).length
  fec : block.fullyReassembled = false →
    block.fecShardsReceived = (received block.marks 4 6).length
  header : K.block block.fecHeader block.blockSize
  packets : ∀ i < 4, block.marks i = false →
    K.packet (block.baseSequenceNumber + UInt16.ofNat i) (block.dataPackets i)
  parity : ∀ i < 2, block.marks (4 + i) = false →
    K.parity block.baseSequenceNumber i (block.fecPackets i)

/-- What a block counts is what its marks say. -/
theorem enough_shards {block : FecBlock} (h : Consistent K block)
    (hopen : block.fullyReassembled = false)
    (hfour : 4 ≤ block.dataShardsReceived + block.fecShardsReceived) :
    coder.ds ≤ (received block.marks 0 coder.ts).length := by
  have hle : coder.ds ≤ coder.ts := show (4 : ℕ) ≤ 6 by decide
  have hsplit : received block.marks 0 6 = received block.marks 0 4 ++ received block.marks 4 6 :=
    received_split hle
  change 4 ≤ (received block.marks 0 6).length
  rw [hsplit, List.length_append, ← h.data hopen, ← h.fec hopen]
  exact hfour

/-- With four shards the decoder succeeds. -/
theorem decode_succeeds {block : FecBlock} (h : Consistent K block)
    (hopen : block.fullyReassembled = false)
    (hfour : 4 ≤ block.dataShardsReceived + block.fecShardsReceived) :
    (reedSolomonDecode coder (shardsOf block) block.marks 6).1 = 0 := by
  have hrows := length_rows_eq_iff.mpr (enough_shards h hopen hfour)
  have hshards : (coder.ts : ℤ) ≤ 6 := le_refl (6 : ℤ)
  rw [reedSolomonDecode_eq hshards h.size, if_neg (by omega)]

/-- The block that recovery leaves when enough shards are there. -/
def recovered (duration : UInt32) (block : FecBlock) : FecBlock :=
  recoverHeaders duration
    (storeShards block (reedSolomonDecode coder (shardsOf block) block.marks 6).2)

/-- What is known of the packets that arrive holds of those that are recovered. -/
def Knowledge.Recovers (K : Knowledge) (duration : UInt32) : Prop :=
  ∀ block, Consistent K block → block.fullyReassembled = false →
    4 ≤ block.dataShardsReceived + block.fecShardsReceived → ∀ i < 4,
      K.packet (block.baseSequenceNumber + UInt16.ofNat i)
        ((recovered duration block).dataPackets i)

/-- Completion keeps the place and the facts of a block, and its assertions hold. -/
theorem completeFecBlock_spec {duration : UInt32} (hrecovers : K.Recovers duration)
    {block : FecBlock} (h : Consistent K block) (hopen : block.fullyReassembled = false) :
    (completeFecBlock duration block).2.2 = true ∧
      (completeFecBlock duration block).2.1.slot = block.slot ∧
      ((completeFecBlock duration block).1 = false →
        (completeFecBlock duration block).2.1 = block) ∧
      ((completeFecBlock duration block).1 = true →
        Consistent K { (completeFecBlock duration block).2.1 with fullyReassembled := true }) := by
  have hle : block.dataShardsReceived ≤ 4 := by
    rw [h.data hopen]
    exact (List.length_filter_le _ _).trans_eq (List.length_range' ..)
  unfold completeFecBlock
  split
  case isTrue => exact ⟨rfl, rfl, fun _ => rfl, fun hfalse => absurd hfalse Bool.false_ne_true⟩
  case isFalse hfour =>
    split
    case isTrue =>
      refine ⟨rfl, rfl, fun hfalse => absurd hfalse.symm Bool.false_ne_true, fun _ => ?_⟩
      exact ⟨h.size, fun hopen => absurd hopen.symm Bool.false_ne_true,
        fun hopen => absurd hopen.symm Bool.false_ne_true, h.header, h.packets, h.parity⟩
    case isFalse =>
      have hresult := decode_succeeds h hopen (Nat.not_lt.mp hfour)
      simp only [hresult, ne_eq, not_true_eq_false, if_false]
      refine ⟨decide_eq_true hle, rfl, fun hfalse => absurd hfalse.symm Bool.false_ne_true,
        fun _ => ⟨h.size, fun hopen => absurd hopen.symm Bool.false_ne_true,
          fun hopen => absurd hopen.symm Bool.false_ne_true, h.header,
          fun i hi _ => hrecovers block h hopen (Nat.not_lt.mp hfour) i hi, fun i hi hmark => ?_⟩⟩
      simp only [recoverHeaders, storeShards] at hmark
      rw [if_neg (Nat.not_lt.mpr (Nat.le_add_right 4 i))] at hmark
      exact h.parity i hi hmark

/-! ## The queue and what it passed on -/

abbrev Queue.slots (queue : Queue) : List Slot := queue.blocks.map FecBlock.slot

structure Inv (K : Knowledge) (queue : Queue) (decoded : List Entry) : Prop where
  ordered : Ordered queue.slots queue.nextRtpSequenceNumber queue.oldestRtpBaseSequenceNumber
  consistent : ∀ block ∈ queue.blocks, Consistent K block
  unharmed : queue.violated = false
  chain : decoded.IsChain fun a b => isBefore16 a.position b.position = true
  packets : ∀ entry ∈ decoded, ∀ packet, entry.content = .packet packet →
    K.packet entry.position packet
  last : ∀ entry, decoded.getLast? = some entry →
    isBefore16 entry.position queue.nextRtpSequenceNumber = true ∧
      (queue.nextRtpSequenceNumber = entry.position + 1 ∨
        ∃ b ∈ queue.slots, b.base = queue.oldestRtpBaseSequenceNumber)
  synchronized : queue.synchronizing = true → decoded ≠ [] → queue.blocks ≠ []

variable {queue : Queue} {decoded : List Entry}

theorem head_mem_slots {head : FecBlock} {blocks : List FecBlock}
    (hblocks : queue.blocks = head :: blocks) : head.slot ∈ queue.slots := by
  rw [Queue.slots, hblocks]
  exact List.mem_cons_self

theorem lcAssert_true {queue : Queue} {holds : Bool} (h : holds = true) :
    queue.lcAssert holds = queue := by
  rw [Queue.lcAssert, h, Bool.not_true, Bool.or_false]

theorem validate_eq {queue : Queue} (h : Ordered queue.slots queue.nextRtpSequenceNumber
    queue.oldestRtpBaseSequenceNumber) : validateFecBlockState queue = queue :=
  lcAssert_true (validFecBlockState_eq_true h)

theorem isBefore16_succ (x : UInt16) : isBefore16 x (x + 1) = true := by
  have hx := x.toNat_lt
  rw [isBefore16_eq_decide, decide_eq_true_iff, offset_eq, UInt16.toNat_add]
  simp only [UInt16.reduceToNat]
  omega

namespace Inv

theorem start (compatible : Bool) : Inv K (initializeQueue compatible) [] where
  ordered := Ordered.nil (x := 0) rfl
  consistent _ hblock := absurd hblock List.not_mem_nil
  unharmed := rfl
  chain := List.IsChain.nil
  packets _ hentry := absurd hentry List.not_mem_nil
  last _ hlast := absurd hlast.symm (Option.some_ne_none _)
  synchronized _ hdecoded := absurd rfl hdecoded

/-- Blocks change inside, the rest of the list stays in place. -/
theorem setBlock (h : Inv K queue decoded) {place : ℕ} {block block' : FecBlock}
    (hblock : queue.blocks[place]? = some block) (hconsistent : Consistent K block')
    (hslot : block'.slot = block.slot) :
    Inv K { queue with blocks := queue.blocks.set place block' } decoded := by
  have hslots : (queue.blocks.set place block').map FecBlock.slot = queue.slots := by
    have hget : queue.slots[place]? = some block'.slot := by
      rw [List.getElem?_map, hblock, hslot]
      rfl
    obtain ⟨hlt, heq⟩ := List.getElem?_eq_some_iff.mp hget
    rw [List.map_set, ← heq, List.set_getElem_self]
  refine ⟨?_, fun b hb => ?_, h.unharmed, h.chain, h.packets, fun entry hlast => ?_,
    fun hsync hdecoded => ?_⟩
  · simpa only [Queue.slots, hslots] using h.ordered
  · rcases List.mem_or_eq_of_mem_set hb with hold | rfl
    · exact h.consistent b hold
    · exact hconsistent
  · simpa only [Queue.slots, hslots] using h.last entry hlast
  · have hne := h.synchronized hsync hdecoded
    intro hnil
    have hlength := congrArg List.length hnil
    rw [List.length_set, List.length_nil] at hlength
    exact hne (List.length_eq_zero_iff.mp hlength)

/-- The entry that is passed on next. -/
theorem snoc (h : Inv K queue decoded) {content : Queued}
    (hcontent : ∀ packet, content = .packet packet →
      K.packet queue.nextRtpSequenceNumber packet) :
    (decoded ++ [(⟨queue.nextRtpSequenceNumber, content⟩ : Entry)]).IsChain
        (fun a b : Entry => isBefore16 a.position b.position = true) ∧
      ∀ entry ∈ decoded ++ [(⟨queue.nextRtpSequenceNumber, content⟩ : Entry)], ∀ packet,
        entry.content = .packet packet → K.packet entry.position packet := by
  constructor
  · refine List.isChain_append.mpr ⟨h.chain, List.isChain_singleton _, fun a ha b hb => ?_⟩
    cases hb
    exact (h.last a ha).1
  · intro entry hentry packet hpacket
    rcases List.mem_append.mp hentry with hold | hnew
    · exact h.packets entry hold packet hpacket
    · cases List.mem_singleton.mp hnew
      exact hcontent packet hpacket

variable {head head' : FecBlock} {blocks : List FecBlock} {content : Queued}

/-- A packet of the first block is passed on, and not its last. -/
theorem deliver (h : Inv K queue decoded) (hblocks : queue.blocks = head :: blocks)
    (hhead : head.baseSequenceNumber = queue.oldestRtpBaseSequenceNumber)
    (hlast : queue.nextRtpSequenceNumber.toNat % 4 ≠ 3)
    (hslot : head'.slot = { head.slot with index := head.nextDataPacketIndex + 1 })
    (hconsistent : Consistent K head')
    (hcontent : ∀ packet, content = .packet packet →
      K.packet queue.nextRtpSequenceNumber packet) :
    Inv K { queue with
        blocks := head' :: blocks
        nextRtpSequenceNumber := queue.nextRtpSequenceNumber + 1 }
      (decoded ++ [⟨queue.nextRtpSequenceNumber, content⟩]) := by
  have hordered := h.ordered
  rw [Queue.slots, hblocks, List.map_cons] at hordered
  obtain ⟨hchain, hpackets⟩ := h.snoc hcontent
  refine ⟨?_, ?_, h.unharmed, hchain, hpackets, fun entry hentry => ?_, fun _ _ => by simp⟩
  · rw [Queue.slots, List.map_cons, hslot]
    exact hordered.advance hhead hlast
  · have hall := h.consistent
    rw [hblocks] at hall
    exact List.forall_mem_cons.mpr ⟨hconsistent, (List.forall_mem_cons.mp hall).2⟩
  · rw [List.getLast?_append_of_ne_nil _ (by simp)] at hentry
    cases hentry
    exact ⟨isBefore16_succ _, Or.inl rfl⟩

/-- The last packet of the first block is passed on, and the block goes. -/
theorem deliverLast (h : Inv K queue decoded) (hblocks : queue.blocks = head :: blocks)
    (hhead : head.baseSequenceNumber = queue.oldestRtpBaseSequenceNumber)
    (hlast : queue.nextRtpSequenceNumber.toNat % 4 = 3)
    (hcontent : ∀ packet, content = .packet packet →
      K.packet queue.nextRtpSequenceNumber packet) :
    Inv K { queue with
        blocks := blocks
        nextRtpSequenceNumber := queue.nextRtpSequenceNumber + 1
        oldestRtpBaseSequenceNumber := head.baseSequenceNumber + 4
        synchronizing := false }
      (decoded ++ [⟨queue.nextRtpSequenceNumber, content⟩]) := by
  have hordered := h.ordered
  rw [Queue.slots, hblocks, List.map_cons] at hordered
  obtain ⟨hchain, hpackets⟩ := h.snoc hcontent
  have hnext : queue.nextRtpSequenceNumber + 1 = queue.oldestRtpBaseSequenceNumber + 4 := by
    have haligned := hordered.aligned
    apply UInt16.toNat_inj.mp
    rw [UInt16.toNat_add, UInt16.toNat_add]
    simp only [UInt16.reduceToNat]
    omega
  refine ⟨?_, ?_, h.unharmed, hchain, hpackets, fun entry hentry => ?_,
    fun hsync => absurd hsync Bool.false_ne_true⟩
  · dsimp only [Queue.slots]
    rw [hhead, hnext]
    exact hordered.tail
  · have hall := h.consistent
    rw [hblocks] at hall
    exact (List.forall_mem_cons.mp hall).2
  · rw [List.getLast?_append_of_ne_nil _ (by simp)] at hentry
    cases hentry
    exact ⟨isBefore16_succ _, Or.inl rfl⟩

/-- The queue goes on with its first block, which is not at the oldest place. -/
theorem jump (h : Inv K queue decoded) (hblocks : queue.blocks = head :: blocks)
    (hhead : head.baseSequenceNumber ≠ queue.oldestRtpBaseSequenceNumber) :
    Inv K { queue with
        nextRtpSequenceNumber := head.baseSequenceNumber
        oldestRtpBaseSequenceNumber := head.baseSequenceNumber } decoded := by
  have hordered := h.ordered
  rw [Queue.slots, hblocks, List.map_cons] at hordered
  refine ⟨?_, h.consistent, h.unharmed, h.chain, h.packets, fun entry hentry => ?_,
    h.synchronized⟩
  · dsimp only [Queue.slots]
    rw [hblocks, List.map_cons]
    exact hordered.jump hhead
  · refine ⟨?_, Or.inr ⟨head.slot, head_mem_slots hblocks, rfl⟩⟩
    -- Nothing was given up since the last entry, for the first block is new at its place.
    have hsucc : queue.nextRtpSequenceNumber = entry.position + 1 := by
      refine (h.last entry hentry).2.resolve_right fun ⟨b, hb, hbase⟩ => hhead ?_
      rw [Queue.slots, hblocks, List.map_cons] at hb
      rw [← hbase, hordered.head_eq hb hbase]
      rfl
    have hnone : queue.nextRtpSequenceNumber.toNat % 4 = 0 := by
      by_contra hread
      obtain ⟨b, hb, hbase⟩ := hordered.pending hread
      exact hhead (by rw [← hbase, hordered.head_eq hb hbase]; rfl)
    have hnear : offset queue.oldestRtpBaseSequenceNumber head.baseSequenceNumber < 0x8000 :=
      hordered.near head.slot List.mem_cons_self
    have hmod : offset queue.oldestRtpBaseSequenceNumber head.baseSequenceNumber % 4 = 0 :=
      hordered.offset_mod List.mem_cons_self
    have haligned := hordered.aligned
    have hposition := entry.position.toNat_lt
    have hbase := head.baseSequenceNumber.toNat_lt
    have hsum : queue.nextRtpSequenceNumber.toNat = (entry.position.toNat + 1) % 65536 := by
      rw [hsucc, UInt16.toNat_add]
      rfl
    have hne : offset queue.oldestRtpBaseSequenceNumber head.baseSequenceNumber ≠ 0 :=
      mt offset_eq_zero.mp hhead
    rw [offset_eq] at hnear hmod hne
    change isBefore16 entry.position head.baseSequenceNumber = true
    rw [isBefore16_eq_decide, decide_eq_true_iff, offset_eq]
    omega

/-- The first block may be read with gaps. -/
theorem discontinue (h : Inv K queue decoded) (hblocks : queue.blocks = head :: blocks)
    (hhead : head.baseSequenceNumber = queue.oldestRtpBaseSequenceNumber) :
    Inv K { queue with blocks := { head with allowDiscontinuity := true } :: blocks } decoded := by
  have hordered := h.ordered
  rw [Queue.slots, hblocks, List.map_cons] at hordered
  have hall := h.consistent
  rw [hblocks] at hall
  obtain ⟨hconsistent, hrest⟩ := List.forall_mem_cons.mp hall
  refine ⟨hordered.discontinue hhead, List.forall_mem_cons.mpr ⟨?_, hrest⟩, h.unharmed, h.chain,
    h.packets, fun entry hentry => ⟨(h.last entry hentry).1, Or.inr
      ⟨_, List.mem_cons_self, hhead⟩⟩, fun _ _ => by simp⟩
  exact ⟨hconsistent.size, hconsistent.data, hconsistent.fec, hconsistent.header,
    hconsistent.packets, hconsistent.parity⟩

end Inv

end MoonlightScarlet.Core.RtpAudioQueue
