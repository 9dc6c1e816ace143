import MoonlightScarlet.Core.Proofs.AudioQueueRuns
/-!
# What the host sent

The packets of one round of sequence numbers, as the host sends them.  Four data packets make a
block, of one size and one source, a packet's duration apart, and its FEC packets are what the
encoder makes of them.  Whatever of it arrives, what is passed on is what was sent.
-/

namespace MoonlightScarlet.Core.RtpAudioQueue

open Fec Support.Runs

/-- The data packets by their numbers. -/
structure Stream (duration : UInt32) where
  sent : UInt16 → RtpPacket
  header : ∀ n, (sent n).header = 0x80
  packetType : ∀ n, (sent n).packetType = rtpPayloadTypeAudio
  sequenceNumber : ∀ n, (sent n).sequenceNumber = n
  timestamp : ∀ base : UInt16, base.toNat % 4 = 0 → ∀ i < 4,
    (sent (base + UInt16.ofNat i)).timestamp =
      (sent base).timestamp + UInt32.ofNat i * duration
  ssrc : ∀ base : UInt16, base.toNat % 4 = 0 → ∀ i < 4,
    (sent (base + UInt16.ofNat i)).ssrc = (sent base).ssrc
  size : ∀ base : UInt16, base.toNat % 4 = 0 → ∀ i < 4,
    (sent (base + UInt16.ofNat i)).body.length = (sent base).body.length

namespace Stream

variable {duration : UInt32} (stream : Stream duration)

/-- The data shards of the block at `base`. -/
def shards (base : UInt16) (bs : ℕ) : Shards bs := fun t k =>
  (stream.sent (base + UInt16.ofNat t)).body.getD k 0

def parityData (base : UInt16) (index : ℕ) : List UInt8 :=
  List.ofFn ((reedSolomonEncode coder
    (stream.shards base (stream.sent base).body.length) 6).2 (4 + index))

/-- The header of the block that a packet belongs to. -/
structure Heads (fecHeader : AudioFecHeader) (blockSize : ℕ) : Prop where
  aligned : fecHeader.baseSequenceNumber.toNat % 4 = 0
  payloadType : fecHeader.payloadType = rtpPayloadTypeAudio
  baseTimestamp : fecHeader.baseTimestamp = (stream.sent fecHeader.baseSequenceNumber).timestamp
  ssrc : fecHeader.ssrc = (stream.sent fecHeader.baseSequenceNumber).ssrc
  size : blockSize = (stream.sent fecHeader.baseSequenceNumber).body.length

/-- A packet that the host sent. -/
structure From (packet : RtpPacket) : Prop where
  data : packet.packetType = rtpPayloadTypeAudio → packet = stream.sent packet.sequenceNumber
  fec : packet.packetType = rtpPayloadTypeFec → ∀ fecHeader data,
    readFecHeader packet.body = some (fecHeader, data) →
      stream.Heads fecHeader data.length ∧
        data = stream.parityData fecHeader.baseSequenceNumber fecHeader.fecShardIndex.toNat

def knowledge : Knowledge where
  packet position packet := packet = stream.sent position
  block := stream.Heads
  parity base index data := data = stream.parityData base index

theorem sent_eq (n : UInt16) : stream.sent n = {
    header := 0x80
    packetType := rtpPayloadTypeAudio
    sequenceNumber := n
    timestamp := (stream.sent n).timestamp
    ssrc := (stream.sent n).ssrc
    body := (stream.sent n).body } := by
  have hheader := stream.header n
  have htype := stream.packetType n
  have hnumber := stream.sequenceNumber n
  generalize stream.sent n = packet at hheader htype hnumber ⊢
  obtain ⟨header, packetType, sequenceNumber, timestamp, ssrc, body⟩ := packet
  dsimp only at hheader htype hnumber ⊢
  rw [hheader, htype, hnumber]

/-! ## Recovery -/

theorem ofFn_getD (l : List UInt8) {n : ℕ} (h : n = l.length) :
    List.ofFn (fun k : Fin n => l.getD k 0) = l := by
  subst h
  refine List.ext_getElem (List.length_ofFn) fun k _ hk => ?_
  rw [List.getElem_ofFn, List.getD_eq_getElem _ _ hk]

theorem parityData_getD {base : UInt16} {bs : ℕ} (hbs : bs = (stream.sent base).body.length)
    (index : ℕ) (k : Fin bs) : (stream.parityData base index).getD k 0 =
      (reedSolomonEncode coder (stream.shards base bs) 6).2 (4 + index) k := by
  subst hbs
  rw [parityData, List.getD_eq_getElem _ _ (by rw [List.length_ofFn]; exact k.isLt),
    List.getElem_ofFn]

/-- The shards of a block that are there are those of the encoder. -/
theorem shardsOf_eq {block : FecBlock} (h : Consistent stream.knowledge block) {t : ℕ}
    (ht : t < 6) (hmark : block.marks t = false) :
    shardsOf block t = (reedSolomonEncode coder
      (stream.shards block.baseSequenceNumber block.blockSize) 6).2 t := by
  by_cases hdata : t < 4
  · have hds : t < coder.ds := hdata
    rw [reedSolomonEncode_data _ hds]
    funext k
    rw [shardsOf, if_pos hdata, h.packets t hdata hmark]
    rfl
  · obtain ⟨j, rfl⟩ := Nat.exists_eq_add_of_le (Nat.not_lt.mp hdata)
    funext k
    rw [shardsOf, if_neg hdata, Nat.add_sub_cancel_left, h.parity j (by omega) hmark,
      stream.parityData_getD h.header.size]

/-- Recovery gives back the packets that the host sent. -/
theorem recovers : stream.knowledge.Recovers duration := by
  intro block h hopen hfour i hi
  have hshards : (coder.ts : ℤ) ≤ 6 := le_refl (6 : ℤ)
  have hround := decode_encode_of_regular coder_regular hshards h.size
    (stream.shards block.baseSequenceNumber block.blockSize) (shardsOf block) block.marks
    fun t ht hmark => stream.shardsOf_eq h ht hmark
  have hdecoded := hround.2.1 (enough_shards h hopen hfour) i hi
  have haligned := h.header.aligned
  have hsize : block.blockSize =
      (stream.sent (block.baseSequenceNumber + UInt16.ofNat i)).body.length :=
    h.header.size.trans (stream.size _ haligned i hi).symm
  have hbody : List.ofFn ((reedSolomonDecode coder (shardsOf block) block.marks 6).2 i) =
      (stream.sent (block.baseSequenceNumber + UInt16.ofNat i)).body := by
    rw [hdecoded]
    exact ofFn_getD _ hsize
  simp only [recovered, recoverHeaders, storeShards, hi, decide_true, Bool.true_and, if_true,
    hbody]
  split
  case isTrue =>
    rw [h.header.payloadType, h.header.baseTimestamp, h.header.ssrc,
      ← stream.timestamp _ haligned i hi, ← stream.ssrc _ haligned i hi]
    exact (stream.sent_eq _).symm
  case isFalse hmark =>
    rw [h.packets i hi (Bool.eq_false_of_not_eq_true hmark)]
    rfl

/-! ## Arrival -/

theorem admits {packet : RtpPacket} (hfrom : stream.From packet) :
    stream.knowledge.Admits duration packet where
  data := hfrom.data
  fec hfec fecHeader data hread _ := (hfrom.fec hfec fecHeader data hread).2
  block queue fecHeader blockSize h := by
    rcases blockHeader_cases h with ⟨haudio, rfl, rfl⟩ |
      ⟨-, hfec, fecHeader', data, hread, -, -, rfl, rfl⟩
    · have hpacket := hfrom.data haudio
      obtain ⟨hpos, hnumber⟩ := base_split packet.sequenceNumber
      have haligned : (packet.sequenceNumber / 4 * 4).toNat % 4 = 0 := by
        rw [toNat_base]
        exact Nat.mul_mod_left _ 4
      have htimestamp := stream.timestamp _ haligned _ hpos
      have hssrc := stream.ssrc _ haligned _ hpos
      have hsize := stream.size _ haligned _ hpos
      rw [← hnumber, ← hpacket] at htimestamp hssrc hsize
      refine ⟨haligned, haudio, ?_, hssrc, hsize⟩
      dsimp only
      have hplace : (packet.sequenceNumber - packet.sequenceNumber / 4 * 4).toUInt32 =
          UInt32.ofNat (packet.sequenceNumber - packet.sequenceNumber / 4 * 4).toNat := by
        have hlt := (packet.sequenceNumber - packet.sequenceNumber / 4 * 4).toNat_lt
        apply UInt32.toNat_inj.mp
        rw [UInt16.toNat_toUInt32, UInt32.toNat_ofNat']
        omega
      rw [htimestamp, hplace, UInt32.add_sub_cancel]
    · obtain ⟨haligned, htype, htimestamp, hssrc, hsize⟩ := (hfrom.fec hfec _ _ hread).1
      exact ⟨haligned, htype, htimestamp, hssrc, hsize⟩

/-- Only packets that the host sent arrive. -/
def Arrives : Label → Prop
  | .addPacket packet _ _ _ => stream.From packet
  | .getQueuedPacket _ => True

theorem arrives_admitted {label : Label} (h : stream.Arrives label) :
    stream.knowledge.Admitted duration label := by
  cases label with
  | addPacket packet alloc created now => exact stream.admits h
  | getQueuedPacket alloc => exact trivial

end Stream

section Sample

/-- Two bytes in each packet, five milliseconds apart. -/
def sampleStream : Stream 5 where
  sent n := ⟨0x80, rtpPayloadTypeAudio, n, UInt32.ofNat n.toNat * 5, 0, [UInt8.ofNat n.toNat, 7]⟩
  header _ := rfl
  packetType _ := rfl
  sequenceNumber _ := rfl
  timestamp base hbase i hi := by
    have hlt := base.toNat_lt
    have hsum : (base + UInt16.ofNat i).toNat = base.toNat + i := by
      rw [UInt16.toNat_add, UInt16.toNat_ofNat']
      omega
    dsimp only
    rw [hsum, UInt32.ofNat_add, UInt32.add_mul]
  ssrc _ _ _ _ := rfl
  size _ _ _ _ := rfl

def sampleSent (n : UInt16) : Label := .addPacket (sampleStream.sent n) true 0 0

/-- The first FEC packet of the block at 4. -/
def sampleFec : Label :=
  .addPacket ⟨0x80, rtpPayloadTypeFec, 0, 0, 0,
    [0, 97, 0, 4, 0, 0, 0, 20, 0, 0, 0, 0] ++ sampleStream.parityData 4 0⟩ true 0 0

/-- The first packet of the block is lost. -/
def sampleLossy : List Label :=
  [sampleSent 0, sampleSent 6, sampleSent 5, sampleFec, sampleSent 7, .getQueuedPacket true]

theorem sampleSent_arrives (n : UInt16) : sampleStream.Arrives (sampleSent n) where
  data _ := rfl
  fec hfec := absurd hfec (show rtpPayloadTypeAudio ≠ rtpPayloadTypeFec by decide)

theorem sampleFec_arrives : sampleStream.Arrives sampleFec where
  data haudio := absurd haudio (by decide)
  fec _ fecHeader data hread := by
    cases hread
    exact ⟨⟨rfl, rfl, rfl, rfl, rfl⟩, rfl⟩

theorem sampleLossy_arrives : ∀ label ∈ sampleLossy, sampleStream.Arrives label := by
  intro label hlabel
  simp only [sampleLossy, List.mem_cons, List.not_mem_nil, or_false] at hlabel
  rcases hlabel with rfl | rfl | rfl | rfl | rfl | rfl
  · exact sampleSent_arrives 0
  · exact sampleSent_arrives 6
  · exact sampleSent_arrives 5
  · exact sampleFec_arrives
  · exact sampleSent_arrives 7
  · exact trivial

end Sample

end MoonlightScarlet.Core.RtpAudioQueue
