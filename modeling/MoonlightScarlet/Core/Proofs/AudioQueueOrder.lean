import MoonlightScarlet.Core.RtpAudioQueue
import Mathlib.Data.List.Basic
import Mathlib.Data.List.Pairwise
/-!
# The order of the FEC blocks

The sequence numbers count round, so the blocks are placed by how far they lie ahead of the
oldest.  Half of the numbers lie ahead, and among these the comparison of the source is the
order of the distances.
-/

namespace MoonlightScarlet.Core.RtpAudioQueue

/-! ## Distances -/

/-- How far `x` lies ahead of `oldest`. -/
def offset (oldest x : UInt16) : ℕ := (x - oldest).toNat

theorem offset_eq (oldest x : UInt16) :
    offset oldest x = (65536 - oldest.toNat + x.toNat) % 65536 := UInt16.toNat_sub x oldest

theorem offset_self (x : UInt16) : offset x x = 0 := by
  have hlt := x.toNat_lt
  rw [offset_eq]
  omega

theorem offset_eq_zero {oldest x : UInt16} : offset oldest x = 0 ↔ x = oldest := by
  have hx := x.toNat_lt
  have holdest := oldest.toNat_lt
  rw [offset_eq, ← UInt16.toNat_inj]
  omega

theorem offset_inj {oldest x y : UInt16} (h : offset oldest x = offset oldest y) : x = y := by
  have hx := x.toNat_lt
  have hy := y.toNat_lt
  have holdest := oldest.toNat_lt
  rw [offset_eq, offset_eq] at h
  apply UInt16.toNat_inj.mp
  omega

theorem isBefore16_eq_decide (x y : UInt16) : isBefore16 x y = decide (0x8000 ≤ offset y x) :=
  rfl

/-- Among the numbers ahead of the oldest the comparison is the order of the distances. -/
theorem isBefore16_iff {oldest x y : UInt16} (hx : offset oldest x < 0x8000)
    (hy : offset oldest y < 0x8000) :
    isBefore16 x y = true ↔ offset oldest x < offset oldest y := by
  have hx' := x.toNat_lt
  have hy' := y.toNat_lt
  have holdest := oldest.toNat_lt
  rw [isBefore16_eq_decide, decide_eq_true_iff, offset_eq]
  rw [offset_eq] at hx hy ⊢
  rw [offset_eq]
  omega

/-- A number is before the oldest when it does not lie ahead. -/
theorem isBefore16_oldest {oldest x : UInt16} :
    isBefore16 x oldest = false ↔ offset oldest x < 0x8000 := by
  rw [isBefore16_eq_decide, decide_eq_false_iff_not, Nat.not_le]

/-- Moving the oldest on by `d` takes `d` off the distances of what lies that far ahead. -/
theorem offset_add {oldest x d : UInt16} (h : d.toNat ≤ offset oldest x) :
    offset (oldest + d) x = offset oldest x - d.toNat := by
  have hx := x.toNat_lt
  have hd := d.toNat_lt
  have holdest := oldest.toNat_lt
  rw [offset_eq] at h ⊢
  rw [offset_eq, UInt16.toNat_add]
  omega

/-! ## Blocks in their places -/

/-- What places a block: its first number, and how it is read. -/
structure Slot where
  base : UInt16
  index : ℕ
  discontinuous : Bool

def FecBlock.slot (block : FecBlock) : Slot where
  base := block.baseSequenceNumber
  index := block.nextDataPacketIndex
  discontinuous := block.allowDiscontinuity

/-- The blocks in the list, the number to be read next and the oldest block of interest.
Only the block at the oldest place has been read from. -/
structure Ordered (slots : List Slot) (next oldest : UInt16) : Prop where
  aligned : next.toNat / 4 * 4 = oldest.toNat
  base : ∀ b ∈ slots, b.base.toNat % 4 = 0
  near : ∀ b ∈ slots, offset oldest b.base < 0x8000
  sorted : slots.Pairwise fun a b => offset oldest a.base < offset oldest b.base
  first : ∀ b ∈ slots, b.base = oldest → b.index = next.toNat % 4
  rest : ∀ b ∈ slots, b.base ≠ oldest → b.index = 0 ∧ b.discontinuous = false
  pending : next.toNat % 4 ≠ 0 → ∃ b ∈ slots, b.base = oldest

variable {slots : List Slot} {head : Slot} {next oldest : UInt16}

namespace Ordered

/-- Distances between block bases are multiples of four. -/
theorem offset_mod (h : Ordered slots next oldest) {b : Slot} (hb : b ∈ slots) :
    offset oldest b.base % 4 = 0 := by
  have haligned := h.aligned
  have hbase := h.base b hb
  have hlt := oldest.toNat_lt
  rw [offset_eq]
  omega

theorem offset_next (h : Ordered slots next oldest) : offset oldest next = next.toNat % 4 := by
  have haligned := h.aligned
  have hlt := next.toNat_lt
  rw [offset_eq]
  omega

/-- The block at the oldest place is the first one. -/
theorem head_eq (h : Ordered (head :: slots) next oldest) {b : Slot} (hb : b ∈ head :: slots)
    (hbase : b.base = oldest) : b = head := by
  rcases List.mem_cons.mp hb with rfl | hmem
  · rfl
  · have hlt := (List.pairwise_cons.mp h.sorted).1 b hmem
    rw [hbase, offset_self] at hlt
    exact absurd hlt (Nat.not_lt_zero _)

theorem nil {x : UInt16} (hx : x.toNat % 4 = 0) : Ordered [] x x where
  aligned := by omega
  base b hb := absurd hb List.not_mem_nil
  near b hb := absurd hb List.not_mem_nil
  sorted := List.Pairwise.nil
  first b hb := absurd hb List.not_mem_nil
  rest b hb := absurd hb List.not_mem_nil
  pending hne := absurd hx hne

/-- The blocks after the first, once it is done with. -/
theorem tail (h : Ordered (head :: slots) next oldest) :
    Ordered slots (oldest + 4) (oldest + 4) := by
  have hoffset : ∀ b ∈ slots, offset (oldest + 4) b.base = offset oldest b.base - 4 ∧
      4 ≤ offset oldest b.base := by
    intro b hb
    have hmod := h.offset_mod (List.mem_cons_of_mem head hb)
    have hlt := (List.pairwise_cons.mp h.sorted).1 b hb
    have hge : 4 ≤ offset oldest b.base := by omega
    exact ⟨offset_add hge, hge⟩
  have hother : ∀ b ∈ slots, b.index = 0 ∧ b.discontinuous = false := by
    intro b hb
    refine h.rest b (List.mem_cons_of_mem head hb) fun heq => ?_
    have hge := (hoffset b hb).2
    rw [heq, offset_self] at hge
    exact absurd hge (by decide)
  have hfour : (oldest + 4).toNat % 4 = 0 := by
    have haligned := h.aligned
    rw [UInt16.toNat_add]
    simp only [UInt16.reduceToNat]
    omega
  exact {
    aligned := by omega
    base := fun b hb => h.base b (List.mem_cons_of_mem head hb)
    near := fun b hb => by
      have hnear := h.near b (List.mem_cons_of_mem head hb)
      rw [(hoffset b hb).1]
      omega
    sorted := (List.pairwise_cons.mp h.sorted).2.imp_of_mem fun {a b} ha hb hlt => by
      have hge := (hoffset a ha).2
      rw [(hoffset a ha).1, (hoffset b hb).1]
      omega
    first := fun b hb _ => by rw [(hother b hb).1, hfour]
    rest := fun b hb _ => hother b hb
    pending := fun hne => absurd hfour hne }

/-- One more packet of the first block is read, not its last. -/
theorem advance (h : Ordered (head :: slots) next oldest) (hhead : head.base = oldest)
    (hlast : next.toNat % 4 ≠ 3) :
    Ordered ({ head with index := head.index + 1 } :: slots) (next + 1) oldest := by
  have haligned := h.aligned
  have hnext : (next + 1).toNat = next.toNat + 1 := by
    have hlt := next.toNat_lt
    rw [UInt16.toNat_add]
    simp only [UInt16.reduceToNat]
    omega
  have hsorted := List.pairwise_cons.mp h.sorted
  have hother : ∀ b ∈ slots, b.base ≠ oldest := fun b hb heq => by
    have hlt := hsorted.1 b hb
    rw [heq, offset_self] at hlt
    exact absurd hlt (Nat.not_lt_zero _)
  refine ⟨by omega, ?_, ?_, ?_, ?_, ?_, fun _ => ⟨_, List.mem_cons_self, hhead⟩⟩
  · exact List.forall_mem_cons.mpr (List.forall_mem_cons.mp h.base)
  · exact List.forall_mem_cons.mpr (List.forall_mem_cons.mp h.near)
  · exact List.pairwise_cons.mpr hsorted
  · refine List.forall_mem_cons.mpr ⟨fun _ => ?_, fun b hb heq => absurd heq (hother b hb)⟩
    have hindex := h.first head List.mem_cons_self hhead
    change head.index + 1 = _
    omega
  · exact List.forall_mem_cons.mpr ⟨fun hne => absurd hhead hne,
      fun b hb => h.rest b (List.mem_cons_of_mem head hb)⟩

/-- The first block may be read with gaps. -/
theorem discontinue (h : Ordered (head :: slots) next oldest) (hhead : head.base = oldest) :
    Ordered ({ head with discontinuous := true } :: slots) next oldest where
  aligned := h.aligned
  base := List.forall_mem_cons.mpr (List.forall_mem_cons.mp h.base)
  near := List.forall_mem_cons.mpr (List.forall_mem_cons.mp h.near)
  sorted := List.pairwise_cons.mpr (List.pairwise_cons.mp h.sorted)
  first := List.forall_mem_cons.mpr (List.forall_mem_cons.mp h.first)
  rest := List.forall_mem_cons.mpr ⟨fun hne => absurd hhead hne,
    fun b hb => h.rest b (List.mem_cons_of_mem head hb)⟩
  pending _ := ⟨_, List.mem_cons_self, hhead⟩

/-- All before the first block is given up. -/
theorem jump (h : Ordered (head :: slots) next oldest) (hhead : head.base ≠ oldest) :
    Ordered (head :: slots) head.base head.base := by
  have hnone : ∀ b ∈ head :: slots, b.base ≠ oldest := fun b hb heq =>
    hhead (h.head_eq hb heq ▸ heq)
  have hle : ∀ b ∈ head :: slots, offset oldest head.base ≤ offset oldest b.base :=
    List.forall_mem_cons.mpr ⟨le_rfl, fun b hb => ((List.pairwise_cons.mp h.sorted).1 b hb).le⟩
  have hsum : oldest + (head.base - oldest) = head.base := by
    rw [UInt16.add_comm, UInt16.sub_add_cancel]
  have hoffset : ∀ b ∈ head :: slots,
      offset head.base b.base = offset oldest b.base - offset oldest head.base := by
    intro b hb
    have hshift := offset_add (d := head.base - oldest) (hle b hb)
    rwa [hsum] at hshift
  have hbase := h.base head List.mem_cons_self
  exact {
    aligned := by omega
    base := h.base
    near := fun b hb => by
      have hnear := h.near b hb
      rw [hoffset b hb]
      omega
    sorted := h.sorted.imp_of_mem fun {a b} ha hb hlt => by
      have hge := hle a ha
      rw [hoffset a ha, hoffset b hb]
      omega
    first := fun b hb _ => by rw [(h.rest b hb (hnone b hb)).1, hbase]
    rest := fun b hb _ => h.rest b hb (hnone b hb)
    pending := fun hne => absurd hbase hne }

/-- A block that was not in the list enters between those before and those after it. -/
theorem insert {before after : List Slot} (h : Ordered (before ++ after) next oldest)
    {base : UInt16} (hbase : base.toNat % 4 = 0) (hnear : offset oldest base < 0x8000)
    (hbefore : ∀ b ∈ before, offset oldest b.base < offset oldest base)
    (hafter : ∀ b ∈ after, offset oldest base < offset oldest b.base) :
    Ordered (before ++ ⟨base, 0, false⟩ :: after) next oldest := by
  have hmem : ∀ b, b ∈ before ++ ⟨base, 0, false⟩ :: after →
      b = ⟨base, 0, false⟩ ∨ b ∈ before ++ after := by
    intro b hb
    rw [List.mem_append, List.mem_cons] at hb
    rw [List.mem_append]
    tauto
  have hsorted := List.pairwise_append.mp h.sorted
  refine ⟨h.aligned, fun b hb => ?_, fun b hb => ?_, ?_, fun b hb heq => ?_, fun b hb hne => ?_,
    fun hne => ?_⟩
  · rcases hmem b hb with rfl | hold
    · exact hbase
    · exact h.base b hold
  · rcases hmem b hb with rfl | hold
    · exact hnear
    · exact h.near b hold
  · refine List.pairwise_append.mpr ⟨hsorted.1, List.pairwise_cons.mpr ⟨hafter, hsorted.2.1⟩,
      fun a ha => List.forall_mem_cons.mpr ⟨hbefore a ha, hsorted.2.2 a ha⟩⟩
  · rcases hmem b hb with rfl | hold
    · -- A block that is read from is in the list already.
      by_contra hread
      obtain ⟨b', hb', hbase'⟩ := h.pending (Ne.symm hread)
      change base = oldest at heq
      rcases List.mem_append.mp hb' with hmem' | hmem'
      · have hlt := hbefore b' hmem'
        rw [heq, offset_self] at hlt
        exact absurd hlt (Nat.not_lt_zero _)
      · have hlt := hafter b' hmem'
        rw [heq, hbase'] at hlt
        exact absurd hlt (Nat.lt_irrefl _)
    · exact h.first b hold heq
  · rcases hmem b hb with rfl | hold
    · exact ⟨rfl, rfl⟩
    · exact h.rest b hold hne
  · obtain ⟨b, hb, hbase'⟩ := h.pending hne
    refine ⟨b, ?_, hbase'⟩
    rw [List.mem_append] at hb
    rw [List.mem_append, List.mem_cons]
    tauto

end Ordered

/-! ## What the functions of the queue do to the places -/

section Blocks

variable {blocks : List FecBlock}

/-- The search ends at the block if it is there. -/
theorem findBlock_found {base : UInt16} (hfound : (findBlock base blocks).2 = true) :
    ∃ block, blocks[(findBlock base blocks).1]? = some block ∧
      block.baseSequenceNumber = base := by
  induction blocks with
  | nil => exact absurd hfound Bool.false_ne_true
  | cons b blocks ih =>
      simp only [findBlock] at hfound ⊢
      split at hfound
      case isTrue heq =>
        rw [if_pos heq]
        exact ⟨b, rfl, heq⟩
      case isFalse hne =>
        rw [if_neg hne]
        split at hfound
        case isTrue => exact absurd hfound Bool.false_ne_true
        case isFalse hbefore =>
          rw [if_neg hbefore]
          exact ih hfound

/-- And else at the place that splits the list. -/
theorem findBlock_missing {base : UInt16} (hbase : offset oldest base < 0x8000)
    (hnear : ∀ b ∈ blocks, offset oldest b.baseSequenceNumber < 0x8000)
    (hsorted : blocks.Pairwise fun a b =>
      offset oldest a.baseSequenceNumber < offset oldest b.baseSequenceNumber)
    (hmissing : (findBlock base blocks).2 = false) :
    (findBlock base blocks).1 ≤ blocks.length ∧
      (∀ b ∈ blocks.take (findBlock base blocks).1,
        offset oldest b.baseSequenceNumber < offset oldest base) ∧
      ∀ b ∈ blocks.drop (findBlock base blocks).1,
        offset oldest base < offset oldest b.baseSequenceNumber := by
  induction blocks with
  | nil => exact ⟨Nat.zero_le _, fun b hb => absurd hb List.not_mem_nil,
      fun b hb => absurd hb List.not_mem_nil⟩
  | cons a blocks ih =>
      obtain ⟨hfirst, hrest⟩ := List.pairwise_cons.mp hsorted
      obtain ⟨hneara, hnears⟩ := List.forall_mem_cons.mp hnear
      simp only [findBlock] at hmissing ⊢
      split at hmissing
      case isTrue => exact absurd hmissing.symm Bool.false_ne_true
      case isFalse hne =>
        rw [if_neg hne]
        split at hmissing
        case isTrue hbefore =>
          rw [if_pos hbefore]
          have hlt := (isBefore16_iff hbase hneara).mp hbefore
          exact ⟨Nat.zero_le _, fun b hb => absurd hb List.not_mem_nil,
            List.forall_mem_cons.mpr ⟨hlt, fun b hb => hlt.trans (hfirst b hb)⟩⟩
        case isFalse hbefore =>
          rw [if_neg hbefore]
          obtain ⟨hle, htake, hdrop⟩ := ih hnears hrest hmissing
          have hge : offset oldest a.baseSequenceNumber ≤ offset oldest base :=
            Nat.not_lt.mp (mt (isBefore16_iff hbase hneara).mpr hbefore)
          have hlt : offset oldest a.baseSequenceNumber < offset oldest base :=
            lt_of_le_of_ne hge fun heq => hne (offset_inj heq)
          exact ⟨Nat.succ_le_succ hle, List.forall_mem_cons.mpr ⟨hlt, htake⟩, hdrop⟩

theorem sortedBlocks_eq_true (hnear : ∀ b ∈ blocks, offset oldest b.baseSequenceNumber < 0x8000)
    (hsorted : blocks.Pairwise fun a b =>
      offset oldest a.baseSequenceNumber < offset oldest b.baseSequenceNumber) :
    sortedBlocks blocks = true := by
  induction blocks with
  | nil => rfl
  | cons a blocks ih =>
      obtain ⟨ha, hrest⟩ := List.pairwise_cons.mp hsorted
      obtain ⟨hnear', hnears⟩ := List.forall_mem_cons.mp hnear
      cases blocks with
      | nil => rfl
      | cons b blocks =>
          rw [sortedBlocks, Bool.and_eq_true]
          exact ⟨(isBefore16_iff hnear' (hnears b List.mem_cons_self)).mpr
            (ha b List.mem_cons_self), ih hnears hrest⟩

/-- Where the blocks are in their places, all that is asserted about the list holds. -/
theorem validFecBlockState_eq_true {queue : Queue}
    (h : Ordered (queue.blocks.map FecBlock.slot) queue.nextRtpSequenceNumber
      queue.oldestRtpBaseSequenceNumber) : validFecBlockState queue = true := by
  have hnext := h.offset_next
  have hlt : queue.nextRtpSequenceNumber.toNat % 4 < 4 := Nat.mod_lt _ (by decide)
  rw [validFecBlockState, isBefore16_oldest.mpr (by omega), Bool.not_false, Bool.true_or,
    Bool.true_and]
  cases hblocks : queue.blocks with
  | nil => rfl
  | cons head blocks =>
      rw [hblocks] at h
      have hnear : ∀ b ∈ head :: blocks,
          offset queue.oldestRtpBaseSequenceNumber b.baseSequenceNumber < 0x8000 := fun b hb =>
        h.near b.slot (List.mem_map_of_mem hb)
      have hhead := hnear head List.mem_cons_self
      have hafter :
          isBefore16 queue.nextRtpSequenceNumber (head.baseSequenceNumber + 4) = true := by
        have haligned := h.aligned
        have hmod : offset queue.oldestRtpBaseSequenceNumber head.baseSequenceNumber % 4 = 0 :=
          h.offset_mod List.mem_cons_self
        have hbase := head.baseSequenceNumber.toNat_lt
        have hnumber := queue.nextRtpSequenceNumber.toNat_lt
        rw [offset_eq] at hhead hmod
        rw [isBefore16_eq_decide, decide_eq_true_iff, offset_eq, UInt16.toNat_add]
        simp only [UInt16.reduceToNat]
        omega
      have hpairs := List.pairwise_map.mp h.sorted
      have hsorted : sortedBlocks (head :: blocks) = true := sortedBlocks_eq_true hnear hpairs
      simp only [hafter, hsorted, isBefore16_oldest.mpr hhead, Bool.not_false, Bool.and_self]

end Blocks

end MoonlightScarlet.Core.RtpAudioQueue
