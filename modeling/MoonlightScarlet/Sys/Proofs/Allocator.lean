import MoonlightScarlet.Sys.Allocator
import Mathlib.Data.List.Pairwise
/-!
# The C allocator

Every payload lies in its own block behind its own header, and the header says exactly
which block that is.  This holds over any sequence of calls, and of stores to payloads.
-/

namespace MoonlightScarlet.Sys.Allocator

open Support.Alignment Support.Memory Support.Words

/-! ## Layouts -/

section Layout

variable {size alignment : UInt64} {layout : Layout}

theorem fromSizeAlign_eq_some {size align : UInt64} :
    Layout.fromSizeAlign size align = some layout ↔
      (isPowerOfTwo align = true ∧ size.toNat + align.toNat ≤ 2 ^ 63) ∧ ⟨size, align⟩ = layout := by
  rw [Layout.fromSizeAlign, Option.ite_none_right_eq_some, Option.some.injEq]

theorem checkedAdd_eq_some {a b sum : UInt64} :
    checkedAdd a b = some sum ↔ a.toNat + b.toNat < 2 ^ 64 ∧ a + b = sum := by
  rw [checkedAdd, Option.ite_none_right_eq_some, Option.some.injEq]

/-- The size that a layout has for a payload. -/
theorem toNat_total {size align total sum : UInt64} (halign : 0 < align.toNat)
    (htotal : checkedAdd (max size 1) headerSize = some total)
    (hsum : checkedAdd total (align - 1) = some sum) :
    sum.toNat = max size.toNat 1 + 48 + (align.toNat - 1) := by
  obtain ⟨hfirst, rfl⟩ := checkedAdd_eq_some.mp htotal
  obtain ⟨hsecond, rfl⟩ := checkedAdd_eq_some.mp hsum
  have hheader : headerSize.toNat = 48 := rfl
  have hmax : (max size 1).toNat = max size.toNat 1 := toNat_max size 1
  rw [toNat_sub_one halign] at hsecond
  rw [UInt64.toNat_add, toNat_sub_one halign, Nat.mod_eq_of_lt hsecond, UInt64.toNat_add,
    Nat.mod_eq_of_lt hfirst, hheader, hmax]

/-- The layout for a payload: behind a header, with room to round up, and not too large. -/
def Layout.Suits (layout : Layout) (size alignment : UInt64) : Prop :=
  isPowerOfTwo layout.align = true ∧ layout.align = max alignment 16 ∧
    layout.size.toNat = max size.toNat 1 + 48 + (layout.align.toNat - 1) ∧
    layout.size.toNat + layout.align.toNat ≤ 2 ^ 63

theorem allocationLayout_eq_some :
    allocationLayout size alignment = some layout ↔ layout.Suits size alignment := by
  unfold allocationLayout Layout.Suits
  dsimp only
  by_cases hpow : isPowerOfTwo (max alignment 16) = true
  · have hpos := pos_of_isPowerOfTwo hpow
    rw [if_pos hpow]
    simp only [Option.bind_eq_bind, Option.bind_eq_some_iff, fromSizeAlign_eq_some]
    constructor
    · rintro ⟨total, htotal, sum, hsum, ⟨-, hbound⟩, rfl⟩
      exact ⟨hpow, rfl, toNat_total hpos htotal hsum, hbound⟩
    · rintro ⟨-, halign, hsize, hbound⟩
      rw [halign] at hsize hbound
      have hheader : headerSize.toNat = 48 := rfl
      have hmax : (max size 1).toNat = max size.toNat 1 := toNat_max size 1
      have hfirst : (max size 1).toNat + headerSize.toNat < 2 ^ 64 := by omega
      have htotal : checkedAdd (max size 1) headerSize = some (max size 1 + headerSize) :=
        checkedAdd_eq_some.mpr ⟨hfirst, rfl⟩
      have hsecond : (max size 1 + headerSize).toNat + (max alignment 16 - 1).toNat < 2 ^ 64 := by
        rw [toNat_sub_one hpos, UInt64.toNat_add, Nat.mod_eq_of_lt hfirst]
        omega
      have hsum : checkedAdd (max size 1 + headerSize) (max alignment 16 - 1) =
          some (max size 1 + headerSize + (max alignment 16 - 1)) :=
        checkedAdd_eq_some.mpr ⟨hsecond, rfl⟩
      have hlayout : max size 1 + headerSize + (max alignment 16 - 1) = layout.size := by
        rw [← UInt64.toNat_inj, toNat_total hpos htotal hsum, hsize]
      refine ⟨_, htotal, _, hsum, ⟨hpow, ?_⟩, ?_⟩
      · rw [hlayout]
        exact hbound
      · rw [hlayout, ← halign]
  · rw [if_neg hpow]
    refine iff_of_false (Option.some_ne_none _).symm fun h => ?_
    rw [h.2.1] at h
    exact hpow h.1

end Layout

/-! ## Blocks -/

/-- The blocks have the same contents in both memories. -/
def SameIn (blocks : List Block) (m m' : Mem UInt8) : Prop :=
  ∀ block ∈ blocks, ∀ i, block.Contains i → m' i = m i

theorem SameIn.trans {blocks : List Block} {m₁ m₂ m₃ : Mem UInt8} (h₁₂ : SameIn blocks m₁ m₂)
    (h₂₃ : SameIn blocks m₂ m₃) : SameIn blocks m₁ m₃ := fun block hblock i hi =>
  (h₂₃ block hblock i hi).trans (h₁₂ block hblock i hi)

theorem SameIn.of_subset {blocks blocks' : List Block} {m m' : Mem UInt8}
    (h : SameIn blocks m m') (hsub : blocks' ⊆ blocks) : SameIn blocks' m m' :=
  fun block hblock => h block (hsub hblock)

theorem SameIn.of_mem {blocks : List Block} {block : Block} {m m' : Mem UInt8}
    (h : SameIn blocks m m') (hmem : block ∈ blocks) : SameIn [block] m m' :=
  h.of_subset fun _ hother => List.mem_singleton.mp hother ▸ hmem

theorem sameIn_scribble (blocks : List Block) (m noise : Mem UInt8) :
    SameIn blocks m (scribble blocks m noise) :=
  fun block hblock _ hi => if_pos ⟨block, hblock, hi⟩

/-- A write inside of one block is not seen in the blocks beside it. -/
theorem sameIn_write {blocks : List Block} (m : Mem UInt8) {block : Block} {start : Nat}
    {bytes : List UInt8} (hclear : ∀ other ∈ blocks, block.Disjoint other)
    (hbase : block.base.toNat ≤ start) (hlimit : start + bytes.length ≤ block.limit) :
    SameIn blocks m (write m start bytes) := by
  intro other hother i hi
  have hlow : other.base.toNat ≤ i := hi.1
  have hhigh : i < other.limit := hi.2
  refine write_outside ?_
  rcases hclear other hother with hbelow | habove
  · right
    omega
  · left
    omega

/-! ## Headers -/

theorem readHeader_write (m : Mem UInt8) (address : UInt64) (header : AllocationHeader) :
    readHeader (write m address.toNat header.bytes) address = header := by
  obtain ⟨base, layoutSize, layoutAlign, requestedSize, magic⟩ := header
  have hword (xs zs : List UInt8) (word : UInt64) :
      readWord (write m address.toNat (xs ++ bytesOf 8 word.toNat ++ zs))
        (address.toNat + xs.length) = word := by
    refine readWord_of_read ?_
    have hpart := read_write_part m address.toNat xs (bytesOf 8 word.toNat) zs
    rwa [length_bytesOf] at hpart
  have hbase := hword [] (bytesOf 8 layoutSize.toNat ++ bytesOf 8 layoutAlign.toNat ++
    bytesOf 8 requestedSize.toNat ++ bytesOf 8 magic.toNat) base
  have hsize := hword (bytesOf 8 base.toNat) (bytesOf 8 layoutAlign.toNat ++
    bytesOf 8 requestedSize.toNat ++ bytesOf 8 magic.toNat) layoutSize
  have halign := hword (bytesOf 8 base.toNat ++ bytesOf 8 layoutSize.toNat)
    (bytesOf 8 requestedSize.toNat ++ bytesOf 8 magic.toNat) layoutAlign
  have hrequested := hword (bytesOf 8 base.toNat ++ bytesOf 8 layoutSize.toNat ++
    bytesOf 8 layoutAlign.toNat) (bytesOf 8 magic.toNat) requestedSize
  have hmagic := hword (bytesOf 8 base.toNat ++ bytesOf 8 layoutSize.toNat ++
    bytesOf 8 layoutAlign.toNat ++ bytesOf 8 requestedSize.toNat) [] magic
  simp only [List.nil_append, List.append_nil, List.append_assoc, List.length_append,
    List.length_nil, length_bytesOf, Nat.reduceAdd, Nat.add_zero]
    at hbase hsize halign hrequested hmagic
  simp only [readHeader, AllocationHeader.bytes, List.append_assoc, hbase, hsize, halign,
    hrequested, hmagic]

theorem length_header_bytes (header : AllocationHeader) : header.bytes.length = 40 := by
  simp only [AllocationHeader.bytes, List.length_append, length_bytesOf]

theorem readHeader_congr {m m' : Mem UInt8} {address : UInt64}
    (h : ∀ i, address.toNat ≤ i → i < address.toNat + 40 → m' i = m i) :
    readHeader m' address = readHeader m address := by
  have hword (offset : Nat) (hoffset : offset + 8 ≤ 40) :
      readWord m' (address.toNat + offset) = readWord m (address.toNat + offset) := by
    have hread : read m' (address.toNat + offset) 8 = read m (address.toNat + offset) 8 :=
      read_congr fun i _ _ => h i (by omega) (by omega)
    rw [readWord, readWord, hread]
  have hbase := hword 0 (by omega)
  simp only [Nat.add_zero] at hbase
  simp only [readHeader, hbase, hword 8 (by omega), hword 16 (by omega), hword 24 (by omega),
    hword 32 (by omega)]

/-! ## Where an allocation lies -/

/-- What the header of an allocation says: the base, the size and the alignment of its block. -/
def Allocation.header (a : Allocation) : AllocationHeader :=
  ⟨a.block.base, a.block.layout.size, a.block.layout.align, a.size, allocationMagic⟩

/-- The address of the 48 bytes in front of a payload. -/
def Allocation.start (a : Allocation) : Nat := a.payload.toNat - 48

/-- The address behind a payload. -/
def Allocation.limit (a : Allocation) : Nat := a.payload.toNat + a.size.toNat

/-- The header and the payload lie in the block one behind the other, both aligned. -/
structure Allocation.Placed (a : Allocation) : Prop where
  layout : allocationLayout a.size a.alignment = some a.block.layout
  header : a.block.base.toNat + 48 ≤ a.payload.toNat
  header_aligned : a.start % 16 = 0
  aligned : a.payload.toNat % max 16 a.alignment.toNat = 0
  payload : a.limit ≤ a.block.limit
  wraps : a.block.limit ≤ 2 ^ 64

theorem Allocation.Placed.toNat_start {a : Allocation} (h : a.Placed) :
    (a.payload - headerSize).toNat = a.start := by
  have hheader := h.header
  have hsize : headerSize.toNat = 48 := rfl
  rw [UInt64.toNat_sub_of_le _ _ (UInt64.le_iff_toNat_le.mpr (by omega)), hsize, Allocation.start]

theorem Allocation.Placed.payload_ne_zero {a : Allocation} (h : a.Placed) : a.payload ≠ 0 := by
  intro hzero
  have hheader := h.header
  rw [hzero] at hheader
  have hnat : (0 : UInt64).toNat = 0 := rfl
  omega

theorem Allocation.Placed.size_pos {a : Allocation} (h : a.Placed) :
    a.block.base.toNat < a.block.limit := by
  have hsize := (allocationLayout_eq_some.mp h.layout).2.2.1
  unfold Block.limit
  omega

theorem Allocation.Placed.block_ne {a : Allocation} (h : a.Placed) {block : Block}
    (hdisjoint : a.block.Disjoint block) : a.block ≠ block := by
  intro heq
  have hpos := h.size_pos
  rw [heq] at hpos hdisjoint
  unfold Block.Disjoint at hdisjoint
  omega

/-- What an allocation gets from a base that fits. -/
def allocationIn (size alignment : UInt64) (block : Block) : Allocation :=
  ⟨payloadAddress block, size, alignment, block⟩

/-- The last address that the payload may round down from. -/
theorem toNat_last (base : UInt64) {align : UInt64} (hpos : 0 < align.toNat)
    (hbound : base.toNat + 48 + (align.toNat - 1) < 2 ^ 64) :
    (base + headerSize + align - 1).toNat = base.toNat + 48 + (align.toNat - 1) := by
  have hheader : headerSize.toNat = 48 := rfl
  have hone : (1 : UInt64).toNat = 1 := rfl
  rw [UInt64.toNat_sub, UInt64.toNat_add, UInt64.toNat_add, hheader, hone]
  omega

theorem placed_allocationIn {heap : Heap} {size alignment base : UInt64} {layout : Layout}
    (hlayout : allocationLayout size alignment = some layout) (hfits : heap.Fits layout base) :
    (allocationIn size alignment ⟨base, layout⟩).Placed := by
  obtain ⟨hpow, halign, hsize, -⟩ := allocationLayout_eq_some.mp hlayout
  obtain ⟨-, -, hwraps, -⟩ := hfits
  have hpos := pos_of_isPowerOfTwo hpow
  have hmax : layout.align.toNat = max 16 alignment.toNat := by
    rw [halign, toNat_max, Nat.max_comm]
    rfl
  have hlast := toNat_last base hpos (by omega)
  have hpayload : (payloadAddress ⟨base, layout⟩).toNat =
      base.toNat + 48 + (layout.align.toNat - 1) -
        (base.toNat + 48 + (layout.align.toNat - 1)) % layout.align.toNat := by
    rw [payloadAddress, toNat_alignDown _ hpow, hlast]
  have haligned : (payloadAddress ⟨base, layout⟩).toNat % layout.align.toNat = 0 := by
    rw [hpayload]
    exact Nat.mod_eq_zero_of_dvd (Nat.dvd_sub_mod _)
  have hsixteen : 16 ∣ layout.align.toNat :=
    dvd_of_le (m := 16) (by decide) hpow (by rw [hmax]; exact Nat.le_max_left ..)
  have hmod := Nat.mod_lt (base.toNat + 48 + (layout.align.toNat - 1)) hpos
  have hdvd : 16 ∣ (payloadAddress ⟨base, layout⟩).toNat :=
    Nat.dvd_trans hsixteen (Nat.dvd_of_mod_eq_zero haligned)
  refine ⟨hlayout, ?_, ?_, ?_, ?_, hwraps⟩
  · change base.toNat + 48 ≤ (payloadAddress ⟨base, layout⟩).toNat
    omega
  · change ((payloadAddress ⟨base, layout⟩).toNat - 48) % 16 = 0
    omega
  · change (payloadAddress ⟨base, layout⟩).toNat % max 16 alignment.toNat = 0
    rw [← hmax]
    exact haligned
  · change (payloadAddress ⟨base, layout⟩).toNat + size.toNat ≤ base.toNat + layout.size.toNat
    omega

/-- An allocation is placed, its block has been handed out and its header is there. -/
structure Allocation.Owned (heap : Heap) (a : Allocation) : Prop where
  placed : a.Placed
  block : a.block ∈ heap.blocks
  header : readHeader heap.memory (a.payload - headerSize) = a.header

theorem Allocation.Owned.of_same {heap heap' : Heap} {a : Allocation} (h : a.Owned heap)
    (hblock : a.block ∈ heap'.blocks)
    (hsame : ∀ i, a.start ≤ i → i < a.payload.toNat → heap'.memory i = heap.memory i) :
    a.Owned heap' := by
  refine ⟨h.placed, hblock, ?_⟩
  have hheader := h.placed.header
  rw [← h.header]
  refine readHeader_congr fun i hlow hhigh => ?_
  rw [h.placed.toNat_start] at hlow hhigh
  refine hsame i hlow ?_
  unfold Allocation.start at hhigh
  omega

/-- The bytes from the header on lie in the block. -/
theorem Allocation.Placed.contains {a : Allocation} (h : a.Placed) {i : Nat} (hlow : a.start ≤ i)
    (hhigh : i < a.limit) : a.block.Contains i := by
  have hheader := h.header
  have hpayload := h.payload
  unfold Allocation.start at hlow
  exact ⟨by omega, by omega⟩

theorem Allocation.Owned.of_sameIn {heap heap' : Heap} {a : Allocation} (h : a.Owned heap)
    (hblock : a.block ∈ heap'.blocks) (hsame : SameIn [a.block] heap.memory heap'.memory) :
    a.Owned heap' :=
  h.of_same hblock fun i hlow hhigh =>
    hsame a.block (List.mem_singleton.mpr rfl) i
      (h.placed.contains hlow (Nat.lt_of_lt_of_le hhigh (Nat.le_add_right ..)))

/-! ## Runs of the calls -/

section Runs

variable {heap : Heap} {answer : Answer} {size alignment : UInt64}

/-- There is no layout for the request, or the Rust allocator has no block for it. -/
def Heap.Refuses (heap : Heap) (answer : Answer) (size alignment : UInt64) : Prop :=
  ∀ layout : Layout, layout.Suits size alignment → ¬heap.Fits layout answer.base

/-- A failed call changes nothing inside of the live blocks. -/
structure Heap.Unchanged (heap heap' : Heap) : Prop where
  blocks : heap'.blocks = heap.blocks
  memory : SameIn heap.blocks heap.memory heap'.memory

theorem Heap.Unchanged.refl (heap : Heap) : heap.Unchanged heap := ⟨rfl, fun _ _ _ _ => rfl⟩

theorem run_bind {α β : Type} {x : HeapM α} {f : α → HeapM β} {heap' : Heap} {a : α}
    (h : x.run heap = (a, heap')) : (x >>= f).run heap = (f a).run heap' := by
  rw [StateT.run_bind, h]
  rfl

theorem get_run (heap : Heap) : (get : HeapM Heap).run heap = (heap, heap) := rfl

theorem alloc_refuses {layout : Layout} (h : ¬heap.Fits layout answer.base) :
    (alloc answer layout).run heap =
      (0, { heap with memory := scribble heap.blocks heap.memory answer.noise }) := if_neg h

theorem alloc_fits {layout : Layout} (h : heap.Fits layout answer.base) :
    (alloc answer layout).run heap =
      (answer.base, { heap with memory := scribble heap.blocks heap.memory answer.noise,
                                blocks := ⟨answer.base, layout⟩ :: heap.blocks }) := if_pos h

theorem allocateWithAlignment_refuses (h : heap.Refuses answer size alignment) :
    ∃ heap', (allocateWithAlignment answer size alignment).run heap = (0, heap') ∧
      heap.Unchanged heap' := by
  unfold allocateWithAlignment
  cases hlayout : allocationLayout size alignment with
  | none => exact ⟨{ heap with errno := enomem }, rfl, rfl, fun _ _ _ _ => rfl⟩
  | some layout =>
      have halloc := alloc_refuses (h layout (allocationLayout_eq_some.mp hlayout))
      refine ⟨{ heap with memory := scribble heap.blocks heap.memory answer.noise,
                          errno := enomem }, ?_, rfl, sameIn_scribble _ _ _⟩
      dsimp only
      rw [run_bind halloc]
      rfl

/-- The heap after an allocation: its block is live, and the header stands in it. -/
def Heap.granted (heap : Heap) (answer : Answer) (a : Allocation) : Heap :=
  { heap with
    memory := write (scribble heap.blocks heap.memory answer.noise) a.start a.header.bytes,
    blocks := a.block :: heap.blocks }

theorem allocateWithAlignment_grants {layout : Layout}
    (hlayout : allocationLayout size alignment = some layout)
    (hfits : heap.Fits layout answer.base) :
    (allocateWithAlignment answer size alignment).run heap =
      ((allocationIn size alignment ⟨answer.base, layout⟩).payload,
        heap.granted answer (allocationIn size alignment ⟨answer.base, layout⟩)) := by
  have halloc := alloc_fits hfits
  have hstart := (placed_allocationIn hlayout hfits).toNat_start
  unfold allocateWithAlignment
  rw [hlayout]
  dsimp only
  rw [run_bind halloc, if_neg hfits.1, Heap.granted, ← hstart]
  rfl

/-- The heap after `dealloc`: only the block is gone. -/
def Heap.freed (heap : Heap) (answer : Answer) (block : Block) : Heap :=
  { heap with
    blocks := heap.blocks.erase block,
    memory := scribble (heap.blocks.erase block) heap.memory answer.freed }

/-- `free` gives the block of the payload back, with the layout that it was allocated with. -/
theorem free_run {a : Allocation} (h : a.Owned heap) :
    (free answer a.payload).run heap = ((), heap.freed answer a.block) := by
  have hpower := (allocationLayout_eq_some.mp h.placed.layout).1
  have hbound := (allocationLayout_eq_some.mp h.placed.layout).2.2.2
  have hlayout : Layout.fromSizeAlign a.header.layoutSize a.header.layoutAlign =
      some a.block.layout := fromSizeAlign_eq_some.mpr ⟨⟨hpower, hbound⟩, rfl⟩
  have hmagic : ¬a.header.magic ≠ allocationMagic := not_not_intro rfl
  unfold free
  rw [if_neg h.placed.payload_ne_zero]
  rw [run_bind (get_run heap)]
  dsimp only
  rw [h.header, if_neg hmagic, hlayout]
  rfl

end Runs

/-! ## The invariant -/

/-- Every live allocation is behind its header in a block that it shares with no other. -/
structure Sound (heap : Heap) (live : List Allocation) : Prop where
  owned : ∀ a ∈ live, a.Owned heap
  apart : live.Pairwise fun a b => a.block.Disjoint b.block

section Sound

variable {heap heap' : Heap} {live : List Allocation}

theorem Sound.disjoint (h : Sound heap live) {a b : Allocation} (ha : a ∈ live) (hb : b ∈ live)
    (hne : a ≠ b) : a.block.Disjoint b.block := by
  have : Std.Symm fun a b : Allocation => a.block.Disjoint b.block := ⟨fun _ _ => Or.symm⟩
  exact h.apart.forall ha hb hne

theorem Sound.unchanged (h : Sound heap live) (hsame : heap.Unchanged heap') :
    Sound heap' live := by
  refine ⟨fun a ha => ?_, h.apart⟩
  have hblock := (h.owned a ha).block
  refine (h.owned a ha).of_sameIn (by rw [hsame.blocks]; exact hblock) ?_
  exact hsame.memory.of_mem hblock

/-- The new block is clear of all blocks before it, and so is the header in it. -/
theorem sameIn_granted (answer : Answer) {a : Allocation} (hplaced : a.Placed)
    (hclear : ∀ block ∈ heap.blocks, a.block.Disjoint block) :
    SameIn heap.blocks heap.memory (heap.granted answer a).memory := by
  refine (sameIn_scribble heap.blocks heap.memory answer.noise).trans ?_
  have hheader := hplaced.header
  have hpayload := hplaced.payload
  unfold Allocation.limit at hpayload
  refine sameIn_write _ hclear ?_ ?_
  · unfold Allocation.start
    omega
  · rw [length_header_bytes]
    unfold Allocation.start
    omega

theorem Sound.granted (h : Sound heap live) (answer : Answer) {a : Allocation}
    (hplaced : a.Placed) (hclear : ∀ block ∈ heap.blocks, a.block.Disjoint block) :
    Sound (heap.granted answer a) (a :: live) := by
  have hsame := sameIn_granted answer hplaced hclear
  constructor
  · intro b hb
    rcases List.mem_cons.mp hb with rfl | hb
    · refine ⟨hplaced, List.mem_cons_self, ?_⟩
      unfold Heap.granted
      rw [← hplaced.toNat_start, readHeader_write]
    · have hblock := (h.owned b hb).block
      exact (h.owned b hb).of_sameIn (List.mem_cons_of_mem _ hblock) (hsame.of_mem hblock)
  · exact List.pairwise_cons.mpr ⟨fun b hb => hclear _ (h.owned b hb).block, h.apart⟩

/-- A store to a payload stays in its block. -/
theorem sameIn_store {blocks : List Block} (m : Mem UInt8) {a : Allocation} (hplaced : a.Placed)
    {offset : Nat} {bytes : List UInt8} (hbound : offset + bytes.length ≤ a.size.toNat)
    (hclear : ∀ block ∈ blocks, a.block.Disjoint block) :
    SameIn blocks m (write m (a.payload.toNat + offset) bytes) := by
  have hheader := hplaced.header
  have hpayload := hplaced.payload
  unfold Allocation.limit at hpayload
  exact sameIn_write m hclear (by omega) (by omega)

/-- A store to a payload reaches no header, its own included. -/
theorem Sound.store (h : Sound heap live) {a : Allocation} (ha : a ∈ live) {offset : Nat}
    {bytes : List UInt8} (hbound : offset + bytes.length ≤ a.size.toNat) :
    Sound { heap with memory := write heap.memory (a.payload.toNat + offset) bytes } live := by
  refine ⟨fun b hb => ?_, h.apart⟩
  have hown := h.owned b hb
  by_cases hne : a = b
  · refine hown.of_same hown.block fun i _ hhigh => write_outside ?_
    rw [hne]
    omega
  · refine hown.of_sameIn hown.block ?_
    refine sameIn_store heap.memory (h.owned a ha).placed hbound fun block hblock => ?_
    rw [List.mem_singleton.mp hblock]
    exact h.disjoint ha hb hne

theorem Sound.freed (h : Sound heap live) (answer : Answer) {a : Allocation} (ha : a ∈ live) :
    Sound (heap.freed answer a.block)
      (live.filter fun allocation => allocation.payload ≠ a.payload) := by
  refine ⟨fun b hb => ?_, h.apart.filter _⟩
  have hlive := (List.mem_filter.mp hb).1
  have hpayload : b.payload ≠ a.payload := of_decide_eq_true (List.mem_filter.mp hb).2
  have hne : b ≠ a := fun heq => hpayload (congrArg Allocation.payload heq)
  have hown := h.owned b hlive
  have hblock : b.block ≠ a.block := hown.placed.block_ne (h.disjoint hlive ha hne)
  have hmem : b.block ∈ heap.blocks.erase a.block := (List.mem_erase_of_ne hblock).mpr hown.block
  exact hown.of_sameIn hmem ((sameIn_scribble _ heap.memory answer.freed).of_mem hmem)

end Sound

end MoonlightScarlet.Sys.Allocator
