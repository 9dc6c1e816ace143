import MoonlightScarlet.Support.Alignment
import MoonlightScarlet.Support.Memory
/-!
# C allocation on a 64-bit target

`malloc` and its relatives put a header in front of each payload, inside a larger block of
the Rust allocator.  That allocator is a source of answers: it returns null or a base whose
block fits, and may write anything outside of the live blocks.
-/

namespace MoonlightScarlet.Sys.Allocator

open Support.Alignment Support.Memory

/-! ## std::alloc -/

structure Layout where
  size : UInt64
  align : UInt64
  deriving DecidableEq, Repr

/-- The size rounded up to the alignment is at most `isize::MAX`. -/
def Layout.fromSizeAlign (size align : UInt64) : Option Layout :=
  if isPowerOfTwo align ∧ size.toNat + align.toNat ≤ 2 ^ 63 then some ⟨size, align⟩ else none

structure Block where
  base : UInt64
  layout : Layout
  deriving DecidableEq, Repr

/-- The address behind a block. -/
def Block.limit (block : Block) : Nat := block.base.toNat + block.layout.size.toNat

def Block.Contains (block : Block) (i : Nat) : Prop := block.base.toNat ≤ i ∧ i < block.limit

instance (block : Block) (i : Nat) : Decidable (block.Contains i) :=
  inferInstanceAs (Decidable (_ ∧ _))

def Block.Disjoint (block other : Block) : Prop :=
  block.limit ≤ other.base.toNat ∨ other.limit ≤ block.base.toNat

instance (block other : Block) : Decidable (block.Disjoint other) :=
  inferInstanceAs (Decidable (_ ∨ _))

/-- The memory, the blocks that the Rust allocator has handed out, and `errno`. -/
structure Heap where
  memory : Mem UInt8
  blocks : List Block
  errno : Int32 := 0

/-- What the Rust allocator does in one call: the base that it offers, and what it leaves
outside of the live blocks when it allocates and when it frees. -/
structure Answer where
  base : UInt64
  noise : Mem UInt8
  freed : Mem UInt8

abbrev HeapM := StateM Heap

/-- A block at `base` is aligned, does not wrap, and keeps clear of every live block. -/
def Heap.Fits (heap : Heap) (layout : Layout) (base : UInt64) : Prop :=
  base ≠ 0 ∧ base.toNat % layout.align.toNat = 0 ∧ base.toNat + layout.size.toNat ≤ 2 ^ 64 ∧
    ∀ block ∈ heap.blocks, Block.Disjoint ⟨base, layout⟩ block

instance (heap : Heap) (layout : Layout) (base : UInt64) : Decidable (heap.Fits layout base) :=
  inferInstanceAs (Decidable (_ ∧ _))

/-- Only the live blocks keep their contents. -/
def scribble (blocks : List Block) (memory noise : Mem UInt8) : Mem UInt8 := fun i =>
  if ∃ block ∈ blocks, block.Contains i then memory i else noise i

/-- An offer that does not fit is no answer of the allocator, and stands for null. -/
def alloc (answer : Answer) (layout : Layout) : HeapM UInt64 := fun heap =>
  let memory := scribble heap.blocks heap.memory answer.noise
  if heap.Fits layout answer.base then
    (answer.base, { heap with memory, blocks := ⟨answer.base, layout⟩ :: heap.blocks })
  else (0, { heap with memory })

def dealloc (answer : Answer) (base : UInt64) (layout : Layout) : HeapM Unit :=
  modify fun heap =>
    let blocks := heap.blocks.erase ⟨base, layout⟩
    { heap with blocks, memory := scribble blocks heap.memory answer.freed }

/-! ## scarlet.rs -/

structure AllocationHeader where
  base : UInt64
  layoutSize : UInt64
  layoutAlign : UInt64
  requestedSize : UInt64
  magic : UInt64
  deriving DecidableEq, Repr

/-- `size_of::<AllocationHeader>()`: five words, aligned to 16 bytes. -/
def headerSize : UInt64 := 48

def allocationMagic : UInt64 := 0x534341524c45544d

def enomem : Int32 := 12
def einval : Int32 := 22

/-- The bytes of the fields; the padding behind them is left as it is. -/
def AllocationHeader.bytes (header : AllocationHeader) : List UInt8 :=
  bytesOf 8 header.base.toNat ++ bytesOf 8 header.layoutSize.toNat ++
    bytesOf 8 header.layoutAlign.toNat ++ bytesOf 8 header.requestedSize.toNat ++
    bytesOf 8 header.magic.toNat

def readHeader (memory : Mem UInt8) (address : UInt64) : AllocationHeader where
  base := readWord memory address.toNat
  layoutSize := readWord memory (address.toNat + 8)
  layoutAlign := readWord memory (address.toNat + 16)
  requestedSize := readWord memory (address.toNat + 24)
  magic := readWord memory (address.toNat + 32)

def store (address : UInt64) (bytes : List UInt8) : HeapM Unit :=
  modify fun heap => { heap with memory := write heap.memory address.toNat bytes }

def setErrno (errno : Int32) : HeapM Unit := modify fun heap => { heap with errno }

def checkedAdd (a b : UInt64) : Option UInt64 :=
  if a.toNat + b.toNat < 2 ^ 64 then some (a + b) else none

def checkedMul (a b : UInt64) : Option UInt64 :=
  if a.toNat * b.toNat < 2 ^ 64 then some (a * b) else none

def allocationLayout (size alignment : UInt64) : Option Layout :=
  let alignment := max alignment 16
  if isPowerOfTwo alignment then do
    let total ← checkedAdd (max size 1) headerSize
    let total ← checkedAdd total (alignment - 1)
    Layout.fromSizeAlign total alignment
  else none

/-- The payload of a block: its base behind a header, rounded up. -/
def payloadAddress (block : Block) : UInt64 :=
  alignDown (block.base + headerSize + block.layout.align - 1) block.layout.align

def allocateWithAlignment (answer : Answer) (size alignment : UInt64) : HeapM UInt64 := do
  match allocationLayout size alignment with
  | none =>
      setErrno enomem
      return 0
  | some layout =>
      let base ← alloc answer layout
      if base = 0 then
        setErrno enomem
        return 0
      else
        let payload := payloadAddress ⟨base, layout⟩
        let header : AllocationHeader := ⟨base, layout.size, layout.align, size, allocationMagic⟩
        store (payload - headerSize) header.bytes
        return payload

def malloc (answer : Answer) (size : UInt64) : HeapM UInt64 := allocateWithAlignment answer size 16

def alignedAlloc (answer : Answer) (alignment size : UInt64) : HeapM UInt64 := do
  if alignment = 0 ∨ ¬isPowerOfTwo alignment ∨ size % alignment ≠ 0 then
    setErrno einval
    return 0
  else allocateWithAlignment answer size alignment

def calloc (answer : Answer) (count size : UInt64) : HeapM UInt64 := do
  match checkedMul count size with
  | none =>
      setErrno enomem
      return 0
  | some total =>
      let allocation ← malloc answer total
      if allocation = 0 then return 0
      else
        store allocation (List.replicate total.toNat 0)
        return allocation

def free (answer : Answer) (pointer : UInt64) : HeapM Unit := do
  if pointer = 0 then return ()
  else
    let header := readHeader (← get).memory (pointer - headerSize)
    if header.magic ≠ allocationMagic then return ()
    else
      match Layout.fromSizeAlign header.layoutSize header.layoutAlign with
      | none => return ()
      | some layout => dealloc answer header.base layout

def realloc (answer : Answer) (pointer size : UInt64) : HeapM UInt64 := do
  if pointer = 0 then malloc answer size
  else if size = 0 then
    free answer pointer
    return 0
  else
    let header := readHeader (← get).memory (pointer - headerSize)
    if header.magic ≠ allocationMagic then
      setErrno einval
      return 0
    else
      let replacement ← allocateWithAlignment answer size header.layoutAlign
      if replacement = 0 then return 0
      else
        let length := (min header.requestedSize size).toNat
        store replacement (read (← get).memory pointer.toNat length)
        free answer pointer
        return replacement

/-! ## A program that uses them -/

/-- A live payload, with the size and the alignment that it was asked for and the block
that the Rust allocator gave for it. -/
structure Allocation where
  payload : UInt64
  size : UInt64
  alignment : UInt64
  block : Block
  deriving DecidableEq, Repr

structure State where
  heap : Heap
  live : List Allocation := []
  /-- What the last call returned. -/
  result : UInt64 := 0

/-- The calls of a C program, and its stores to live payloads. -/
inductive Call
  | malloc (size : UInt64)
  | calloc (count size : UInt64)
  | alignedAlloc (alignment size : UInt64)
  | realloc (pointer size : UInt64)
  | free (pointer : UInt64)
  | store (pointer : UInt64) (offset : Nat) (bytes : List UInt8)

def State.find (s : State) (pointer : UInt64) : Option Allocation :=
  s.live.find? fun allocation => allocation.payload = pointer

def State.drop (s : State) (pointer : UInt64) : State :=
  { s with live := s.live.filter fun allocation => allocation.payload ≠ pointer }

/-- The state after an allocation: unless it failed, its payload is live. -/
def State.allocated (s : State) (answer : Answer) (size alignment : UInt64)
    (returned : UInt64 × Heap) : State where
  heap := returned.2
  result := returned.1
  live :=
    match allocationLayout size alignment with
    | some layout =>
        if returned.1 = 0 then s.live
        else ⟨returned.1, size, alignment, ⟨answer.base, layout⟩⟩ :: s.live
    | none => s.live

/-- A call is only made with null or a live pointer, and a store stays inside its payload. -/
def step (s : State) (label : Call × Answer) : Option State :=
  let answer := label.2
  match label.1 with
  | .malloc size => some (s.allocated answer size 16 ((malloc answer size).run s.heap))
  | .calloc count size =>
      some (s.allocated answer (count * size) 16 ((calloc answer count size).run s.heap))
  | .alignedAlloc alignment size =>
      some (s.allocated answer size alignment ((alignedAlloc answer alignment size).run s.heap))
  | .realloc pointer size =>
      let returned := (realloc answer pointer size).run s.heap
      if pointer = 0 then some (s.allocated answer size 16 returned)
      else (s.find pointer).map fun old =>
        if size = 0 then { s.drop pointer with heap := returned.2, result := returned.1 }
        else if returned.1 = 0 then { s with heap := returned.2, result := returned.1 }
        else (s.drop pointer).allocated answer size old.alignment returned
  | .free pointer =>
      let heap := ((free answer pointer).run s.heap).2
      if pointer = 0 then some { s with heap, result := 0 }
      else (s.find pointer).map fun _ => { s.drop pointer with heap, result := 0 }
  | .store pointer offset bytes =>
      (s.find pointer).bind fun allocation =>
        if offset + bytes.length ≤ allocation.size.toNat then
          some { s with
            heap := { s.heap with
              memory := write s.heap.memory (pointer.toNat + offset) bytes } }
        else none

end MoonlightScarlet.Sys.Allocator
