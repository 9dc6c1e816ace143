import MoonlightScarlet.Support.Runs
import MoonlightScarlet.Sys.Proofs.Allocator
/-!
# What the C allocator promises

What each call does to the live payloads and to the blocks of the Rust allocator, in every
state that a sequence of calls reaches.
-/

namespace MoonlightScarlet.Sys.Allocator

open Support.Alignment Support.Memory Support.Runs Support.Words

/-! ## Promises -/

/-- A failed call returns null, and the live blocks are as before. -/
structure Failed (s t : State) : Prop where
  result : t.result = 0
  live : t.live = s.live
  heap : s.heap.Unchanged t.heap

/-- A new allocation is live, in a block of its own. -/
structure Granted (s t : State) (a : Allocation) : Prop where
  result : t.result = a.payload
  live : t.live = a :: s.live
  blocks : t.heap.blocks = a.block :: s.heap.blocks
  memory : SameIn s.heap.blocks s.heap.memory t.heap.memory

/-- The block of an allocation has gone back to the Rust allocator, and nothing else. -/
structure Freed (s t : State) (a : Allocation) : Prop where
  result : t.result = 0
  live : t.live = (s.drop a.payload).live
  blocks : t.heap.blocks = s.heap.blocks.erase a.block
  memory : SameIn t.heap.blocks s.heap.memory t.heap.memory

/-- An allocation has been replaced by one that starts with the same bytes. -/
structure Moved (s t : State) (old new : Allocation) : Prop where
  result : t.result = new.payload
  live : t.live = new :: (s.drop old.payload).live
  blocks : t.heap.blocks = new.block :: s.heap.blocks.erase old.block
  memory : SameIn (s.heap.blocks.erase old.block) s.heap.memory t.heap.memory
  contents :
    read t.heap.memory new.payload.toNat (min old.size.toNat new.size.toNat) =
      read s.heap.memory old.payload.toNat (min old.size.toNat new.size.toNat)

/-- A request fails exactly when it is refused. -/
def Allocates (s : State) (answer : Answer) (size alignment : UInt64) (t : State) : Prop :=
  (s.heap.Refuses answer size alignment → Failed s t) ∧
    (¬s.heap.Refuses answer size alignment →
      ∃ a : Allocation, a.size = size ∧ a.alignment = alignment ∧ Granted s t a)

/-- What a call leaves behind. -/
def Promised (s : State) (answer : Answer) (t : State) : Call → Prop
  | .malloc size => Allocates s answer size 16 t
  | .calloc count size =>
      (2 ^ 64 ≤ count.toNat * size.toNat → Failed s t) ∧
        (count.toNat * size.toNat < 2 ^ 64 →
          Allocates s answer (count * size) 16 t ∧
            (t.result ≠ 0 → read t.heap.memory t.result.toNat (count.toNat * size.toNat) =
              List.replicate (count.toNat * size.toNat) 0))
  | .alignedAlloc alignment size =>
      (isPowerOfTwo alignment = false ∨ size % alignment ≠ 0 → Failed s t) ∧
        (isPowerOfTwo alignment = true ∧ size % alignment = 0 → Allocates s answer size alignment t)
  | .realloc pointer size =>
      (pointer = 0 → Allocates s answer size 16 t) ∧
        (pointer ≠ 0 → ∃ old ∈ s.live, old.payload = pointer ∧
          (size = 0 → Freed s t old) ∧
          (size ≠ 0 → s.heap.Refuses answer size old.alignment → Failed s t) ∧
          (size ≠ 0 → ¬s.heap.Refuses answer size old.alignment →
            ∃ new : Allocation,
              new.size = size ∧ new.alignment = old.alignment ∧ Moved s t old new))
  | .free pointer =>
      (pointer = 0 → Failed s t) ∧
        (pointer ≠ 0 → ∃ a ∈ s.live, a.payload = pointer ∧ Freed s t a)
  | .store pointer offset bytes =>
      ∃ a ∈ s.live, a.payload = pointer ∧ t.live = s.live ∧ t.heap.blocks = s.heap.blocks ∧
        t.heap.memory = write s.heap.memory (a.payload.toNat + offset) bytes

/-! ## The allocating calls -/

section Allocating

variable {s : State} {answer : Answer} {size alignment : UInt64}

theorem not_refuses {heap : Heap} (h : ¬heap.Refuses answer size alignment) :
    ∃ layout, allocationLayout size alignment = some layout ∧ heap.Fits layout answer.base := by
  by_contra hnone
  exact h fun layout hsuits hfits => hnone ⟨layout, allocationLayout_eq_some.mpr hsuits, hfits⟩

theorem allocated_null (heap : Heap) :
    s.allocated answer size alignment (0, heap) = { heap, live := s.live, result := 0 } := by
  unfold State.allocated
  cases allocationLayout size alignment with
  | none => rfl
  | some layout => rfl

theorem allocated_some {layout : Layout} (hlayout : allocationLayout size alignment = some layout)
    {payload : UInt64} (hne : payload ≠ 0) (heap : Heap) :
    s.allocated answer size alignment (payload, heap) =
      { heap, live := ⟨payload, size, alignment, ⟨answer.base, layout⟩⟩ :: s.live,
        result := payload } := by
  unfold State.allocated
  rw [hlayout]
  dsimp only
  rw [if_neg hne]

theorem failed_spec (h : Sound s.heap s.live) {heap : Heap} (hsame : s.heap.Unchanged heap)
    {t : State} (ht : t = s.allocated answer size alignment (0, heap)) :
    Sound t.heap t.live ∧ Failed s t := by
  rw [allocated_null] at ht
  subst ht
  exact ⟨h.unchanged hsame, rfl, rfl, hsame⟩

theorem unchanged_errno (heap : Heap) (errno : Int32) :
    heap.Unchanged { heap with errno } := ⟨rfl, fun _ _ _ _ => rfl⟩

/-- The state after a request that is granted. -/
theorem granted_spec (h : Sound s.heap s.live) {layout : Layout}
    (hlayout : allocationLayout size alignment = some layout)
    (hfits : s.heap.Fits layout answer.base) {a : Allocation}
    (ha : a = allocationIn size alignment ⟨answer.base, layout⟩) :
    Sound (s.heap.granted answer a) (a :: s.live) ∧
      Granted s
        { heap := s.heap.granted answer a, live := a :: s.live, result := a.payload } a := by
  have hplaced : a.Placed := ha ▸ placed_allocationIn hlayout hfits
  have hclear : ∀ block ∈ s.heap.blocks, a.block.Disjoint block := by
    rw [ha]
    exact hfits.2.2.2
  exact ⟨h.granted answer hplaced hclear, rfl, rfl, rfl, sameIn_granted answer hplaced hclear⟩

theorem allocated_spec (h : Sound s.heap s.live) {t : State}
    (ht : t = s.allocated answer size alignment
      ((allocateWithAlignment answer size alignment).run s.heap)) :
    Sound t.heap t.live ∧ Allocates s answer size alignment t := by
  by_cases hrefuses : s.heap.Refuses answer size alignment
  · obtain ⟨heap, hrun, hsame⟩ := allocateWithAlignment_refuses hrefuses
    rw [hrun] at ht
    obtain ⟨hsound, hfailed⟩ := failed_spec h hsame ht
    exact ⟨hsound, fun _ => hfailed, fun hnot => absurd hrefuses hnot⟩
  · obtain ⟨layout, hlayout, hfits⟩ := not_refuses hrefuses
    have hplaced := placed_allocationIn hlayout hfits
    rw [allocateWithAlignment_grants hlayout hfits,
      allocated_some hlayout hplaced.payload_ne_zero] at ht
    obtain ⟨hsound, hgranted⟩ := granted_spec h hlayout hfits rfl
    subst ht
    exact ⟨hsound, fun hyes => absurd hyes hrefuses, fun _ => ⟨_, rfl, rfl, hgranted⟩⟩

end Allocating

/-! ## The calls one by one -/

section Calls

variable {s t : State} {answer : Answer}

theorem find_eq_some {pointer : UInt64} {a : Allocation} (h : s.find pointer = some a) :
    a ∈ s.live ∧ a.payload = pointer := by
  unfold State.find at h
  have hpayload := List.find?_some h
  exact ⟨List.mem_of_find?_eq_some h, of_decide_eq_true hpayload⟩

theorem malloc_promised (h : Sound s.heap s.live) {size : UInt64}
    (hstep : step s (.malloc size, answer) = some t) :
    Sound t.heap t.live ∧ Promised s answer t (.malloc size) :=
  allocated_spec h (Option.some.inj hstep).symm

theorem alignedAlloc_promised (h : Sound s.heap s.live) {alignment size : UInt64}
    (hstep : step s (.alignedAlloc alignment size, answer) = some t) :
    Sound t.heap t.live ∧ Promised s answer t (.alignedAlloc alignment size) := by
  have ht := (Option.some.inj hstep).symm
  unfold alignedAlloc at ht
  by_cases hgood : isPowerOfTwo alignment = true ∧ size % alignment = 0
  · have hguard : ¬(alignment = 0 ∨ ¬isPowerOfTwo alignment = true ∨ size % alignment ≠ 0) := by
      rintro (rfl | hpower | hmod)
      · exact absurd hgood.1 (by decide)
      · exact hpower hgood.1
      · exact hmod hgood.2
    rw [if_neg hguard] at ht
    obtain ⟨hsound, hallocates⟩ := allocated_spec h ht
    refine ⟨hsound, fun hbad => ?_, fun _ => hallocates⟩
    rcases hbad with hpower | hmod
    · exact absurd hgood.1 (Bool.not_eq_true _ ▸ hpower)
    · exact absurd hgood.2 hmod
  · have hguard : alignment = 0 ∨ ¬isPowerOfTwo alignment = true ∨ size % alignment ≠ 0 :=
      .inr (Decidable.not_and_iff_or_not.mp hgood)
    rw [if_pos hguard] at ht
    obtain ⟨hsound, hfailed⟩ := failed_spec h (unchanged_errno s.heap einval) ht
    exact ⟨hsound, fun _ => hfailed, fun hyes => absurd hyes hgood⟩

/-- Zeros over a fresh payload. -/
theorem zeroed_spec (h : Sound s.heap s.live) {size alignment : UInt64} {layout : Layout}
    (hlayout : allocationLayout size alignment = some layout)
    (hfits : s.heap.Fits layout answer.base) {a : Allocation} {memory : Mem UInt8}
    (ha : a = allocationIn size alignment ⟨answer.base, layout⟩)
    (hmemory : memory = write (s.heap.granted answer a).memory a.payload.toNat
      (List.replicate size.toNat 0))
    (ht : t = { heap := { s.heap.granted answer a with memory }, live := a :: s.live,
                result := a.payload }) :
    Sound t.heap t.live ∧ Granted s t a ∧
      read t.heap.memory t.result.toNat size.toNat = List.replicate size.toNat 0 := by
  have hplaced : a.Placed := ha ▸ placed_allocationIn hlayout hfits
  have hsize : 0 + (List.replicate size.toNat (0 : UInt8)).length ≤ a.size.toNat := by
    rw [List.length_replicate, Nat.zero_add, ha]
    exact Nat.le_refl _
  have hclear : ∀ block ∈ s.heap.blocks, a.block.Disjoint block := by
    rw [ha]
    exact hfits.2.2.2
  obtain ⟨hsound, hgranted⟩ := granted_spec h hlayout hfits ha
  have hstore := hsound.store List.mem_cons_self hsize
  have hsame := sameIn_store (s.heap.granted answer a).memory hplaced hsize hclear
  rw [Nat.add_zero, ← hmemory] at hstore hsame
  have hread := read_write_same (s.heap.granted answer a).memory a.payload.toNat
    (List.replicate size.toNat 0)
  rw [← hmemory, List.length_replicate] at hread
  subst ht
  exact ⟨hstore, ⟨rfl, rfl, rfl, hgranted.memory.trans hsame⟩, hread⟩

theorem calloc_promised (h : Sound s.heap s.live) {count size : UInt64}
    (hstep : step s (.calloc count size, answer) = some t) :
    Sound t.heap t.live ∧ Promised s answer t (.calloc count size) := by
  have ht := (Option.some.inj hstep).symm
  unfold calloc at ht
  by_cases hbound : count.toNat * size.toNat < 2 ^ 64
  · have hmul : checkedMul count size = some (count * size) := if_pos hbound
    have htotal : (count * size).toNat = count.toNat * size.toNat := by
      rw [UInt64.toNat_mul, Nat.mod_eq_of_lt hbound]
    have hover : ¬2 ^ 64 ≤ count.toNat * size.toNat := Nat.not_le.mpr hbound
    rw [hmul] at ht
    dsimp only at ht
    by_cases hrefuses : s.heap.Refuses answer (count * size) 16
    · obtain ⟨heap, hrun, hsame⟩ := allocateWithAlignment_refuses hrefuses
      rw [run_bind (x := malloc answer (count * size)) hrun, if_pos rfl] at ht
      obtain ⟨hsound, hfailed⟩ := failed_spec h hsame ht
      refine ⟨hsound, fun hyes => absurd hyes hover, fun _ => ⟨⟨fun _ => hfailed, ?_⟩, ?_⟩⟩
      · exact fun hnot => absurd hrefuses hnot
      · exact fun hne => absurd hfailed.result hne
    · obtain ⟨layout, hlayout, hfits⟩ := not_refuses hrefuses
      have hplaced := placed_allocationIn hlayout hfits
      have hrun := allocateWithAlignment_grants hlayout hfits
      rw [run_bind (x := malloc answer (count * size)) hrun,
        if_neg hplaced.payload_ne_zero] at ht
      have ht := ht.trans (allocated_some hlayout hplaced.payload_ne_zero _)
      obtain ⟨hsound, hgranted, hread⟩ := zeroed_spec h hlayout hfits rfl rfl ht
      rw [htotal] at hread
      refine ⟨hsound, fun hyes => absurd hyes hover, fun _ => ⟨⟨?_, ?_⟩, fun _ => hread⟩⟩
      · exact fun hyes => absurd hyes hrefuses
      · exact fun _ => ⟨_, rfl, rfl, hgranted⟩
  · have hmul : checkedMul count size = none := if_neg hbound
    rw [hmul] at ht
    obtain ⟨hsound, hfailed⟩ := failed_spec h (unchanged_errno s.heap enomem) ht
    exact ⟨hsound, fun _ => hfailed, fun hlt => absurd hlt hbound⟩

/-- The state after the block of a live allocation has gone back. -/
theorem freed_spec (h : Sound s.heap s.live) {a : Allocation} (ha : a ∈ s.live)
    (ht : t = { heap := s.heap.freed answer a.block, live := (s.drop a.payload).live,
                result := 0 }) :
    Sound t.heap t.live ∧ Freed s t a := by
  subst ht
  exact ⟨h.freed answer ha, rfl, rfl, rfl, sameIn_scribble _ _ _⟩

theorem free_promised (h : Sound s.heap s.live) {pointer : UInt64}
    (hstep : step s (.free pointer, answer) = some t) :
    Sound t.heap t.live ∧ Promised s answer t (.free pointer) := by
  unfold step at hstep
  dsimp only at hstep
  by_cases hnull : pointer = 0
  · rw [if_pos hnull] at hstep
    have ht := (Option.some.inj hstep).symm
    unfold free at ht
    rw [if_pos hnull] at ht
    subst ht
    exact ⟨h, fun _ => ⟨rfl, rfl, .refl s.heap⟩, fun hne => absurd hnull hne⟩
  · rw [if_neg hnull, Option.map_eq_some_iff] at hstep
    obtain ⟨a, hfind, ht⟩ := hstep
    obtain ⟨ha, rfl⟩ := find_eq_some hfind
    rw [free_run (h.owned a ha)] at ht
    obtain ⟨hsound, hfreed⟩ := freed_spec h ha ht.symm
    exact ⟨hsound, fun hyes => absurd hyes hnull, fun _ => ⟨a, ha, rfl, hfreed⟩⟩

theorem store_promised (h : Sound s.heap s.live) {pointer : UInt64} {offset : Nat}
    {bytes : List UInt8} (hstep : step s (.store pointer offset bytes, answer) = some t) :
    Sound t.heap t.live ∧ Promised s answer t (.store pointer offset bytes) := by
  unfold step at hstep
  simp only [Option.bind_eq_some_iff, Option.ite_none_right_eq_some, Option.some.injEq] at hstep
  obtain ⟨a, hfind, hbound, rfl⟩ := hstep
  obtain ⟨ha, rfl⟩ := find_eq_some hfind
  exact ⟨h.store ha hbound, a, ha, rfl, rfl, rfl, rfl⟩

/-- Two payloads in blocks beside each other are different. -/
theorem payload_ne {a b : Allocation} (ha : a.Placed) (hb : b.Placed)
    (hdisjoint : a.block.Disjoint b.block) : a.payload ≠ b.payload := by
  intro heq
  have hheader := ha.header
  have hlimit := ha.payload
  have hheader' := hb.header
  have hlimit' := hb.payload
  unfold Allocation.limit at hlimit hlimit'
  rw [heq] at hheader hlimit
  rcases hdisjoint with hbelow | habove
  · omega
  · omega

theorem allocationLayout_max (size alignment : UInt64) :
    allocationLayout size (max alignment 16) = allocationLayout size alignment := by
  have hmax : max (max alignment 16) 16 = max alignment 16 := by
    rw [← UInt64.toNat_inj, toNat_max, toNat_max]
    omega
  unfold allocationLayout
  rw [hmax]

/-- The alignment in the header asks for the same as the one that the header came from. -/
theorem allocate_header_align {a : Allocation} (h : a.Placed) (size : UInt64) :
    allocateWithAlignment answer size a.header.layoutAlign =
      allocateWithAlignment answer size a.alignment := by
  have halign : a.header.layoutAlign = max a.alignment 16 :=
    (allocationLayout_eq_some.mp h.layout).2.1
  unfold allocateWithAlignment
  rw [halign, allocationLayout_max]

theorem read_sameIn {blocks : List Block} {m m' : Mem UInt8} (h : SameIn blocks m m')
    {a : Allocation} (hplaced : a.Placed) (hblock : a.block ∈ blocks) {length : Nat}
    (hlength : length ≤ a.size.toNat) :
    read m' a.payload.toNat length = read m a.payload.toNat length := by
  refine read_congr fun i hlow hhigh => h a.block hblock i (hplaced.contains ?_ ?_)
  · unfold Allocation.start
    omega
  · unfold Allocation.limit
    omega

/-- The heap after an allocation and the copy into it of what fits of an older one. -/
def Heap.copied (heap : Heap) (answer : Answer) (old new : Allocation) : Heap :=
  { heap.granted answer new with
    memory := write (heap.granted answer new).memory new.payload.toNat
      (read (heap.granted answer new).memory old.payload.toNat
        (min old.size.toNat new.size.toNat)) }

theorem copied_spec (answer : Answer) (h : Sound s.heap s.live) {old new : Allocation}
    (hold : old ∈ s.live)
    (hplaced : new.Placed) (hclear : ∀ block ∈ s.heap.blocks, new.block.Disjoint block) :
    Sound (s.heap.copied answer old new) (new :: s.live) ∧
      SameIn s.heap.blocks s.heap.memory (s.heap.copied answer old new).memory ∧
      read (s.heap.copied answer old new).memory new.payload.toNat
          (min old.size.toNat new.size.toNat) =
        read s.heap.memory old.payload.toNat (min old.size.toNat new.size.toNat) := by
  have hown := h.owned old hold
  have hgranted := sameIn_granted answer hplaced hclear
  have hbytes : 0 + (read (s.heap.granted answer new).memory old.payload.toNat
      (min old.size.toNat new.size.toNat)).length ≤ new.size.toNat := by
    rw [length_read]
    omega
  have hsound := (h.granted answer hplaced hclear).store List.mem_cons_self hbytes
  have hstored := sameIn_store (s.heap.granted answer new).memory hplaced hbytes hclear
  have hread := read_write_same (s.heap.granted answer new).memory new.payload.toNat
    (read (s.heap.granted answer new).memory old.payload.toNat (min old.size.toNat new.size.toNat))
  rw [Nat.add_zero] at hsound hstored
  rw [length_read] at hread
  have hsame := read_sameIn hgranted hown.placed hown.block (Nat.min_le_left _ new.size.toNat)
  exact ⟨hsound, hgranted.trans hstored, hread.trans hsame⟩

/-- The state after the bytes of an allocation have gone to a new one. -/
theorem moved_spec (h : Sound s.heap s.live) {old new : Allocation} (hold : old ∈ s.live)
    (hplaced : new.Placed) (hclear : ∀ block ∈ s.heap.blocks, new.block.Disjoint block)
    (ht : t = { heap := (s.heap.copied answer old new).freed answer old.block,
                live := new :: (s.drop old.payload).live, result := new.payload }) :
    Sound t.heap t.live ∧ Moved s t old new := by
  have hown := h.owned old hold
  have hdisjoint : new.block.Disjoint old.block := hclear old.block hown.block
  have hpayload : new.payload ≠ old.payload := payload_ne hplaced hown.placed hdisjoint
  have hblocks : (s.heap.copied answer old new).blocks.erase old.block =
      new.block :: s.heap.blocks.erase old.block :=
    List.erase_cons_tail (by simpa using hplaced.block_ne hdisjoint)
  have hlive : (new :: s.live).filter (fun a => a.payload ≠ old.payload) =
      new :: (s.drop old.payload).live :=
    List.filter_cons_of_pos (by simpa using hpayload)
  obtain ⟨hsound, hcopied, hread⟩ := copied_spec answer h hold hplaced hclear
  have hfreed := hsound.freed answer (List.mem_cons_of_mem new hold)
  rw [hlive] at hfreed
  have hscribbled := sameIn_scribble ((s.heap.copied answer old new).blocks.erase old.block)
    (s.heap.copied answer old new).memory answer.freed
  have hnew : new.block ∈ (s.heap.copied answer old new).blocks.erase old.block := by
    rw [hblocks]
    exact List.mem_cons_self
  have hkept : s.heap.blocks.erase old.block ⊆
      (s.heap.copied answer old new).blocks.erase old.block := by
    rw [hblocks]
    exact List.subset_cons_self ..
  subst ht
  refine ⟨hfreed, rfl, rfl, hblocks, ?_, ?_⟩
  · exact (hcopied.of_subset List.erase_subset).trans (hscribbled.of_subset hkept)
  · rw [← hread]
    exact read_sameIn hscribbled hplaced hnew (Nat.min_le_right ..)

theorem realloc_zero {old : Allocation} (h : old.Owned s.heap) :
    (realloc answer old.payload 0).run s.heap = (0, s.heap.freed answer old.block) := by
  unfold realloc
  rw [if_neg h.placed.payload_ne_zero, if_pos rfl, run_bind (free_run h)]
  rfl

theorem realloc_refuses {old : Allocation} (h : old.Owned s.heap) {size : UInt64}
    (hsize : size ≠ 0) (hrefuses : s.heap.Refuses answer size old.alignment) :
    ∃ heap, (realloc answer old.payload size).run s.heap = (0, heap) ∧ s.heap.Unchanged heap := by
  obtain ⟨heap, hrun, hsame⟩ := allocateWithAlignment_refuses hrefuses
  have hmagic : ¬old.header.magic ≠ allocationMagic := not_not_intro rfl
  refine ⟨heap, ?_, hsame⟩
  unfold realloc
  rw [if_neg h.placed.payload_ne_zero, if_neg hsize, run_bind (get_run s.heap)]
  dsimp only
  rw [h.header, if_neg hmagic, allocate_header_align h.placed, run_bind hrun, if_pos rfl]
  rfl

theorem realloc_grants (h : Sound s.heap s.live) {old : Allocation} (hold : old ∈ s.live)
    {size : UInt64} (hsize : size ≠ 0) {layout : Layout}
    (hlayout : allocationLayout size old.alignment = some layout)
    (hfits : s.heap.Fits layout answer.base) {new : Allocation}
    (hnew : new = allocationIn size old.alignment ⟨answer.base, layout⟩) :
    (realloc answer old.payload size).run s.heap =
      (new.payload, (s.heap.copied answer old new).freed answer old.block) := by
  have hown := h.owned old hold
  have hplaced := placed_allocationIn hlayout hfits
  have hrun := allocateWithAlignment_grants hlayout hfits
  have hmagic : ¬old.header.magic ≠ allocationMagic := not_not_intro rfl
  have hsound := (copied_spec answer h hold hplaced hfits.2.2.2).1
  have hlength : (min old.header.requestedSize size).toNat =
      min old.size.toNat new.size.toNat := by
    rw [toNat_min, hnew]
    rfl
  rw [← hnew] at hplaced hrun hsound
  have hstore : (store new.payload (read (s.heap.granted answer new).memory old.payload.toNat
      (min old.size.toNat new.size.toNat))).run (s.heap.granted answer new) =
        ((), s.heap.copied answer old new) := rfl
  unfold realloc
  rw [if_neg hown.placed.payload_ne_zero, if_neg hsize, run_bind (get_run s.heap)]
  dsimp only
  rw [hown.header, if_neg hmagic, allocate_header_align hown.placed, run_bind hrun,
    if_neg hplaced.payload_ne_zero, run_bind (get_run _), hlength, run_bind hstore,
    run_bind (free_run (hsound.owned old (List.mem_cons_of_mem new hold)))]
  rfl

theorem realloc_promised (h : Sound s.heap s.live) {pointer size : UInt64}
    (hstep : step s (.realloc pointer size, answer) = some t) :
    Sound t.heap t.live ∧ Promised s answer t (.realloc pointer size) := by
  unfold step at hstep
  dsimp only at hstep
  by_cases hnull : pointer = 0
  · rw [if_pos hnull] at hstep
    have ht := (Option.some.inj hstep).symm
    unfold realloc at ht
    rw [if_pos hnull] at ht
    obtain ⟨hsound, hallocates⟩ := allocated_spec h ht
    exact ⟨hsound, fun _ => hallocates, fun hne => absurd hnull hne⟩
  · rw [if_neg hnull, Option.map_eq_some_iff] at hstep
    obtain ⟨old, hfind, ht⟩ := hstep
    obtain ⟨hold, rfl⟩ := find_eq_some hfind
    have hown := h.owned old hold
    by_cases hsize : size = 0
    · rw [if_pos hsize, hsize, realloc_zero hown] at ht
      obtain ⟨hsound, hfreed⟩ := freed_spec h hold ht.symm
      refine ⟨hsound, fun hyes => absurd hyes hnull, fun _ => ⟨old, hold, rfl, ?_⟩⟩
      exact ⟨fun _ => hfreed, fun hne => absurd hsize hne, fun hne => absurd hsize hne⟩
    · rw [if_neg hsize] at ht
      by_cases hrefuses : s.heap.Refuses answer size old.alignment
      · obtain ⟨heap, hrun, hsame⟩ := realloc_refuses hown hsize hrefuses
        rw [hrun, if_pos rfl] at ht
        subst ht
        refine ⟨h.unchanged hsame, fun hyes => absurd hyes hnull, fun _ => ⟨old, hold, rfl, ?_⟩⟩
        refine ⟨fun hyes => absurd hyes hsize, fun _ _ => ⟨rfl, rfl, hsame⟩, ?_⟩
        exact fun _ hnot => absurd hrefuses hnot
      · obtain ⟨layout, hlayout, hfits⟩ := not_refuses hrefuses
        have hplaced := placed_allocationIn hlayout hfits
        rw [realloc_grants h hold hsize hlayout hfits rfl, if_neg hplaced.payload_ne_zero,
          allocated_some hlayout hplaced.payload_ne_zero] at ht
        obtain ⟨hsound, hmoved⟩ := moved_spec h hold hplaced hfits.2.2.2 ht.symm
        refine ⟨hsound, fun hyes => absurd hyes hnull, fun _ => ⟨old, hold, rfl, ?_⟩⟩
        refine ⟨fun hyes => absurd hyes hsize, fun _ hyes => absurd hyes hrefuses, ?_⟩
        exact fun _ _ => ⟨allocationIn size old.alignment ⟨answer.base, layout⟩, rfl, rfl, hmoved⟩

/-! ## Every sequence of calls -/

theorem step_promised (h : Sound s.heap s.live) {call : Call}
    (hstep : step s (call, answer) = some t) :
    Sound t.heap t.live ∧ Promised s answer t call := by
  cases call with
  | malloc size => exact malloc_promised h hstep
  | calloc count size => exact calloc_promised h hstep
  | alignedAlloc alignment size => exact alignedAlloc_promised h hstep
  | realloc pointer size => exact realloc_promised h hstep
  | free pointer => exact free_promised h hstep
  | store pointer offset bytes => exact store_promised h hstep

end Calls

/-- The header and the payload of one allocation end before those of the other. -/
def Allocation.Apart (a b : Allocation) : Prop := a.limit ≤ b.start ∨ b.limit ≤ a.start

theorem apart_of_disjoint {a b : Allocation} (ha : a.Placed) (hb : b.Placed)
    (hdisjoint : a.block.Disjoint b.block) : a.Apart b := by
  have hheader := ha.header
  have hlimit := ha.payload
  have hheader' := hb.header
  have hlimit' := hb.payload
  unfold Allocation.Apart Allocation.start
  rcases hdisjoint with hbelow | habove
  · left
    omega
  · right
    omega

/-- The live allocations are where they should be, and every next call keeps its promise. -/
def Correct (s : State) : Prop :=
  (∀ a ∈ s.live, a.Owned s.heap) ∧ s.live.Pairwise Allocation.Apart ∧
    ∀ call answer t, step s (call, answer) = some t → Promised s answer t call

theorem correct_of_sound {s : State} (h : Sound s.heap s.live) : Correct s := by
  refine ⟨h.owned, ?_, fun call answer t hstep => (step_promised h hstep).2⟩
  refine h.apart.imp_of_mem fun {a b} ha hb hdisjoint => ?_
  exact apart_of_disjoint (h.owned a ha).placed (h.owned b hb).placed hdisjoint

theorem allocator_contract (heap : Heap) (calls : List (Call × Answer)) :
    Always step Correct { heap } calls := by
  refine Always.of_invariant (I := fun s => Sound s.heap s.live) ?_ (fun _ => correct_of_sound)
    ⟨by simp, List.Pairwise.nil⟩ calls
  intro s label t hsound hstep
  exact (step_promised hsound hstep).1

end MoonlightScarlet.Sys.Allocator
