import MoonlightScarlet.Sys.VideoFrame
import Mathlib.Data.List.Basic
/-!
# The copy of an access unit

`copyEntry` goes on exactly when its buffer is filled and fits into what is left,
and every buffer that it copies lies right behind the ones before it.  The loop is
an induction over the chain with the offset as the invariant.
-/

namespace MoonlightScarlet.Sys

open Support.Memory

/-! ## What a decode unit says -/

/-- A buffer that can be copied. -/
def LEntry.Filled (entry : LEntry) : Prop := entry.data.isSome ∧ 0 < entry.length.toInt

instance (entry : LEntry) : Decidable entry.Filled := inferInstanceAs (Decidable (_ ∧ _))

def LEntry.size (entry : LEntry) : Nat := entry.length.toInt.toNat

def LEntry.bytes (entry : LEntry) : List UInt8 :=
  match entry.data with
  | none => []
  | some data => read data 0 entry.size

/-- The buffers of a chain one after the other. -/
def chainBytes (entries : List LEntry) : List UInt8 := entries.flatMap LEntry.bytes

def chainSize : List LEntry → Nat
  | [] => 0
  | entry :: entries => entry.size + chainSize entries

/-- The buffers of the unit are what its length announces. -/
structure DecodeUnit.Intact (unit : DecodeUnit) : Prop where
  positive : 0 < unit.fullLength.toInt
  filled : ∀ entry ∈ unit.bufferList, entry.Filled
  total : chainSize unit.bufferList = unit.fullLength.toInt.toNat

theorem length_bytes {entry : LEntry} (h : entry.Filled) : entry.bytes.length = entry.size := by
  obtain ⟨data, hdata⟩ := Option.isSome_iff_exists.mp h.1
  simp [LEntry.bytes, hdata]

theorem length_chainBytes {entries : List LEntry} (h : ∀ entry ∈ entries, entry.Filled) :
    (chainBytes entries).length = chainSize entries := by
  induction entries with
  | nil => rfl
  | cons entry entries ih =>
      have hentry := length_bytes (h entry (List.mem_cons_self ..))
      have hrest := ih fun other hother => h other (List.mem_cons_of_mem _ hother)
      rw [chainBytes, List.flatMap_cons, List.length_append, hentry]
      rw [chainBytes] at hrest
      rw [hrest, chainSize]

/-! ## The loop -/

/-- The copy after one more buffer. -/
def Copy.append (copy : Copy) (entry : LEntry) : Copy where
  offset := copy.offset + sizeOfInt entry.length
  destination := write copy.destination copy.offset.toNat entry.bytes

theorem toNat_sizeOfInt_length {entry : LEntry} (h : entry.Filled) :
    (sizeOfInt entry.length).toNat = entry.size := toNat_sizeOfInt (Int.le_of_lt h.2)

theorem offset_append {copy : Copy} {entry : LEntry} {expected : UInt64} (h : entry.Filled)
    (hfits : copy.offset.toNat + entry.size ≤ expected.toNat) :
    (copy.append entry).offset.toNat = copy.offset.toNat + entry.size := by
  have hlt := expected.toNat_lt
  rw [Copy.append, UInt64.toNat_add, toNat_sizeOfInt_length h, Nat.mod_eq_of_lt (by omega)]

/-- Because the offset is within the expected length, `expected - offset` is the room
that is left. -/
theorem copyEntry_eq {expected : UInt64} {copy : Copy} (hwithin : copy.offset ≤ expected)
    (entry : LEntry) :
    copyEntry expected copy entry =
      if entry.Filled ∧ copy.offset.toNat + entry.size ≤ expected.toNat then
        .ok (copy.append entry)
      else .error copy := by
  unfold copyEntry
  cases hdata : entry.data with
  | none =>
      have hnot : ¬entry.Filled := fun h => by simp [LEntry.Filled, hdata] at h
      rw [if_neg fun h => hnot h.1]
  | some data =>
      dsimp only
      by_cases hpos : entry.length ≤ 0
      · rw [if_pos hpos, if_neg]
        rintro ⟨⟨-, hlength⟩, -⟩
        rw [Int32.le_iff_toInt_le] at hpos
        exact absurd hlength (Int.not_lt.mpr hpos)
      · have hfilled : entry.Filled := by
          refine ⟨by rw [hdata]; rfl, ?_⟩
          rw [Int32.le_iff_toInt_le, Int.not_le] at hpos
          exact hpos
        have hroom : (sizeOfInt entry.length > expected - copy.offset) ↔
            ¬copy.offset.toNat + entry.size ≤ expected.toNat := by
          have hle := UInt64.le_iff_toNat_le.mp hwithin
          rw [gt_iff_lt, UInt64.lt_iff_toNat_lt, UInt64.toNat_sub_of_le _ _ hwithin,
            toNat_sizeOfInt_length hfilled]
          omega
        have hbytes : read data 0 (sizeOfInt entry.length).toNat = entry.bytes := by
          rw [LEntry.bytes, hdata, toNat_sizeOfInt_length hfilled]
        rw [if_neg hpos, hbytes]
        by_cases hfits : copy.offset.toNat + entry.size ≤ expected.toNat
        · rw [if_neg (hroom.not.mpr (not_not.mpr hfits)), if_pos ⟨hfilled, hfits⟩]
          rfl
        · rw [if_pos (hroom.mpr hfits), if_neg fun h => hfits h.2]

/-- A chain that can be copied behind `offset`. -/
def Fits (expected offset : Nat) (entries : List LEntry) : Prop :=
  (∀ entry ∈ entries, entry.Filled) ∧ offset + chainSize entries ≤ expected

theorem fits_cons {expected offset : Nat} {entry : LEntry} {entries : List LEntry} :
    Fits expected offset (entry :: entries) ↔
      (entry.Filled ∧ offset + entry.size ≤ expected) ∧
        Fits expected (offset + entry.size) entries := by
  simp only [Fits, chainSize, List.forall_mem_cons]
  constructor
  · rintro ⟨⟨hentry, hrest⟩, hsize⟩
    exact ⟨⟨hentry, by omega⟩, hrest, by omega⟩
  · rintro ⟨⟨hentry, -⟩, hrest, hsize⟩
    exact ⟨⟨hentry, hrest⟩, by omega⟩

theorem within_append {expected : UInt64} {copy : Copy} {entry : LEntry} (h : entry.Filled)
    (hfits : copy.offset.toNat + entry.size ≤ expected.toNat) :
    (copy.append entry).offset ≤ expected := by
  rw [UInt64.le_iff_toNat_le, offset_append h hfits]
  exact hfits

theorem copyEntries_cons (expected : UInt64) (copy : Copy) (entry : LEntry)
    (entries : List LEntry) :
    copyEntries expected copy (entry :: entries) =
      copyEntry expected copy entry >>= fun copy => copyEntries expected copy entries := rfl

/-- A chain that fits is copied in order behind the offset. -/
theorem copyEntries_of_fits {expected : UInt64} {copy : Copy} {entries : List LEntry}
    (hwithin : copy.offset ≤ expected) (h : Fits expected.toNat copy.offset.toNat entries) :
    ∃ last, copyEntries expected copy entries = .ok last ∧
      last.offset.toNat = copy.offset.toNat + chainSize entries ∧
      last.destination = write copy.destination copy.offset.toNat (chainBytes entries) := by
  induction entries generalizing copy with
  | nil => exact ⟨copy, rfl, rfl, (write_nil ..).symm⟩
  | cons entry entries ih =>
      obtain ⟨⟨hentry, hfits⟩, hrest⟩ := fits_cons.mp h
      have hoffset := offset_append hentry hfits
      obtain ⟨last, hlast, hend, hdestination⟩ :=
        ih (within_append hentry hfits) (hoffset ▸ hrest)
      refine ⟨last, ?_, ?_, ?_⟩
      · rw [copyEntries_cons, copyEntry_eq hwithin, if_pos ⟨hentry, hfits⟩]
        exact hlast
      · rw [hend, hoffset, chainSize, Nat.add_assoc]
      · rw [hdestination, hoffset, Copy.append, ← length_bytes hentry, write_append]
        rfl

/-- Any other chain ends the loop early, with nothing written outside the expected
length. -/
theorem copyEntries_of_not_fits {expected : UInt64} {copy : Copy} {entries : List LEntry}
    (hwithin : copy.offset ≤ expected) (h : ¬Fits expected.toNat copy.offset.toNat entries) :
    ∃ last cells, copyEntries expected copy entries = .error last ∧
      last.destination = write copy.destination copy.offset.toNat cells ∧
      copy.offset.toNat + cells.length ≤ expected.toNat := by
  have hle := UInt64.le_iff_toNat_le.mp hwithin
  induction entries generalizing copy with
  | nil => exact absurd ⟨nofun, by simpa [chainSize] using hle⟩ h
  | cons entry entries ih =>
      rw [copyEntries_cons, copyEntry_eq hwithin]
      by_cases hentry : entry.Filled ∧ copy.offset.toNat + entry.size ≤ expected.toNat
      · have hoffset := offset_append hentry.1 hentry.2
        have hnext := within_append hentry.1 hentry.2
        have hrest : ¬Fits expected.toNat (copy.append entry).offset.toNat entries := by
          rw [hoffset]
          exact fun hrest => h (fits_cons.mpr ⟨hentry, hrest⟩)
        obtain ⟨last, cells, hlast, hdestination, hcells⟩ :=
          ih hnext hrest (UInt64.le_iff_toNat_le.mp hnext)
        refine ⟨last, entry.bytes ++ cells, ?_, ?_, ?_⟩
        · rw [if_pos hentry]
          exact hlast
        · rw [hdestination, hoffset, Copy.append, ← length_bytes hentry.1, write_append]
        · rw [List.length_append, length_bytes hentry.1]
          omega
      · rw [if_neg hentry]
        exact ⟨copy, [], rfl, (write_nil ..).symm, by simpa using hle⟩

/-- In every iteration that is reached, the room that is left does not underflow. -/
theorem copyEntries_within {expected : UInt64} {copy last : Copy} {entries : List LEntry}
    (hwithin : copy.offset ≤ expected) (h : copyEntries expected copy entries = .ok last) :
    last.offset ≤ expected := by
  by_cases hfits : Fits expected.toNat copy.offset.toNat entries
  · obtain ⟨last', hlast, hoffset, -⟩ := copyEntries_of_fits hwithin hfits
    obtain rfl : last' = last := Except.ok.inj (hlast.symm.trans h)
    rw [UInt64.le_iff_toNat_le, hoffset]
    exact hfits.2
  · obtain ⟨last', cells, hlast, -⟩ := copyEntries_of_not_fits hwithin hfits
    rw [hlast] at h
    cases h

/-! ## The function -/

/-- A unit that `mls_copy_video_frame` copies into a destination of this length. -/
def DecodeUnit.Copyable (unit : DecodeUnit) (destinationLength : UInt64) : Prop :=
  unit.Intact ∧ unit.fullLength.toInt ≤ destinationLength.toNat

section CopyVideoFrame

variable {unit : DecodeUnit} {memory : Mem UInt8} {destinationLength : UInt64}

theorem copyVideoFrame_of_copyable (h : unit.Copyable destinationLength) :
    copyVideoFrame (some unit) (some memory) destinationLength =
      (unit.fullLength, some (write memory 0 (chainBytes unit.bufferList))) := by
  obtain ⟨⟨hpositive, hfilled, htotal⟩, hroom⟩ := h
  have hexpected := toNat_sizeOfInt (Int.le_of_lt hpositive)
  have hfits : Fits (sizeOfInt unit.fullLength).toNat 0 unit.bufferList :=
    ⟨hfilled, by rw [hexpected, htotal]; omega⟩
  obtain ⟨last, hlast, hoffset, hdestination⟩ :=
    @copyEntries_of_fits _ ⟨0, memory⟩ _ UInt64.zero_le hfits
  have hnot : ¬unit.fullLength ≤ 0 := by
    rw [Int32.le_iff_toInt_le]
    exact Int.not_le.mpr hpositive
  have hlong : ¬destinationLength < sizeOfInt unit.fullLength := by
    rw [UInt64.lt_iff_toNat_lt, hexpected]
    omega
  have hend : last.offset = sizeOfInt unit.fullLength := by
    rw [← UInt64.toNat_inj, hoffset, hexpected, htotal]
    exact Nat.zero_add _
  simp only [copyVideoFrame, if_neg hnot, if_neg hlong, hlast, if_pos hend, hdestination]
  rfl

theorem copyVideoFrame_of_not_copyable (h : ¬unit.Copyable destinationLength) :
    ∃ cells, copyVideoFrame (some unit) (some memory) destinationLength =
        (-1, some (write memory 0 cells)) ∧
      cells.length ≤ min destinationLength.toNat unit.fullLength.toInt.toNat := by
  rw [copyVideoFrame]
  split_ifs with hnot hlong
  · exact ⟨[], by rw [write_nil], Nat.zero_le _⟩
  · exact ⟨[], by rw [write_nil], Nat.zero_le _⟩
  · rw [Int32.le_iff_toInt_le, Int.not_le] at hnot
    have hpositive : 0 < unit.fullLength.toInt := hnot
    have hexpected := toNat_sizeOfInt (Int.le_of_lt hpositive)
    rw [UInt64.lt_iff_toNat_lt, hexpected] at hlong
    by_cases hfits : Fits (sizeOfInt unit.fullLength).toNat 0 unit.bufferList
    · obtain ⟨last, hlast, hoffset, hdestination⟩ :=
        @copyEntries_of_fits _ ⟨0, memory⟩ _ UInt64.zero_le hfits
      have hshort : last.offset ≠ sizeOfInt unit.fullLength := by
        intro hend
        refine h ⟨⟨hpositive, hfits.1, ?_⟩, by omega⟩
        rw [← hexpected, ← hend, hoffset]
        exact (Nat.zero_add _).symm
      refine ⟨chainBytes unit.bufferList, ?_, ?_⟩
      · simp only [hlast, if_neg hshort, hdestination]
        rfl
      · have := hfits.2
        rw [length_chainBytes hfits.1]
        omega
    · obtain ⟨last, cells, hlast, hdestination, hcells⟩ :=
        @copyEntries_of_not_fits _ ⟨0, memory⟩ _ UInt64.zero_le hfits
      have hcells : 0 + cells.length ≤ (sizeOfInt unit.fullLength).toNat := hcells
      refine ⟨cells, ?_, by omega⟩
      simp only [hlast, hdestination]
      rfl

end CopyVideoFrame

theorem copyAccessUnit_of_intact {frame : VideoFrame} (h : frame.decodeUnit.Intact) :
    frame.copyAccessUnit = .ok (chainBytes frame.decodeUnit.bufferList) := by
  have hnonneg := Int.le_of_lt h.positive
  have hlength : frame.fullLength.toNat = frame.decodeUnit.fullLength.toInt.toNat := by
    rw [frame.hlength, toNat_sizeOfInt hnonneg]
  have hcopyable : frame.decodeUnit.Copyable frame.fullLength := ⟨h, by omega⟩
  have hsize : (chainBytes frame.decodeUnit.bufferList).length = frame.fullLength.toNat := by
    rw [length_chainBytes h.filled, h.total, hlength]
  have hcopied : usizeTryFrom frame.decodeUnit.fullLength = some frame.fullLength :=
    usizeTryFrom_eq_some.mpr ⟨hnonneg, frame.hlength⟩
  simp only [VideoFrame.copyAccessUnit, copyVideoFrame_of_copyable hcopyable, hcopied, if_true,
    ← hsize, read_write_same]

theorem copyAccessUnit_of_not_intact {frame : VideoFrame} (h : ¬frame.decodeUnit.Intact) :
    frame.copyAccessUnit =
      .error ⟨"buffer chain did not match the advertised access-unit length"⟩ := by
  obtain ⟨cells, hcopy, -⟩ := @copyVideoFrame_of_not_copyable frame.decodeUnit (fun _ => 0)
    frame.fullLength fun hcopyable => h hcopyable.1
  have hcopied : usizeTryFrom (-1) = none := by decide
  simp only [VideoFrame.copyAccessUnit, hcopy, hcopied]

/-- `copy_access_unit` returns the bytes of exactly the intact units. -/
theorem copies_iff_intact {frame : VideoFrame} {bytes : List UInt8} :
    frame.copyAccessUnit = .ok bytes ↔
      frame.decodeUnit.Intact ∧ bytes = chainBytes frame.decodeUnit.bufferList := by
  by_cases h : frame.decodeUnit.Intact
  · rw [copyAccessUnit_of_intact h, Except.ok.injEq]
    exact ⟨fun hbytes => ⟨h, hbytes.symm⟩, fun hbytes => hbytes.2.symm⟩
  · rw [copyAccessUnit_of_not_intact h]
    exact ⟨fun hbytes => (by cases hbytes), fun hbytes => absurd hbytes.1 h⟩

/-- `mls_copy_video_frame` writes nothing behind the shorter of the two lengths, never
computes a negative room, and copies exactly the intact units that fit; and
`copy_access_unit` returns the bytes of exactly the intact units. -/
theorem copies_exactly_intact_units :
    (∀ (unit : DecodeUnit) (memory : Mem UInt8) (destinationLength : UInt64),
      ∃ result after,
        copyVideoFrame (some unit) (some memory) destinationLength = (result, some after) ∧
        (∀ i, min destinationLength.toNat unit.fullLength.toInt.toNat ≤ i →
          after i = memory i) ∧
        (∀ reached rest copy, unit.bufferList = reached ++ rest →
          copyEntries (sizeOfInt unit.fullLength) ⟨0, memory⟩ reached = .ok copy →
          copy.offset ≤ sizeOfInt unit.fullLength) ∧
        (unit.Copyable destinationLength → result = unit.fullLength ∧
          read after 0 unit.fullLength.toInt.toNat = chainBytes unit.bufferList) ∧
        (¬unit.Copyable destinationLength → result = -1)) ∧
    ∀ frame : VideoFrame, ∀ bytes, frame.copyAccessUnit = .ok bytes ↔
      frame.decodeUnit.Intact ∧ bytes = chainBytes frame.decodeUnit.bufferList := by
  refine ⟨fun unit memory destinationLength => ?_, fun frame bytes => copies_iff_intact⟩
  by_cases h : unit.Copyable destinationLength
  · have hsize : (chainBytes unit.bufferList).length = unit.fullLength.toInt.toNat := by
      rw [length_chainBytes h.1.filled, h.1.total]
    have hroom := h.2
    refine ⟨_, _, copyVideoFrame_of_copyable h, fun i hi => write_outside (by omega),
      fun _ _ _ _ hcopy => copyEntries_within UInt64.zero_le hcopy,
      fun _ => ⟨rfl, ?_⟩, fun hnot => absurd h hnot⟩
    rw [← hsize, read_write_same]
  · obtain ⟨cells, hcopy, hcells⟩ := copyVideoFrame_of_not_copyable h
    exact ⟨_, _, hcopy, fun i hi => write_outside (by omega),
      fun _ _ _ _ hcopy => copyEntries_within UInt64.zero_le hcopy,
      fun hcopyable => absurd hcopyable h, fun _ => rfl⟩

end MoonlightScarlet.Sys
