import MoonlightScarlet.Support.Fallible
import MoonlightScarlet.Sys.AudioSetup
/-!
# What the checked audio parameters promise

`from_raw` checks each count against its own range and the coupled streams against the
streams.  It does not compare the mapping with the decoded channels, which a valid
multistream layout needs.
-/

namespace MoonlightScarlet.Sys

open Support.Memory Support.Fallible

namespace AudioSetup

theorem toNat_toUInt32 {value : Int32} (h : 0 ≤ value.toInt) :
    value.toUInt32.toNat = value.toInt.toNat := by
  have hle : 0 ≤ value := Int32.le_iff_toInt_le.mpr h
  rw [Int32.toNat_toUInt32_of_le hle]
  rfl

theorem toNat_toUInt8 {value : Int32} (h : 0 ≤ value.toInt) (hbyte : value.toInt ≤ 255) :
    value.toUInt32.toUInt8.toNat = value.toInt.toNat := by
  rw [UInt32.toNat_toUInt8, toNat_toUInt32 h]
  omega

theorem toInt32_of_toNat {count : UInt32} {value : Int32}
    (h : (count.toNat : Int) = value.toInt) : count.toInt32 = value := by
  have hnat : value.toUInt32.toNat = value.toInt.toNat := toNat_toUInt32 (by omega)
  have hcount : count = value.toUInt32 := by
    apply UInt32.toNat_inj.mp
    omega
  rw [hcount, Int32.toInt32_toUInt32]

theorem okOr_eq_ok {α : Type} {error : String} {given : Option α} {value : α} :
    okOr error given = .ok value ↔ given = some value := by
  cases given with
  | none => exact ⟨nofun, nofun⟩
  | some found => rw [okOr, Except.ok.injEq, Option.some.injEq]

theorem u32TryFrom_eq_some {value : Int32} {converted : UInt32} :
    u32TryFrom value = some converted ↔ 0 ≤ value.toInt ∧ converted = value.toUInt32 := by
  rw [u32TryFrom, Option.ite_none_left_eq_some, Int32.lt_iff_toInt_lt, Int.not_lt,
    Option.some.injEq, @eq_comm _ converted]
  rfl

theorem u8TryFrom_eq_some {value : Int32} {converted : UInt8} :
    u8TryFrom value = some converted ↔
      (0 ≤ value.toInt ∧ value.toInt ≤ 255) ∧ converted = value.toUInt32.toUInt8 := by
  have hzero : (0 : Int32).toInt = 0 := rfl
  have hlast : (255 : Int32).toInt = 255 := rfl
  rw [u8TryFrom, Option.ite_none_left_eq_some, Int32.lt_iff_toInt_lt, Int32.lt_iff_toInt_lt,
    hzero, hlast, not_or, Int.not_lt, Int.not_lt, Option.some.injEq, @eq_comm _ converted]

/-- A check on a converted number is a check on the image of the number. -/
theorem filter_eq_some {α : Type} {converted : Option α} {p : α → Bool} {P : Prop}
    {image value : α} (h : ∀ value, converted = some value ↔ P ∧ value = image) :
    converted.filter p = some value ↔ (P ∧ p image = true) ∧ value = image := by
  rw [Option.filter_eq_some_iff, h]
  constructor
  · rintro ⟨⟨hrange, rfl⟩, hcheck⟩
    exact ⟨⟨hrange, hcheck⟩, rfl⟩
  · rintro ⟨⟨hrange, hcheck⟩, rfl⟩
    exact ⟨⟨hrange, rfl⟩, hcheck⟩

theorem positive_eq_some {value : Int32} {count : UInt32} :
    (u32TryFrom value).filter (fun count => count != 0) = some count ↔
      0 < value.toInt ∧ count = value.toUInt32 := by
  rw [filter_eq_some fun _ => u32TryFrom_eq_some, bne_iff_ne, ne_eq, ← UInt32.toNat_inj]
  apply and_congr_left
  intro _
  constructor
  · rintro ⟨hle, hne⟩
    rw [toNat_toUInt32 hle, UInt32.toNat_zero] at hne
    omega
  · intro hlt
    have hle : 0 ≤ value.toInt := Int.le_of_lt hlt
    rw [toNat_toUInt32 hle, UInt32.toNat_zero]
    omega

theorem channelCount_eq_some {value : Int32} {count : UInt64} :
    (usizeTryFrom value).filter
        (fun count => 1 ≤ count.toNat && count.toNat ≤ maxAudioChannels) = some count ↔
      (1 ≤ value.toInt ∧ value.toInt ≤ 8) ∧ count = sizeOfInt value := by
  rw [filter_eq_some fun _ => usizeTryFrom_eq_some, Bool.and_eq_true, decide_eq_true_iff,
    decide_eq_true_iff, maxAudioChannels]
  apply and_congr_left
  intro _
  constructor
  · rintro ⟨hle, hrange⟩
    rw [toNat_sizeOfInt hle] at hrange
    omega
  · intro hrange
    have hle : 0 ≤ value.toInt := by omega
    rw [toNat_sizeOfInt hle]
    omega

theorem streams_eq_some {value : Int32} {count : UInt8} :
    (u8TryFrom value).filter (fun count => count != 0) = some count ↔
      (1 ≤ value.toInt ∧ value.toInt ≤ 255) ∧ count = value.toUInt32.toUInt8 := by
  rw [filter_eq_some fun _ => u8TryFrom_eq_some, bne_iff_ne, ne_eq, ← UInt8.toNat_inj]
  apply and_congr_left
  intro _
  constructor
  · rintro ⟨⟨hle, hlast⟩, hne⟩
    rw [toNat_toUInt8 hle hlast, UInt8.toNat_zero] at hne
    omega
  · rintro ⟨hone, hlast⟩
    have hle : 0 ≤ value.toInt := by omega
    rw [toNat_toUInt8 hle hlast, UInt8.toNat_zero]
    omega

theorem coupledStreams_eq_some {streams value : Int32} {count : UInt8}
    (hstreams : 0 ≤ streams.toInt) (hlast : streams.toInt ≤ 255) :
    (u8TryFrom value).filter (fun count => count ≤ streams.toUInt32.toUInt8) = some count ↔
      (0 ≤ value.toInt ∧ value.toInt ≤ streams.toInt) ∧ count = value.toUInt32.toUInt8 := by
  rw [filter_eq_some fun _ => u8TryFrom_eq_some, decide_eq_true_iff, UInt8.le_iff_toNat_le,
    toNat_toUInt8 hstreams hlast]
  apply and_congr_left
  intro _
  constructor
  · rintro ⟨⟨hle, hbyte⟩, hcoupled⟩
    rw [toNat_toUInt8 hle hbyte] at hcoupled
    omega
  · rintro ⟨hle, hcoupled⟩
    have hbyte : value.toInt ≤ 255 := by omega
    rw [toNat_toUInt8 hle hbyte]
    omega

section Raw

variable (configuration sampleRate channelCount streams coupledStreams samplesPerFrame : Int32)

/-- What the five checks of the counts ask for. -/
structure InRange : Prop where
  channels : 1 ≤ channelCount.toInt ∧ channelCount.toInt ≤ 8
  rate : 0 < sampleRate.toInt
  decoded : 1 ≤ streams.toInt ∧ streams.toInt ≤ 255
  coupled : 0 ≤ coupledStreams.toInt ∧ coupledStreams.toInt ≤ streams.toInt
  frame : 0 < samplesPerFrame.toInt

/-- The entries of the mapping address the decoded channels, or say that a channel is
silent. -/
def MappingFits (bytes : Mem UInt8) : Prop :=
  streams.toInt + coupledStreams.toInt ≤ 255 ∧
    ∀ i : Nat, i < channelCount.toInt →
      bytes i = 255 ∨ (bytes i).toNat < streams.toInt + coupledStreams.toInt

/-- The setup that `from_raw` builds. -/
def carried (bytes : Mem UInt8) : AudioSetup where
  configuration := configuration
  sampleRate := sampleRate.toUInt32
  channelCount := (sizeOfInt channelCount).toUInt8
  streams := streams.toUInt32.toUInt8
  coupledStreams := coupledStreams.toUInt32.toUInt8
  samplesPerFrame := samplesPerFrame.toUInt32
  mapping := Vector.ofFn fun i =>
    if i.toNat < (sizeOfInt channelCount).toNat then bytes i.toNat else 0

variable {configuration sampleRate channelCount streams coupledStreams samplesPerFrame}

theorem fromRaw_eq_ok {mapping : Option (Mem UInt8)} {setup : AudioSetup} :
    fromRaw configuration sampleRate channelCount streams coupledStreams samplesPerFrame
        mapping = .ok setup ↔
      InRange sampleRate channelCount streams coupledStreams samplesPerFrame ∧
        ∃ bytes, mapping = some bytes ∧ setup = carried configuration sampleRate channelCount
          streams coupledStreams samplesPerFrame bytes := by
  unfold fromRaw
  simp only [bind_eq_ok, okOr_eq_ok, channelCount_eq_some, positive_eq_some, streams_eq_some]
  constructor
  · rintro ⟨_, ⟨hchannels, rfl⟩, _, ⟨hrate, rfl⟩, _, ⟨hstreams, rfl⟩, _, hcoupled, _,
      ⟨hframe, rfl⟩, bytes, hbytes, hsetup⟩
    rw [coupledStreams_eq_some (by omega) hstreams.2] at hcoupled
    obtain ⟨hcoupled, rfl⟩ := hcoupled
    exact ⟨⟨hchannels, hrate, hstreams, hcoupled, hframe⟩, bytes, hbytes,
      (Except.ok.inj hsetup).symm⟩
  · rintro ⟨⟨hchannels, hrate, hstreams, hcoupled, hframe⟩, bytes, hbytes, rfl⟩
    exact ⟨_, ⟨hchannels, rfl⟩, _, ⟨hrate, rfl⟩, _, ⟨hstreams, rfl⟩, _,
      (coupledStreams_eq_some (by omega) hstreams.2).mpr ⟨hcoupled, rfl⟩, _, ⟨hframe, rfl⟩,
      bytes, hbytes, rfl⟩

/-- A multistream layout that libopus accepts, with the counts of the stream. -/
structure ValidLayout (setup : AudioSetup) : Prop where
  channels : 1 ≤ setup.channelCount.toNat ∧ setup.channelCount.toNat ≤ 8
  rate : 0 < setup.sampleRate.toNat
  frame : 0 < setup.samplesPerFrame.toNat
  decoded : 1 ≤ setup.streams.toNat
  coupled : setup.coupledStreams.toNat ≤ setup.streams.toNat
  addressable : setup.streams.toNat + setup.coupledStreams.toNat ≤ 255
  entries : ∀ entry ∈ setup.mappingEntries,
    entry = 255 ∨ entry.toNat < setup.streams.toNat + setup.coupledStreams.toNat

variable (configuration sampleRate channelCount streams coupledStreams samplesPerFrame)

/-- The setup holds the numbers and the entries that were given. -/
structure Carries (mapping : Option (Mem UInt8)) (setup : AudioSetup) : Prop where
  configuration : setup.configuration = configuration
  rate : (setup.sampleRate.toNat : Int) = sampleRate.toInt
  channels : (setup.channelCount.toNat : Int) = channelCount.toInt
  decoded : (setup.streams.toNat : Int) = streams.toInt
  coupled : (setup.coupledStreams.toNat : Int) = coupledStreams.toInt
  frame : (setup.samplesPerFrame.toNat : Int) = samplesPerFrame.toInt
  entries : ∃ bytes, mapping = some bytes ∧
    setup.mappingEntries = read bytes 0 channelCount.toInt.toNat

variable {configuration sampleRate channelCount streams coupledStreams samplesPerFrame}

/-- The slice of the copied array is what was copied. -/
theorem take_copied (bytes : Mem UInt8) {count : Nat} (h : count ≤ maxAudioChannels) :
    (Vector.ofFn fun i : Fin maxAudioChannels =>
      if i.toNat < count then bytes i.toNat else 0).toList.take count = read bytes 0 count := by
  apply List.ext_getElem
  · rw [List.length_take, Vector.length_toList, length_read, Nat.min_eq_left h]
  · intro i htake hread
    have hi : i < count := by rwa [length_read] at hread
    rw [List.getElem_take, Vector.getElem_toList, Vector.getElem_ofFn]
    simp only [Support.Memory.read, List.getElem_map, List.getElem_range, Nat.zero_add]
    exact if_pos hi

theorem carried_channelCount (h : 1 ≤ channelCount.toInt ∧ channelCount.toInt ≤ 8)
    (bytes : Mem UInt8) :
    (carried configuration sampleRate channelCount streams coupledStreams samplesPerFrame
      bytes).channelCount.toNat = channelCount.toInt.toNat := by
  rw [carried, UInt64.toNat_toUInt8, toNat_sizeOfInt (by omega)]
  omega

theorem carried_mappingEntries (h : 1 ≤ channelCount.toInt ∧ channelCount.toInt ≤ 8)
    (bytes : Mem UInt8) :
    (carried configuration sampleRate channelCount streams coupledStreams samplesPerFrame
      bytes).mappingEntries = read bytes 0 channelCount.toInt.toNat := by
  have hcount : (sizeOfInt channelCount).toNat = channelCount.toInt.toNat :=
    toNat_sizeOfInt (by omega)
  rw [mappingEntries, carried_channelCount h, ← hcount]
  apply take_copied
  rw [hcount, maxAudioChannels]
  omega

theorem carried_carries
    (h : InRange sampleRate channelCount streams coupledStreams samplesPerFrame)
    (bytes : Mem UInt8) :
    Carries configuration sampleRate channelCount streams coupledStreams samplesPerFrame
      (some bytes) (carried configuration sampleRate channelCount streams coupledStreams
        samplesPerFrame bytes) := by
  obtain ⟨hchannels, hrate, hdecoded, hcoupled, hframe⟩ := h
  constructor
  case configuration => rfl
  case rate =>
    rw [carried, toNat_toUInt32 (Int.le_of_lt hrate)]
    omega
  case channels =>
    rw [carried_channelCount hchannels]
    omega
  case decoded =>
    rw [carried, toNat_toUInt8 (by omega) hdecoded.2]
    omega
  case coupled =>
    rw [carried, toNat_toUInt8 hcoupled.1 (by omega)]
    omega
  case frame =>
    rw [carried, toNat_toUInt32 (Int.le_of_lt hframe)]
    omega
  case entries => exact ⟨bytes, rfl, carried_mappingEntries hchannels bytes⟩

/-- Of a valid layout, the checks leave the mapping open. -/
theorem Carries.valid_iff {bytes : Mem UInt8} {setup : AudioSetup}
    (hcarries : Carries configuration sampleRate channelCount streams coupledStreams
      samplesPerFrame (some bytes) setup)
    (h : InRange sampleRate channelCount streams coupledStreams samplesPerFrame) :
    ValidLayout setup ↔ MappingFits channelCount streams coupledStreams bytes := by
  obtain ⟨-, hrate, hchannels, hdecoded, hcoupled, hframe, _, ⟨⟩, hentries⟩ := hcarries
  constructor
  · intro hvalid
    have haddressable := hvalid.addressable
    refine ⟨by omega, fun i hi => ?_⟩
    have hmem : bytes i ∈ setup.mappingEntries := by
      rw [hentries, Support.Memory.read, List.mem_map]
      refine ⟨i, List.mem_range.mpr ?_, congrArg bytes (Nat.zero_add i)⟩
      omega
    apply (hvalid.entries (bytes i) hmem).imp_right
    intro hlt
    omega
  · rintro ⟨hsum, hfits⟩
    obtain ⟨hrange, hpositive, hone, hle, hsamples⟩ := h
    refine ⟨by omega, by omega, by omega, by omega, by omega, by omega, fun entry hmem => ?_⟩
    rw [hentries, Support.Memory.read, List.mem_map] at hmem
    obtain ⟨i, hi, rfl⟩ := hmem
    rw [List.mem_range] at hi
    rw [Nat.zero_add]
    apply (hfits i (by omega)).imp_right
    intro hlt
    omega

theorem fromRaw_valid_iff (configuration sampleRate channelCount streams coupledStreams
    samplesPerFrame : Int32) (mapping : Option (Mem UInt8)) :
    (∀ setup, fromRaw configuration sampleRate channelCount streams coupledStreams
        samplesPerFrame mapping = .ok setup →
      ValidLayout setup ∧ Carries configuration sampleRate channelCount streams coupledStreams
        samplesPerFrame mapping setup) ↔
      (InRange sampleRate channelCount streams coupledStreams samplesPerFrame →
        ∀ bytes, mapping = some bytes →
          MappingFits channelCount streams coupledStreams bytes) := by
  constructor
  · rintro hclaim hrange bytes rfl
    obtain ⟨hvalid, hcarries⟩ := hclaim _ (fromRaw_eq_ok.mpr ⟨hrange, bytes, rfl, rfl⟩)
    exact (hcarries.valid_iff hrange).mp hvalid
  · rintro hfits setup hok
    obtain ⟨hrange, bytes, rfl, rfl⟩ := fromRaw_eq_ok.mp hok
    have hcarries := @carried_carries configuration _ _ _ _ _ hrange bytes
    exact ⟨(hcarries.valid_iff hrange).mpr (hfits hrange bytes rfl), hcarries⟩

/-- A stereo stream whose second channel would be the seventh decoded one. -/
theorem fromRaw_valid_stereo :
    ¬∀ setup, fromRaw 0 48000 2 1 1 240 (some fun i => if i = 1 then 7 else 0) = .ok setup →
      ValidLayout setup ∧
        Carries 0 48000 2 1 1 240 (some fun i => if i = 1 then 7 else 0) setup := by
  intro hclaim
  have hrange : InRange 48000 2 1 1 240 :=
    ⟨by decide, by decide, by decide, by decide, by decide⟩
  obtain ⟨hvalid, hcarries⟩ := hclaim _ (fromRaw_eq_ok.mpr ⟨hrange, _, rfl, rfl⟩)
  have hfits := (hcarries.valid_iff hrange).mp hvalid
  rcases hfits.2 1 (by decide) with hsilent | hlt
  · exact absurd hsilent (by decide)
  · exact absurd hlt (by decide)

/-- What libopus is given are the numbers and the entries of the core. -/
theorem fromRaw_decoderArguments {mapping : Option (Mem UInt8)} {setup : AudioSetup}
    (h : fromRaw configuration sampleRate channelCount streams coupledStreams samplesPerFrame
      mapping = .ok setup) :
    ∃ bytes, mapping = some bytes ∧ decoderArguments setup =
      ⟨sampleRate, channelCount, streams, coupledStreams,
        Support.Memory.read bytes 0 channelCount.toInt.toNat⟩ := by
  obtain ⟨hrange, bytes, rfl, rfl⟩ := fromRaw_eq_ok.mp h
  have hcarries := @carried_carries configuration _ _ _ _ _ hrange bytes
  refine ⟨bytes, rfl, ?_⟩
  rw [decoderArguments, toInt32_of_toNat hcarries.rate,
    toInt32_of_toNat (UInt8.toNat_toUInt32 _ ▸ hcarries.channels),
    toInt32_of_toNat (UInt8.toNat_toUInt32 _ ▸ hcarries.decoded),
    toInt32_of_toNat (UInt8.toNat_toUInt32 _ ▸ hcarries.coupled),
    carried_mappingEntries hrange.channels]

end Raw

end AudioSetup

end MoonlightScarlet.Sys
