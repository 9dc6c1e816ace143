import MoonlightScarlet.Control.Hosts
import MoonlightScarlet.Control.Settings
import Mathlib.Data.List.Infix
import Mathlib.Data.List.Nodup
import Mathlib.Logic.Equiv.List
/-!
# A reader and writer of sample objects

It gives chosen values their texts in the format of `serde_json`, writes every other
value as a braced number, and meets everything that is relied on of `serde_json`.
-/

namespace MoonlightScarlet.Control

namespace PlainJson

variable {α : Type} [DecidableEq α] [Encodable α] (samples : List (α × Bytes))

/-- A number in the unary system, in braces. -/
def numbered (n : Nat) : Bytes := 123 :: (List.replicate n 120 ++ [125])

def text (a : α) : Bytes :=
  match samples.find? fun sample => sample.1 = a with
  | some sample => sample.2
  | none => numbered (Encodable.encode a)

def ofText (bytes : Bytes) : Option α :=
  match samples.find? fun sample => sample.2 = bytes with
  | some sample => some sample.1
  | none =>
      if bytes = numbered (bytes.length - 2) then Encodable.decode (bytes.length - 2) else none

/-- The bytes without a line feed at their end. -/
def line (bytes : Bytes) : Bytes := if bytes.getLast? = some 10 then bytes.dropLast else bytes

def fromSlice (bytes : Bytes) : Except String α :=
  match ofText samples (line bytes) with
  | some a => .ok a
  | none =>
      .error (if bytes = [] then "EOF while parsing a value at line 1 column 0"
        else "EOF while parsing an object")

def json : Json α := ⟨fun a => .ok (text samples a), fromSlice samples⟩

/-- The only closing brace is the last byte. -/
def Closed (bytes : Bytes) : Prop := ∃ inner, bytes = inner ++ [125] ∧ (125 : UInt8) ∉ inner

/-- Different objects in several lines. -/
structure Samples : Prop where
  distinct : (samples.map Prod.snd).Nodup
  closed : ∀ sample ∈ samples, Closed sample.2
  lines : ∀ sample ∈ samples, (10 : UInt8) ∈ sample.2

theorem numbered_closed (n : Nat) : Closed (numbered n) := by
  refine ⟨123 :: List.replicate n 120, rfl, ?_⟩
  simp [List.mem_replicate]

theorem length_numbered (n : Nat) : (numbered n).length - 2 = n := by
  simp [numbered]

theorem lineFeed_not_mem_numbered (n : Nat) : (10 : UInt8) ∉ numbered n := by
  simp [numbered, List.mem_replicate]

variable {samples}

theorem text_closed (h : Samples samples) (a : α) : Closed (text samples a) := by
  unfold text
  split
  · next sample hfind => exact h.closed sample (List.mem_of_find?_eq_some hfind)
  · exact numbered_closed _

theorem ofText_text (h : Samples samples) (a : α) : ofText samples (text samples a) = some a := by
  unfold text
  split
  · next sample hfind =>
      have hmem := List.mem_of_find?_eq_some hfind
      have hvalue : sample.1 = a := by simpa using List.find?_some hfind
      obtain ⟨other, hother⟩ : ∃ other,
          samples.find? (fun other => other.2 = sample.2) = some other := by
        rw [← Option.isSome_iff_exists, List.find?_isSome]
        exact ⟨sample, hmem, by simp⟩
      have htext : other.2 = sample.2 := by simpa using List.find?_some hother
      have hsame : other = sample :=
        List.inj_on_of_nodup_map h.distinct (List.mem_of_find?_eq_some hother) hmem htext
      simp only [ofText, hother, hsame, hvalue]
  · have hnone : samples.find? (fun sample => sample.2 = numbered (Encodable.encode a)) = none := by
      rw [List.find?_eq_none]
      intro sample hmem htext
      have hline := h.lines sample hmem
      rw [of_decide_eq_true htext] at hline
      exact lineFeed_not_mem_numbered _ hline
    simp only [ofText, hnone, length_numbered, if_true, Encodable.encodek]

omit [DecidableEq α] in
/-- What is read as an object ends with a closing brace. -/
theorem brace_mem_of_ofText (h : Samples samples) {bytes : Bytes} {a : α}
    (hread : ofText samples bytes = some a) : (125 : UInt8) ∈ bytes := by
  have hclosed : ∀ {bytes : Bytes}, Closed bytes → (125 : UInt8) ∈ bytes := by
    rintro _ ⟨inner, rfl, -⟩
    simp
  unfold ofText at hread
  split at hread
  · next sample hfind =>
      have htext : sample.2 = bytes := by simpa using List.find?_some hfind
      exact htext ▸ hclosed (h.closed sample (List.mem_of_find?_eq_some hfind))
  · split_ifs at hread with hnumbered
    rw [hnumbered]
    exact hclosed (numbered_closed _)

theorem line_of_closed {bytes : Bytes} (h : Closed bytes) : line bytes = bytes := by
  obtain ⟨inner, rfl, -⟩ := h
  simp [line]

theorem mem_line {bytes : Bytes} {byte : UInt8} (h : byte ∈ line bytes) : byte ∈ bytes := by
  unfold line at h
  split_ifs at h
  · exact List.mem_of_mem_dropLast h
  · exact h

theorem json_faithful (h : Samples samples) : (json samples).Faithful where
  text a := ⟨text samples a, rfl⟩
  roundTrip := by
    intro a bytes hbytes
    obtain rfl := Except.ok.inj hbytes
    simp only [json, fromSlice, line_of_closed (text_closed h a), ofText_text h]
  lineFeed := by
    intro a bytes hbytes
    obtain rfl := Except.ok.inj hbytes
    have hline : line (text samples a ++ [10]) = text samples a := by simp [line]
    simp only [json, fromSlice, hline, ofText_text h]
  cut := by
    intro a bytes hbytes k hk
    obtain rfl := Except.ok.inj hbytes
    obtain ⟨inner, htext, hinner⟩ := text_closed h a
    have hread : ofText samples (line ((text samples a).take k)) = none := by
      rw [Option.eq_none_iff_forall_ne_some]
      intro b hb
      have hbrace := mem_line (brace_mem_of_ofText h hb)
      rw [htext, List.length_append, List.length_singleton] at hk
      rw [htext, List.take_append_of_le_length (by omega)] at hbrace
      exact hinner (List.mem_of_mem_take hbrace)
    simp only [json, fromSlice, hread]
    exact ⟨_, rfl⟩

/-! ## The two documents -/

instance : Encodable SavedHostsDocument :=
  Encodable.ofLeftInverse
    (fun document : SavedHostsDocument =>
      (document.version.toNat, document.hosts.map fun host => host.toList.map Char.toNat,
        document.lastConnected.map fun host => host.toList.map Char.toNat))
    (fun numbers =>
      ⟨UInt32.ofNat numbers.1, numbers.2.1.map fun host => String.ofList (host.map Char.ofNat),
        numbers.2.2.map fun host => String.ofList (host.map Char.ofNat)⟩)
    (by
      rintro ⟨version, hosts, lastConnected⟩
      simp [Function.comp_def])

instance : Encodable ClientSettings :=
  Encodable.ofLeftInverse (fun settings => (settings.swapAb, settings.bitrateMbps.toNat))
    (fun numbers => ⟨numbers.1, UInt32.ofNat numbers.2⟩) (fun settings => by simp)

def oneHost : SavedHosts := ⟨["10.0.0.2"], some "10.0.0.2"⟩

def twoHosts : SavedHosts := ⟨["10.0.0.2", "10.0.0.3"], some "10.0.0.3"⟩

def fastSettings : ClientSettings := { bitrateMbps := 40 }

def hostsSamples : List (SavedHostsDocument × Bytes) :=
  [(oneHost.document, utf8 ("\x7b\n  \"version\": 1,\n  \"hosts\": [\n    \"10.0.0.2\"\n  ],\n" ++
      "  \"last_connected\": \"10.0.0.2\"\n\x7d")),
    (twoHosts.document, utf8 ("\x7b\n  \"version\": 1,\n  \"hosts\": [\n    \"10.0.0.2\",\n" ++
      "    \"10.0.0.3\"\n  ],\n  \"last_connected\": \"10.0.0.3\"\n\x7d"))]

def settingsSamples : List (ClientSettings × Bytes) :=
  [({}, utf8 "\x7b\n  \"swap_ab\": false,\n  \"bitrate_mbps\": 20\n\x7d"),
    (fastSettings, utf8 "\x7b\n  \"swap_ab\": false,\n  \"bitrate_mbps\": 40\n\x7d")]

/-- A decidable form of `Closed`. -/
theorem closed_of_dropLast {bytes : Bytes} (hlast : bytes.getLast? = some 125)
    (hinner : (125 : UInt8) ∉ bytes.dropLast) : Closed bytes := by
  refine ⟨bytes.dropLast, ?_, hinner⟩
  exact (List.dropLast_append_getLast? 125 hlast).symm

theorem hostsSamples_samples : Samples hostsSamples where
  distinct := by decide +kernel
  closed sample hmem :=
    have h : ∀ sample ∈ hostsSamples,
        sample.2.getLast? = some 125 ∧ (125 : UInt8) ∉ sample.2.dropLast := by decide +kernel
    closed_of_dropLast (h sample hmem).1 (h sample hmem).2
  lines := by decide +kernel

theorem settingsSamples_samples : Samples settingsSamples where
  distinct := by decide +kernel
  closed sample hmem :=
    have h : ∀ sample ∈ settingsSamples,
        sample.2.getLast? = some 125 ∧ (125 : UInt8) ∉ sample.2.dropLast := by decide +kernel
    closed_of_dropLast (h sample hmem).1 (h sample hmem).2
  lines := by decide +kernel

end PlainJson

end MoonlightScarlet.Control
