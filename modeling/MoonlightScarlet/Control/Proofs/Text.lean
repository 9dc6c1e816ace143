import MoonlightScarlet.Control.Identity
import Mathlib.Data.List.DropRight
import Mathlib.Data.List.TakeWhile
/-!
# Trimmed, encoded and hexadecimal texts
-/

namespace MoonlightScarlet.Control

/-! ## Trimmed texts -/

theorem toList_trim (text : String) :
    (trim text).toList = (text.toList.dropWhile isWhitespace).rdropWhile isWhitespace := by
  rw [trim, String.toList_ofList, List.rdropWhile]

/-- A beginning of a list that does not start with `p` does not start with `p`. -/
theorem dropWhile_prefix {α : Type} {p : α → Bool} {xs ys : List α} (h : xs <+: ys)
    (hys : ys.dropWhile p = ys) : xs.dropWhile p = xs := by
  cases xs with
  | nil => rfl
  | cons x xs =>
      obtain ⟨rest, rfl⟩ := h
      rw [List.dropWhile_eq_self_iff] at hys ⊢
      exact fun _ => hys (Nat.succ_pos _)

theorem trim_trim (text : String) : trim (trim text) = trim text := by
  have hfront : (trim text).toList.dropWhile isWhitespace = (trim text).toList := by
    rw [toList_trim]
    exact dropWhile_prefix ( List.rdropWhile_prefix _ _) (List.dropWhile_idempotent _ _)
  apply String.toList_injective
  rw [toList_trim (trim text), hfront, toList_trim text, List.rdropWhile_idempotent]

/-- Texts without white space in front of a line feed. -/
theorem trim_lineFeed {chars : List Char} (hne : chars ≠ [])
    (hplain : ∀ c ∈ chars, isWhitespace c = false) {rest : List Char}
    (hrest : ∀ c ∈ rest, isWhitespace c = true) :
    trim (String.ofList (chars ++ rest)) = String.ofList chars := by
  have hfront : (chars ++ rest).dropWhile isWhitespace = chars ++ rest := by
    cases chars with
    | nil => exact absurd rfl hne
    | cons c chars =>
        rw [List.cons_append, List.dropWhile_cons_of_neg]
        simp [hplain c (List.mem_cons_self ..)]
  apply String.toList_injective
  rw [toList_trim, String.toList_ofList, String.toList_ofList, hfront, List.rdropWhile,
    List.reverse_append, List.dropWhile_append_of_pos (by simpa using hrest)]
  have hback : chars.reverse.dropWhile isWhitespace = chars.reverse := by
    rw [List.dropWhile_eq_self_iff]
    intro hpos
    simpa using hplain _ (List.mem_reverse.mp (List.getElem_mem hpos))
  rw [hback, List.reverse_reverse]

/-! ## UTF-8 -/

theorem utf8_ofList (chars : List Char) :
    utf8 (String.ofList chars) = chars.flatMap String.utf8EncodeChar := by
  simp [utf8, String.toUTF8, List.utf8Encode]

theorem ofUtf8_utf8 (text : String) : ofUtf8 (utf8 text) = some text := by
  have hbytes : (⟨(utf8 text).toArray⟩ : ByteArray) = text.toByteArray := rfl
  rw [ofUtf8, hbytes, String.fromUTF8?, dif_pos text.isValidUTF8]
  rfl

/-- The bytes of a text of ASCII characters. -/
theorem utf8_ascii {chars : List Char} (h : ∀ c ∈ chars, c.toNat < 128) :
    utf8 (String.ofList chars) = chars.map fun c => UInt8.ofNat c.toNat := by
  rw [utf8_ofList]
  induction chars with
  | nil => rfl
  | cons c chars ih =>
      have hc := h c (List.mem_cons_self ..)
      have hencode : String.utf8EncodeChar c = [UInt8.ofNat c.toNat] := by
        unfold String.utf8EncodeChar
        exact if_pos (by have := hc; change c.toNat ≤ 127; omega)
      rw [List.flatMap_cons, hencode, ih fun d hd => h d (List.mem_cons_of_mem _ hd)]
      rfl

theorem utf8_take {chars : List Char} (h : ∀ c ∈ chars, c.toNat < 128) (k : Nat) :
    (utf8 (String.ofList chars)).take k = utf8 (String.ofList (chars.take k)) := by
  rw [utf8_ascii h, utf8_ascii fun c hc => h c (List.mem_of_mem_take hc), List.map_take]

/-! ## Hexadecimal digits -/

/-- What `hex::encode` writes. -/
def IsHexChar (c : Char) : Prop := 48 ≤ c.toNat ∧ c.toNat ≤ 57 ∨ 97 ≤ c.toNat ∧ c.toNat ≤ 102

theorem hexDigit_isHexChar {nibble : Nat} (h : nibble < 16) : IsHexChar (hexDigit nibble) := by
  have hall : ∀ nibble < 16, 48 ≤ (hexDigit nibble).toNat ∧ (hexDigit nibble).toNat ≤ 57 ∨
      97 ≤ (hexDigit nibble).toNat ∧ (hexDigit nibble).toNat ≤ 102 := by decide
  exact hall nibble h

theorem hexEncode_isHexChar {bytes : Bytes} {c : Char} (h : c ∈ (hexEncode bytes).toList) :
    IsHexChar c := by
  rw [hexEncode, String.toList_ofList, List.mem_flatMap] at h
  obtain ⟨byte, -, hc⟩ := h
  have hbyte : byte.toNat < 256 := byte.toNat_lt
  simp only [List.mem_cons, List.not_mem_nil, or_false] at hc
  rcases hc with rfl | rfl
  · exact hexDigit_isHexChar (by omega)
  · exact hexDigit_isHexChar (by omega)

theorem IsHexChar.ascii {c : Char} (h : IsHexChar c) : c.toNat < 128 := by
  unfold IsHexChar at h
  omega

theorem IsHexChar.plain {c : Char} (h : IsHexChar c) : isWhitespace c = false := by
  unfold IsHexChar at h
  simp only [isWhitespace, Bool.or_eq_false_iff, Bool.and_eq_false_iff, decide_eq_false_iff_not,
    beq_eq_false_iff_ne]
  omega

theorem IsHexChar.digit {c : Char} (h : IsHexChar c) :
    isAsciiHexDigit (UInt8.ofNat c.toNat) = true := by
  have hnat : (UInt8.ofNat c.toNat).toNat = c.toNat := by
    have := h.ascii
    simp only [UInt8.toNat_ofNat']
    omega
  unfold IsHexChar at h
  simp only [isAsciiHexDigit, Bool.or_eq_true, Bool.and_eq_true, decide_eq_true_eq,
    UInt8.le_iff_toNat_le, hnat]
  exact h.elim (fun h => Or.inl (Or.inl h)) Or.inr

/-- A beginning of a hexadecimal text is checked like the whole. -/
theorem all_isAsciiHexDigit {chars : List Char} (h : ∀ c ∈ chars, IsHexChar c) :
    (utf8 (String.ofList chars)).all isAsciiHexDigit = true := by
  rw [utf8_ascii fun c hc => (h c hc).ascii, List.all_eq_true]
  intro byte hbyte
  obtain ⟨c, hc, rfl⟩ := List.mem_map.mp hbyte
  exact (h c hc).digit

end MoonlightScarlet.Control
