import MoonlightScarlet.Sys.Proofs.Strtoul
import MoonlightScarlet.Sys.Proofs.VsnprintfBuffer
/-!
# Printed integers are read back

What `snprintf` prints of an integer is a subject sequence that takes the whole string, and
it stands for the integer that was printed.
-/

namespace MoonlightScarlet.Sys.Strtol

open Support.Memory Support.Numerals Vsnprintf

/-! ## Digits that were printed -/

theorem digit_letter (uppercase : Bool) {d : Nat} (h : d < 16) :
    (letter uppercase d.digitChar).isAlphanum = true ∧
      digit (letter uppercase d.digitChar) = d := by
  have hall : ∀ uppercase, ∀ d < 16, (letter uppercase d.digitChar).isAlphanum = true ∧
      digit (letter uppercase d.digitChar) = d := by decide
  exact hall uppercase d h

section Digits

variable {base : Nat}

theorem isDigit_letter (hle : base ≤ 16) (uppercase : Bool) {d : Nat} (h : d < base) :
    isDigit base (letter uppercase d.digitChar) = true := by
  obtain ⟨halnum, hdigit⟩ := digit_letter uppercase (Nat.lt_of_lt_of_le h hle)
  rw [isDigit, halnum, hdigit, decide_eq_true h]
  rfl

/-- The digits are generated from the last to the first and read from the first to the
last. -/
theorem number_toDigits (hbase : 1 < base) (hle : base ≤ 16) (uppercase : Bool) (value : Nat) :
    (∀ c ∈ (Nat.toDigits base value).map (letter uppercase), isDigit base c = true) ∧
      number digit base ((Nat.toDigits base value).map (letter uppercase)) = value := by
  induction value using Nat.strong_induction_on with
  | _ value ih =>
      rw [Nat.toDigits_eq_if hbase]
      by_cases hlt : value < base
      · rw [if_pos hlt, List.map_singleton]
        refine ⟨List.forall_mem_singleton.mpr (isDigit_letter hle uppercase hlt), ?_⟩
        have hdigit := (digit_letter uppercase (Nat.lt_of_lt_of_le hlt hle)).2
        rw [number, List.foldl_cons, List.foldl_nil, hdigit, Nat.zero_mul, Nat.zero_add]
      · have hmod := Nat.mod_lt value (Nat.lt_of_succ_lt hbase)
        obtain ⟨hdigits, hnumber⟩ := ih (value / base) (Nat.div_lt_self (by omega) hbase)
        rw [if_neg hlt, List.map_append, List.map_singleton]
        refine ⟨List.forall_mem_append.mpr ⟨hdigits,
          List.forall_mem_singleton.mpr (isDigit_letter hle uppercase hmod)⟩, ?_⟩
        rw [number_append_singleton, hnumber,
          (digit_letter uppercase (Nat.lt_of_lt_of_le hmod hle)).2, Nat.div_add_mod']

/-- With zeros in front. -/
theorem numeral_printed (hbase : 1 < base) (hle : base ≤ 16) (uppercase : Bool)
    (zeros value : Nat) :
    Numeral base
      (List.replicate zeros '0' ++ (Nat.toDigits base value).map (letter uppercase)) value := by
  obtain ⟨hdigits, hnumber⟩ := number_toDigits hbase hle uppercase value
  have hzero : ∀ c ∈ List.replicate zeros '0', c = '0' := fun c hc => List.eq_of_mem_replicate hc
  have hvalue := number_zeros base (fun c hc => (congrArg digit (hzero c hc)).trans digit_zero)
    ((Nat.toDigits base value).map (letter uppercase))
  rw [hnumber] at hvalue
  conv => arg 3; rw [← hvalue]
  refine .digits (by omega) ?_ (List.forall_mem_append.mpr ⟨fun c hc => ?_, hdigits⟩)
  · have hne := @Nat.toDigits_ne_nil value base
    simp [hne]
  · rw [hzero c hc]
    exact isDigit_zero (by omega)

end Digits

/-! ## Strings that are a number as a whole -/

theorem reads_whole {base n : Nat} {space subject : List Char} {negative : Bool}
    (hspace : ∀ c ∈ space, isSpace c = true) (h : Subject base subject negative n) :
    Reads base (space ++ subject) negative n [] := by
  have hwhole : subject ++ [] = subject := List.append_nil subject
  refine ⟨space, subject, by rw [hwhole], hspace, h, ?_⟩
  rw [hwhole]
  exact ⟨List.prefix_refl subject, ⟨negative, n, h⟩, fun other hother _ => hother.length_le⟩

theorem reads_subject {base n : Nat} {subject : List Char} {negative : Bool}
    (h : Subject base subject negative n) : Reads base subject negative n [] :=
  @reads_whole base n [] subject negative (List.forall_mem_nil _) h

/-- A bare prefix leaves its letter. -/
theorem not_bareHex_of_reads {base n : Nat} {string : List Char} {negative : Bool}
    (h : Reads base string negative n []) : ¬bareHex base (body string) = true := by
  intro hbare
  obtain ⟨x, rest, hbody, -⟩ := startsHex_iff.mp (bareHex_iff.mp hbare).1.2
  have hscan := (reads_iff.mp h).1
  rw [eq_drop_one_of_bare hbare, hbody] at hscan
  cases hscan

theorem strtoul_whole {base n : Nat} {string : List Char}
    (h : Reads base string false n []) : strtoul string base = (UInt64.ofNat n, []) := by
  obtain ⟨hscan, hminus⟩ := reads_iff.mp h
  rw [strtoul_some (not_bareHex_of_reads h) hscan, ← hminus]
  rfl

theorem strtol_whole {base n : Nat} {string : List Char} {negative : Bool}
    (h : Reads base string negative n []) (hn : n < 2 ^ 63) :
    strtol string base = some (signedValue negative n, []) := by
  obtain ⟨hscan, hminus⟩ := reads_iff.mp h
  have hok : SignedOk base string := by
    refine ⟨not_bareHex_of_reads h, fun negative m rest hreads => ?_, fun hblank => ?_⟩
    · obtain ⟨hfound, -⟩ := reads_iff.mp hreads
      rw [hscan] at hfound
      cases hfound
      exact .inl hn
    · rw [scan_of_blank base hblank] at hscan
      cases hscan
  obtain ⟨answer, hanswer, hconforms⟩ := (strtol_conforms_iff base string).mpr hok
  obtain ⟨hstop, hvalue⟩ := (conforms_some hscan).mp hconforms
  rw [hanswer, hminus, ← hvalue, ← hstop]

/-! ## The renderings -/

theorem isSpace_padding (width : Width) (length : Nat) :
    ∀ c ∈ padding ' ' width length, isSpace c = true := by
  intro c hc
  rw [List.eq_of_mem_replicate hc]
  rfl

/-- The sign of a number with the numeral behind it. -/
theorem subject_sign {base n : Nat} {text : List Char} (plus : Bool) (value : Int)
    (h : Numeral base text n) : Subject base (sign plus value ++ text) (value < 0) n := by
  unfold sign
  by_cases hnegative : value < 0
  · rw [if_pos hnegative, decide_eq_true hnegative]
    exact .minus h
  · rw [if_neg hnegative, decide_eq_false hnegative]
    cases plus with
    | true => exact .plus h
    | false => exact .unsigned h

theorem reads_signed (conversion : {c : Char // c ∈ ['d', 'i']}) (flags : FlagText ['0', '+'])
    (width : Width) (modifier : Modifier) (value : BitVec modifier.bits) :
    Reads 10 (Piece.signed conversion flags width modifier value).render
      (decide (value.toInt < 0)) value.toInt.natAbs [] := by
  have hnumeral (zeros : Nat) := numeral_printed (by omega : 1 < 10) (by omega) false zeros
    value.toInt.natAbs
  simp only [map_letter_false] at hnumeral
  unfold Piece.render
  dsimp only
  split
  · rw [List.append_assoc]
    exact reads_subject (subject_sign _ _ (hnumeral _))
  · have hplain := hnumeral 0
    rw [List.replicate_zero, List.nil_append] at hplain
    rw [List.append_assoc]
    exact reads_whole (isSpace_padding _ _) (subject_sign _ _ hplain)

/-- The base of an unsigned conversion. -/
def conversionBase (conversion : Char) : Nat :=
  if conversion = 'o' then 8 else if conversion = 'u' then 10 else 16

theorem conversionBase_range (conversion : Char) :
    1 < conversionBase conversion ∧ conversionBase conversion ≤ 16 := by
  unfold conversionBase
  split
  · omega
  · split <;> omega

theorem reads_unsigned (conversion : {c : Char // c ∈ ['u', 'x', 'X', 'o']})
    (flags : FlagText ['0']) (width : Width) (modifier : Modifier)
    (value : BitVec modifier.bits) :
    Reads (conversionBase conversion.val)
      (Piece.unsigned conversion flags width modifier value).render false value.toNat [] := by
  obtain ⟨hlow, hhigh⟩ := conversionBase_range conversion.val
  have hdigits := unsignedDigits_eq conversion.property value.toNat
  have hnumeral (zeros : Nat) := numeral_printed hlow hhigh (decide (conversion.val = 'X')) zeros
    value.toNat
  rw [conversionBase] at hnumeral
  simp only [hdigits] at hnumeral
  unfold Piece.render
  dsimp only
  split
  · exact reads_subject (.unsigned (hnumeral _))
  · have hplain := hnumeral 0
    rw [List.replicate_zero, List.nil_append] at hplain
    exact reads_whole (isSpace_padding _ _) (.unsigned hplain)

/-! ## snprintf and back -/

theorem Subject.not_nul {base n : Nat} {text : List Char} {negative : Bool}
    (h : Subject base text negative n) : nul ∉ text := by
  have hdigit : ∀ base, isDigit base nul = false := fun _ => rfl
  have hnumeral : ∀ {text}, Numeral base text n → nul ∉ text := by
    intro text h hmem
    cases h with
    | digits hbase hne hdigits => exact nomatch (hdigit _).symm.trans (hdigits nul hmem)
    | hexadecimal hbase hx hne hdigits =>
        obtain hzero | hmem := List.mem_cons.mp hmem
        · exact absurd hzero (by decide)
        obtain rfl | hmem := List.mem_cons.mp hmem
        · exact absurd hx (by decide)
        · exact nomatch (hdigit _).symm.trans (hdigits nul hmem)
    | octal hbase hdigits =>
        obtain hzero | hmem := List.mem_cons.mp hmem
        · exact absurd hzero (by decide)
        · exact nomatch (hdigit _).symm.trans (hdigits nul hmem)
    | decimal hbase hc hdigits => exact nomatch (hdigit _).symm.trans (hdigits nul hmem)
  cases h with
  | unsigned h => exact hnumeral h
  | plus h => exact List.not_mem_cons_of_ne_of_not_mem (by decide) (hnumeral h)
  | minus h => exact List.not_mem_cons_of_ne_of_not_mem (by decide) (hnumeral h)

theorem not_nul_of_reads {base n : Nat} {string : List Char} {negative : Bool}
    (h : Reads base string negative n []) : nul ∉ string := by
  obtain ⟨space, subject, rfl, hspace, hsubject, -⟩ := h
  rw [List.append_nil, List.mem_append]
  rintro (hmem | hmem)
  · exact nomatch (hspace nul hmem)
  · exact hsubject.not_nul hmem

/-- The string that `snprintf` leaves in a buffer with room for it and its NUL. -/
def Prints (piece : Piece) (text : List Char) : Prop :=
  nul ∉ text ∧ ∀ (buffer : Mem Char) (n : UInt64), text.length < n.toNat →
    ∃ contents, vsnprintf buffer n piece.text piece.arguments =
        some ((text.length : Int), contents) ∧
      read contents 0 (text.length + 1) = text ++ [nul]

theorem prints_render {piece : Piece} (hlength : piece.render.length ≤ intMax)
    (hnul : nul ∉ piece.render) : Prints piece piece.render := by
  refine ⟨hnul, fun buffer n hroom => ?_⟩
  have hrendering : rendering [piece] = piece.render := List.append_nil _
  have htext : formatText [piece] = piece.text := List.append_nil _
  have harguments : [piece].flatMap Piece.arguments ++ [] = piece.arguments := by
    rw [List.append_nil, List.flatMap_singleton]
  have hprint := vsnprintf_eq buffer n [piece] [] (by rwa [hrendering])
  have hzero : n ≠ 0 := by
    rintro rfl
    exact absurd hroom (Nat.not_lt_zero _)
  rw [hrendering, htext, harguments, if_neg hzero, List.take_of_length_le (by omega)] at hprint
  refine ⟨_, hprint, ?_⟩
  have hread := read_write_same buffer 0 (piece.render ++ [nul])
  rwa [List.length_append, List.length_singleton] at hread

theorem length_signed (conversion : {c : Char // c ∈ ['d', 'i']}) (flags : FlagText ['0', '+'])
    (width : Width) (modifier : Modifier) (value : BitVec modifier.bits) :
    (Piece.signed conversion flags width modifier value).render.length ≤ intMax := by
  have hmax : intMax = 2147483647 := rfl
  have hwidth : width.value ≤ intMax := width.bounded
  have hdigits := @length_toDigits_le 10 (by omega) _ (natAbs_lt_of_modifier value)
  have hsign : (sign ('+' ∈ flags.chars) value.toInt).length ≤ 1 := by
    unfold sign
    split
    · exact Nat.le_refl 1
    · split
      · exact Nat.le_refl 1
      · exact Nat.zero_le 1
  unfold Piece.render padding
  dsimp only
  split
  · rw [List.length_append, List.length_append, List.length_replicate]
    omega
  · rw [List.length_append, List.length_append, List.length_replicate]
    omega

theorem length_unsigned (conversion : {c : Char // c ∈ ['u', 'x', 'X', 'o']})
    (flags : FlagText ['0']) (width : Width) (modifier : Modifier)
    (value : BitVec modifier.bits) :
    (Piece.unsigned conversion flags width modifier value).render.length ≤ intMax := by
  have hmax : intMax = 2147483647 := rfl
  have hwidth : width.value ≤ intMax := width.bounded
  obtain ⟨hlow, hhigh⟩ := conversionBase_range conversion.val
  have hbase : 8 ≤ conversionBase conversion.val := by
    unfold conversionBase
    split
    · omega
    · split <;> omega
  have hdigits := length_toDigits_le hbase (toNat_lt_of_modifier value)
  have hsame := congrArg List.length (unsignedDigits_eq conversion.property value.toNat)
  rw [List.length_map] at hsame
  unfold Piece.render padding
  dsimp only
  rw [List.length_append, List.length_replicate, ← hsame]
  rw [conversionBase] at hdigits
  omega

/-! ## The round trip -/

theorem strtol_signed (conversion : {c : Char // c ∈ ['d', 'i']}) (flags : FlagText ['0', '+'])
    (width : Width) (modifier : Modifier) (value : BitVec modifier.bits)
    (h : value.toInt.natAbs < 2 ^ 63) :
    strtol (Piece.signed conversion flags width modifier value).render 10 =
      some (Int64.ofInt value.toInt, []) := by
  rw [strtol_whole (reads_signed conversion flags width modifier value) h]
  have hvalue : signedValue (decide (value.toInt < 0)) value.toInt.natAbs =
      Int64.ofInt value.toInt := by
    unfold signedValue
    dsimp only
    by_cases hnegative : value.toInt < 0
    · rw [decide_eq_true hnegative, if_pos rfl]
      exact congrArg Int64.ofInt (by omega)
    · rw [decide_eq_false hnegative, if_neg Bool.false_ne_true]
      exact congrArg Int64.ofInt (by omega)
  rw [hvalue]

end MoonlightScarlet.Sys.Strtol
