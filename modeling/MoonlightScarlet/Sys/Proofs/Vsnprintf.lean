import MoonlightScarlet.Sys.Rendering
import Mathlib.Data.List.Basic
/-!
# The text that vsnprintf prints

Every output function appends a text to what has been output before, and the texts of a
directive make up what C prints for it.
-/

namespace MoonlightScarlet.Sys.Vsnprintf

open Support.Memory

/-! ## Output functions -/

/-- The output after the characters of a text. -/
def emit (output : OutputBuffer) (text : List Char) : OutputBuffer :=
  text.foldl outputCharacter output

@[simp] theorem emit_nil (output : OutputBuffer) : emit output [] = output := rfl

@[simp] theorem emit_cons (output : OutputBuffer) (c : Char) (text : List Char) :
    emit output (c :: text) = emit (outputCharacter output c) text := rfl

@[simp] theorem emit_emit (output : OutputBuffer) (text text' : List Char) :
    emit (emit output text) text' = emit output (text ++ text') :=
  List.foldl_append.symm

theorem int_eq {n : Int} (hlow : -2 ^ 31 ≤ n) (hhigh : n < 2 ^ 31) : int n = some n :=
  if_pos ⟨hlow, hhigh⟩

theorem toInt_eq {n : Nat} (h : n ≤ intMax) : toInt n = n := by
  have hmax : intMax = 2147483647 := rfl
  have hsize : (2 : Nat) ^ 32 = 4294967296 := rfl
  unfold toInt
  rw [hsize]
  exact Int.bmod_eq_of_le (by omega) (by omega)

theorem outputRepeat_eq (output : OutputBuffer) (c : Char) {count : Int}
    (hlow : -2 ^ 31 < count) (hhigh : count < 2 ^ 31) :
    outputRepeat output c count = some (emit output (List.replicate count.toNat c)) := by
  generalize hn : count.toNat = n
  induction n generalizing count output with
  | zero =>
      rw [outputRepeat, if_neg (by omega), int_eq (by omega) (by omega)]
      rfl
  | succ n ih =>
      rw [outputRepeat, if_pos (by omega), ih _ (by omega) (by omega) (by omega)]
      rfl

theorem outputStringFrom_eq (output : OutputBuffer) (string : List Char) {maximum count : Int}
    (hcount : 0 ≤ count) (hle : count ≤ maximum) (hmaximum : maximum < 2 ^ 31) :
    outputStringFrom maximum count output string =
      some (emit output (string.take (maximum - count).toNat)) := by
  induction string generalizing output count with
  | nil => rw [outputStringFrom, List.take_nil, emit_nil]
  | cons c string ih =>
      rw [outputStringFrom]
      by_cases hlt : count < maximum
      · have htake : (maximum - count).toNat = (maximum - (count + 1)).toNat + 1 := by omega
        rw [if_pos (.inr hlt), int_eq (by omega) (by omega), htake, List.take_succ_cons]
        exact ih _ (by omega) (by omega)
      · have htake : (maximum - count).toNat = 0 := by omega
        rw [if_neg (by omega), htake, List.take_zero, emit_nil]

theorem outputString_eq (output : OutputBuffer) (string : List Char) {maximum : Int}
    (hlow : 0 ≤ maximum) (hhigh : maximum < 2 ^ 31) :
    outputString output string maximum = some (emit output (string.take maximum.toNat)) := by
  rw [outputString, outputStringFrom_eq output string (Int.le_refl 0) hlow hhigh, Int.sub_zero]

/-! ## Digits -/

/-- A digit in the case of an alphabet. -/
def letter (uppercase : Bool) (c : Char) : Char := if uppercase then c.toUpper else c

theorem alphabet_eq (uppercase : Bool) {digit : Nat} (h : digit < 16) :
    (alphabet uppercase)[digit]? = some (letter uppercase digit.digitChar) := by
  have hall : ∀ uppercase, ∀ digit < 16,
      (alphabet uppercase)[digit]? = some (letter uppercase digit.digitChar) := by decide
  exact hall uppercase digit h

section Digits

variable {base : Nat}

theorem unsignedLength_eq (hbase : 1 < base) (value : Nat) :
    unsignedLength value base = (Nat.toDigits base value).length := by
  induction value using Nat.strong_induction_on with
  | _ value ih =>
      rw [unsignedLength, Nat.toDigits_eq_if hbase]
      by_cases hle : base ≤ value
      · have hsmaller : value / base < value := Nat.div_lt_self (by omega) hbase
        rw [if_pos ⟨hbase, hle⟩, if_neg (by omega), ih _ hsmaller, List.length_append,
          List.length_singleton]
      · rw [if_neg (by omega), if_pos (by omega), List.length_singleton]

theorem storeDigits_eq (hbase : 1 < base) (hle : base ≤ 16) (uppercase : Bool) (value : Nat)
    (digits : List Char) :
    storeDigits base uppercase (unsignedLength value base) value digits =
      some ((Nat.toDigits base value).map (letter uppercase) ++ digits) := by
  induction value using Nat.strong_induction_on generalizing digits with
  | _ value ih =>
      have hdigit := alphabet_eq uppercase (Nat.lt_of_lt_of_le (Nat.mod_lt value (by omega)) hle)
      rw [unsignedLength, Nat.toDigits_eq_if hbase]
      by_cases hvalue : base ≤ value
      · have hsmaller : value / base < value := Nat.div_lt_self (by omega) hbase
        rw [if_pos ⟨hbase, hvalue⟩, if_neg (by omega), storeDigits, hdigit]
        refine (ih _ hsmaller _).trans ?_
        rw [List.map_append, List.append_assoc]
        rfl
      · rw [if_neg (by omega), if_pos (by omega), storeDigits, hdigit,
          Nat.mod_eq_of_lt (by omega)]
        rfl

/-- A number of 64 bits has at most 22 digits. -/
theorem length_toDigits_le (hbase : 8 ≤ base) {value : Nat} (hvalue : value < 2 ^ 64) :
    (Nat.toDigits base value).length ≤ 22 := by
  rw [Nat.length_toDigits_le_iff (by omega) (by omega)]
  calc value < 8 ^ 22 := by omega
    _ ≤ base ^ 22 := Nat.pow_le_pow_left hbase 22

theorem outputUnsigned_eq (output : OutputBuffer) {value : Nat} (hvalue : value < 2 ^ 64)
    (hlow : 8 ≤ base) (hhigh : base ≤ 16) (uppercase zeroPad : Bool) {width : Int}
    (hwidth : -1 ≤ width) (hmax : width < 2 ^ 31) :
    outputUnsigned output value base uppercase width zeroPad =
      some (emit output
        (List.replicate (width - (Nat.toDigits base value).length).toNat
          (if zeroPad then '0' else ' ') ++
          (Nat.toDigits base value).map (letter uppercase))) := by
  have hlength := length_toDigits_le hlow hvalue
  have hbase : 1 < base := by omega
  unfold outputUnsigned
  dsimp only
  rw [storeDigits_eq hbase hhigh, unsignedLength_eq hbase, if_neg (by omega)]
  simp only [Option.bind_eq_bind, Option.bind_some, List.append_nil]
  rw [int_eq (by omega) (by omega)]
  simp only [Option.bind_some]
  rw [outputRepeat_eq _ _ (by omega) (by omega)]
  simp only [Option.bind_some, ← emit_emit]
  rfl

end Digits

/-! ## Reading a directive -/

theorem forall_mem_of_all {p : Char → Prop} [DecidablePred p] {l : List Char}
    (h : l.all (fun c => decide (p c)) = true) : ∀ c ∈ l, p c := fun c hc =>
  of_decide_eq_true (List.all_eq_true.mp h c hc)

/-- What stands behind a width or a precision: no flag and no digit, star or percent sign. -/
def Opens (tail : List Char) : Prop :=
  ∃ c rest, tail = c :: rest ∧ c.isDigit = false ∧ c ∉ ['0', '-', '+', ' ', '#', '*', '%']

theorem readFlags_eq (flags : Flags) {chars rest : List Char}
    (hchars : ∀ c ∈ chars, c ∈ ['0', '-', '+'])
    (hrest : ∀ c ∈ rest.head?, c ∉ ['0', '-', '+', ' ', '#']) :
    readFlags flags (chars ++ rest) =
      ({ zeroPad := flags.zeroPad || '0' ∈ chars, leftAlign := flags.leftAlign || '-' ∈ chars,
         plus := flags.plus || '+' ∈ chars }, rest) := by
  induction chars generalizing flags with
  | nil =>
      cases rest with
      | nil => simp [readFlags]
      | cons c rest =>
          have hc := hrest c rfl
          simp only [List.mem_cons, List.not_mem_nil, or_false, not_or] at hc
          simp [readFlags, hc]
  | cons c chars ih =>
      have ih := fun flags => ih flags fun c hc => hchars c (List.mem_cons_of_mem _ hc)
      have hc := hchars c List.mem_cons_self
      simp only [List.mem_cons, List.not_mem_nil, or_false] at hc
      rcases hc with rfl | rfl | rfl
      · simp [readFlags, ih]
      · simp [readFlags, ih]
      · simp [readFlags, ih]

theorem le_ofDigitChars (digits : List Char) (number : Nat) :
    number ≤ Nat.ofDigitChars 10 digits number := by
  induction digits generalizing number with
  | nil => exact Nat.le_refl _
  | cons c digits ih =>
      rw [Nat.ofDigitChars_cons]
      have hle := ih (10 * number + (c.toNat - '0'.toNat))
      omega

theorem readNumber_eq {digits tail : List Char} {number : Nat}
    (hdigits : ∀ c ∈ digits, c.isDigit = true)
    (hbound : Nat.ofDigitChars 10 digits number ≤ intMax)
    (htail : ∀ c ∈ tail.head?, c.isDigit = false) :
    readNumber number (digits ++ tail) =
      some (((Nat.ofDigitChars 10 digits number : Nat) : Int), tail) := by
  have hmax : intMax = 2147483647 := rfl
  induction digits generalizing number with
  | nil =>
      cases tail with
      | nil => rfl
      | cons c tail =>
          have hc : ¬c.isDigit = true := Bool.eq_false_iff.mp (htail c rfl)
          rw [List.nil_append, readNumber, if_neg hc, Nat.ofDigitChars_nil]
  | cons c digits ih =>
      rw [Nat.ofDigitChars_cons] at hbound ⊢
      have hle := le_ofDigitChars digits (10 * number + (c.toNat - '0'.toNat))
      have hnext : int ((number : Int) * 10 + (c.toNat - '0'.toNat : Nat)) =
          some ((10 * number + (c.toNat - '0'.toNat) : Nat) : Int) := by
        rw [int_eq (by omega) (by omega)]
        congr 1
        omega
      rw [List.cons_append, readNumber, if_pos (hdigits c List.mem_cons_self), hnext]
      exact ih (fun c hc => hdigits c (List.mem_cons_of_mem _ hc)) hbound

/-- In front of such a tail, digits begin with no flag but zero, and no star or percent sign. -/
theorem Opens.digits {digits tail : List Char} (htail : Opens tail)
    (hdigits : ∀ c ∈ digits, c.isDigit = true) :
    ∃ c rest, digits ++ tail = c :: rest ∧ c ∉ ['-', '+', ' ', '#', '*', '%'] ∧
      (c = '0' → digits.head? = some '0') := by
  cases digits with
  | nil =>
      obtain ⟨c, rest, rfl, -, hother⟩ := htail
      rw [List.mem_cons, not_or] at hother
      exact ⟨c, rest, rfl, hother.2, fun hzero => absurd hzero hother.1⟩
  | cons d digits =>
      have hplain : ∀ c ∈ ['-', '+', ' ', '#', '*', '%'], ¬c.isDigit = true :=
        forall_mem_of_all (by decide)
      refine ⟨d, digits ++ tail, rfl, fun hmem => ?_, fun hzero => by rw [hzero]; rfl⟩
      exact hplain d hmem (hdigits d List.mem_cons_self)

theorem readWidth_eq (number : Number) {tail : List Char} (htail : Opens tail)
    (arguments : List Argument) :
    readWidth (number.digits ++ tail) arguments =
      some ((number.value : Int), tail, arguments) := by
  have hread : readNumber (0 : Nat) (number.digits ++ tail) =
      some ((number.value : Int), tail) := by
    refine readNumber_eq number.isDigit number.bounded fun c hc => ?_
    obtain ⟨c', rest, rfl, hdigit, -⟩ := htail
    rw [List.head?_cons, Option.mem_some_iff] at hc
    rw [← hc]
    exact hdigit
  have hstar : ∀ format, number.digits ++ tail ≠ '*' :: format := by
    intro format hformat
    obtain ⟨c, rest, hhead, hother, -⟩ := htail.digits number.isDigit
    rw [hhead, List.cons.injEq] at hformat
    exact hother (by simp [hformat.1])
  unfold readWidth
  split
  · exact absurd ‹_› (hstar _)
  · rw [Int.natCast_zero] at hread
    rw [hread]
    rfl

theorem readPrecision_none {tail : List Char} (htail : ∀ format, tail ≠ '.' :: format)
    (arguments : List Argument) : readPrecision tail arguments = some (-1, tail, arguments) := by
  unfold readPrecision
  split
  · exact absurd rfl (htail _)
  · rfl

/-- The value that a precision has while a directive is converted. -/
def precisionValue : Option Number → Int
  | none => -1
  | some precision => precision.value

theorem readPrecision_eq (precision : Option Number) {tail : List Char} (htail : Opens tail)
    (hpoint : ∀ format, tail ≠ '.' :: format) (arguments : List Argument) :
    readPrecision (precisionText precision ++ tail) arguments =
      some (precisionValue precision, tail, arguments) := by
  cases precision with
  | none => exact readPrecision_none hpoint arguments
  | some precision => exact readWidth_eq precision htail arguments

theorem head_flag_free {width : Width} {tail : List Char} (htail : Opens tail) :
    ∀ c ∈ (width.digits ++ tail).head?, c ∉ ['0', '-', '+', ' ', '#'] := by
  intro c hc hmem
  obtain ⟨c', rest, hhead, hother, hzero⟩ := htail.digits width.isDigit
  rw [hhead, List.head?_cons, Option.mem_some_iff] at hc
  rw [← hc, List.mem_cons] at hmem
  rcases hmem with heq | hflag
  · exact width.lead (hzero heq)
  · exact hother (List.mem_append_left ['*', '%'] hflag)

/-- Everything in front of the precision. -/
theorem readFlags_width {allowed : List Char} (hallowed : ∀ c ∈ allowed, c ∈ ['0', '-', '+'])
    (flags : FlagText allowed) (width : Width) {tail : List Char} (htail : Opens tail) :
    readFlags {} (flags.chars ++ (width.digits ++ tail)) =
      ({ zeroPad := '0' ∈ flags.chars, leftAlign := '-' ∈ flags.chars,
         plus := '+' ∈ flags.chars }, width.digits ++ tail) := by
  have hchars : ∀ c ∈ flags.chars, c ∈ ['0', '-', '+'] :=
    fun c hc => hallowed c (flags.mem c hc)
  rw [readFlags_eq {} hchars (head_flag_free htail)]
  simp only [Bool.false_or]

/-- The conversions of the pieces. -/
def conversions : List Char := ['s', 'c', 'd', 'i', 'u', 'x', 'X', 'o']

/-- What the interpreter makes of a length modifier. -/
def Modifier.code : Modifier → Nat
  | .none => 0
  | .l => 1
  | .ll => 2
  | .z => 2

theorem integerBits_code (modifier : Modifier) : integerBits modifier.code = modifier.bits := by
  cases modifier <;> rfl

theorem readModifier_eq (modifier : Modifier) {conversion : Char}
    (h : conversion ∈ conversions) (rest : List Char) :
    readModifier (modifier.text ++ conversion :: rest) =
      (modifier.code, conversion :: rest) := by
  simp only [conversions, List.mem_cons, List.not_mem_nil, or_false] at h
  rcases h with rfl | rfl | rfl | rfl | rfl | rfl | rfl | rfl
  all_goals cases modifier <;> rfl

theorem opens_modifier (modifier : Modifier) {conversion : Char} (h : conversion ∈ conversions)
    (rest : List Char) : Opens (modifier.text ++ conversion :: rest) := by
  cases modifier with
  | none =>
      refine ⟨conversion, rest, rfl, ?_⟩
      have hall : ∀ c ∈ conversions,
          c.isDigit = false ∧ c ∉ ['0', '-', '+', ' ', '#', '*', '%'] :=
        forall_mem_of_all (by decide)
      exact hall conversion h
  | l => exact ⟨'l', _, rfl, by decide⟩
  | ll => exact ⟨'l', _, rfl, by decide⟩
  | z => exact ⟨'z', _, rfl, by decide⟩

theorem no_point_modifier (modifier : Modifier) {conversion : Char}
    (h : conversion ∈ conversions) (rest format : List Char) :
    modifier.text ++ conversion :: rest ≠ '.' :: format := by
  intro heq
  cases modifier with
  | none =>
      rw [(List.cons.inj heq).1] at h
      exact absurd h (by decide)
  | l => exact absurd (List.cons.inj heq).1 (by decide)
  | ll => exact absurd (List.cons.inj heq).1 (by decide)
  | z => exact absurd (List.cons.inj heq).1 (by decide)

theorem opens_precision (precision : Option Number) {tail : List Char} (htail : Opens tail) :
    Opens (precisionText precision ++ tail) := by
  cases precision with
  | none => exact htail
  | some precision => exact ⟨'.', precision.digits ++ tail, rfl, by decide⟩

theorem head_ne_percent {allowed : List Char} (hallowed : ∀ c ∈ allowed, c ∈ ['0', '-', '+'])
    (flags : FlagText allowed) (width : Width) {tail : List Char} (htail : Opens tail) :
    ∀ format, flags.chars ++ (width.digits ++ tail) ≠ '%' :: format := by
  intro format heq
  cases hchars : flags.chars with
  | cons c chars =>
      have hc := hallowed c (flags.mem c (by simp [hchars]))
      rw [hchars, List.cons_append, List.cons.injEq] at heq
      rw [heq.1] at hc
      exact absurd hc (by decide)
  | nil =>
      obtain ⟨c, rest, hhead, hother, -⟩ := htail.digits width.isDigit
      rw [hchars, List.nil_append, hhead, List.cons.injEq] at heq
      exact hother (by simp [heq.1])

/-- The flags that are given. -/
def FlagText.flags {allowed : List Char} (flags : FlagText allowed) : Flags where
  zeroPad := '0' ∈ flags.chars
  leftAlign := '-' ∈ flags.chars
  plus := '+' ∈ flags.chars

/-- A directive is read up to its conversion, which then takes its argument. -/
theorem directive_eq {allowed : List Char} (hallowed : ∀ c ∈ allowed, c ∈ ['0', '-', '+'])
    (flags : FlagText allowed) (width : Width) (precision : Option Number) (modifier : Modifier)
    {conversion : Char} (hconversion : conversion ∈ conversions) (rest : List Char)
    (arguments : List Argument) (output : OutputBuffer) :
    formatStep ⟨'%' :: (flags.chars ++ (width.digits ++ (precisionText precision ++
        (modifier.text ++ conversion :: rest)))), arguments, output⟩ =
      (convert output flags.flags width.value (precisionValue precision) modifier.code conversion
        arguments).bind fun converted => some ⟨rest, converted.2, converted.1⟩ := by
  have hmodifier := opens_modifier modifier hconversion rest
  have hprecision := opens_precision precision hmodifier
  have hpercent := head_ne_percent hallowed flags width hprecision
  have hflags := readFlags_width hallowed flags width hprecision
  have hwidth := readWidth_eq width.toNumber hprecision arguments
  have hpoint := no_point_modifier modifier hconversion rest
  have hread := readPrecision_eq precision hmodifier hpoint arguments
  have hcode := readModifier_eq modifier hconversion rest
  generalize hformat : flags.chars ++ (width.digits ++ (precisionText precision ++
    (modifier.text ++ conversion :: rest))) = format at hpercent hflags ⊢
  have hstep : formatStep ⟨'%' :: format, arguments, output⟩ =
      directive ⟨format, arguments, output⟩ := by simp only [formatStep]
  rw [hstep]
  unfold directive
  dsimp only
  rw [hflags]
  dsimp only
  rw [hwidth, Option.bind_eq_bind, Option.bind_some, hread, Option.bind_eq_bind,
    Option.bind_some, hcode]
  rfl

/-! ## Conversions -/

theorem Text.length_shown (text : Text) (precision : Option Number) :
    (if precisionValue precision ≥ 0 ∧ toInt text.chars.length > precisionValue precision then
      precisionValue precision else toInt text.chars.length) = (text.shown precision).length := by
  rw [toInt_eq text.bounded]
  cases precision with
  | none => exact if_neg fun h => absurd h.1 (by decide)
  | some precision =>
      rw [precisionValue, Text.shown, List.length_take]
      by_cases hlong : precision.value < text.chars.length
      · rw [if_pos (by omega)]
        omega
      · rw [if_neg (by omega)]
        omega

theorem Text.take_shown (text : Text) (precision : Option Number) :
    text.chars.take (text.shown precision).length = text.shown precision := by
  cases precision with
  | none => exact List.take_length
  | some precision =>
      simp only [Text.shown, List.length_take]
      exact (List.take_eq_take_min ..).symm

theorem Text.shown_le (text : Text) (precision : Option Number) :
    (text.shown precision).length ≤ intMax := by
  refine Nat.le_trans ?_ text.bounded
  rw [← text.take_shown precision, List.length_take]
  exact Nat.min_le_right ..

theorem padding_eq (fill : Char) (width : Width) (length : Nat) :
    List.replicate ((width.value : Int) - (length : Int)).toNat fill =
      padding fill width length := by
  rw [padding]
  congr 1
  omega

theorem convertString_eq (output : OutputBuffer) (flags : Flags) (width : Width)
    (precision : Option Number) (text : Text) :
    convertString output flags width.value (precisionValue precision) text.chars =
      some (emit output
        (if flags.leftAlign then
          text.shown precision ++ padding ' ' width (text.shown precision).length
        else padding ' ' width (text.shown precision).length ++ text.shown precision)) := by
  have hmax : intMax = 2147483647 := rfl
  have hwidth : width.value ≤ intMax := width.bounded
  have hshown := text.shown_le precision
  have hstring (output : OutputBuffer) :=
    outputString_eq output text.chars (Int.natCast_nonneg (text.shown precision).length)
      (by omega)
  simp only [Int.toNat_natCast, text.take_shown precision] at hstring
  have hrepeat (output : OutputBuffer) : outputRepeat output ' '
      ((width.value : Int) - ((text.shown precision).length : Int)) =
        some (emit output (padding ' ' width (text.shown precision).length)) := by
    rw [outputRepeat_eq output ' ' (by omega) (by omega), padding_eq]
  unfold convertString
  dsimp only
  rw [text.length_shown precision, int_eq (by omega) (by omega)]
  cases flags.leftAlign with
  | true => simp [hstring, hrepeat]
  | false => simp [hstring, hrepeat]

theorem map_letter_false (digits : List Char) : digits.map (letter false) = digits :=
  List.map_id digits

theorem emit_sign (output : OutputBuffer) (plus : Bool) (value : Int) :
    (if decide (value < 0) = true then outputCharacter output '-'
      else if plus = true then outputCharacter output '+' else output) =
        emit output (sign plus value) := by
  unfold sign
  by_cases hnegative : value < 0
  · simp [hnegative]
  · cases plus with
    | true => simp [hnegative]
    | false => simp [hnegative]

theorem length_sign (plus : Bool) (value : Int) :
    (if (decide (value < 0) || plus) = true then (1 : Int) else 0) = (sign plus value).length := by
  unfold sign
  by_cases hnegative : value < 0
  · simp [hnegative]
  · cases plus with
    | true => simp [hnegative]
    | false => simp [hnegative]

/-- The magnitude does not overflow at the most negative integer. -/
theorem magnitude_eq (value : Int) :
    (if decide (value < 0) = true then (-(value + 1)).toNat + 1 else value.toNat) =
      value.natAbs := by
  by_cases hnegative : value < 0
  · rw [if_pos (decide_eq_true hnegative)]
    omega
  · rw [if_neg (by simpa using hnegative)]
    omega

theorem convertSigned_eq (output : OutputBuffer) (flags : Flags) (width : Width) {value : Int}
    (hvalue : value.natAbs < 2 ^ 64) :
    convertSigned output flags width.value value =
      some (emit output
        (if flags.zeroPad then
          sign flags.plus value ++ padding '0' width
            ((sign flags.plus value).length + (Nat.toDigits 10 value.natAbs).length) ++
            Nat.toDigits 10 value.natAbs
        else
          padding ' ' width
            ((sign flags.plus value).length + (Nat.toDigits 10 value.natAbs).length) ++
            sign flags.plus value ++ Nat.toDigits 10 value.natAbs)) := by
  have hmax : intMax = 2147483647 := rfl
  have hwidth : width.value ≤ intMax := width.bounded
  have hlength := @length_toDigits_le 10 (by omega) _ hvalue
  have hsign : (sign flags.plus value).length ≤ 1 := by
    have h := length_sign flags.plus value
    split at h <;> omega
  have hunsigned (output : OutputBuffer) (zeroPad : Bool) {width : Int} (hlow : -1 ≤ width)
      (hhigh : width < 2 ^ 31) :=
    @outputUnsigned_eq 10 output _ hvalue (by omega) (by omega) false zeroPad _ hlow hhigh
  simp only [map_letter_false] at hunsigned
  generalize hdigits : Nat.toDigits 10 value.natAbs = digits at hlength hunsigned ⊢
  unfold convertSigned
  dsimp only
  rw [magnitude_eq, length_sign, unsignedLength_eq (by omega), hdigits]
  cases flags.zeroPad with
  | true =>
      have hpad : ((width.value : Int) - (sign flags.plus value).length - digits.length).toNat =
          width.value - ((sign flags.plus value).length + digits.length) := by omega
      simp only [if_true, Option.bind_eq_bind, Option.bind_some, emit_sign]
      rw [int_eq (by omega) (by omega), Option.bind_some, hunsigned _ _ (by omega) (by omega),
        hpad, emit_emit, padding, if_pos rfl, List.append_assoc]
  | false =>
      have hpad : ((width.value : Int) - digits.length - (sign flags.plus value).length).toNat =
          width.value - ((sign flags.plus value).length + digits.length) := by omega
      have hnone : ((digits.length : Int) - digits.length).toNat = 0 := by omega
      simp only [Bool.false_eq_true, if_false, Option.bind_eq_bind, emit_sign]
      rw [int_eq (by omega) (by omega), Option.bind_some, int_eq (by omega) (by omega),
        Option.bind_some, outputRepeat_eq _ _ (by omega) (by omega), Option.bind_some,
        hunsigned _ _ (by omega) (by omega), hpad, hnone, emit_emit, emit_emit, padding,
        List.replicate_zero, List.nil_append, List.append_assoc]

/-- The digits of a conversion in the base and the case that it is given. -/
theorem unsignedDigits_eq {conversion : Char} (h : conversion ∈ ['u', 'x', 'X', 'o'])
    (value : Nat) :
    (Nat.toDigits (if conversion = 'o' then 8 else if conversion = 'u' then 10 else 16) value).map
      (letter (decide (conversion = 'X'))) = unsignedDigits conversion value := by
  simp only [List.mem_cons, List.not_mem_nil, or_false] at h
  rcases h with rfl | rfl | rfl | rfl
  · exact map_letter_false _
  · exact map_letter_false _
  · rfl
  · exact map_letter_false _

theorem convertUnsigned_eq (output : OutputBuffer) {conversion : Char}
    (hconversion : conversion ∈ ['u', 'x', 'X', 'o']) (width : Width) (zeroPad : Bool)
    {value : Nat} (hvalue : value < 2 ^ 64) :
    outputUnsigned output value
        (if conversion = 'o' then 8 else if conversion = 'u' then 10 else 16)
        (decide (conversion = 'X')) width.value zeroPad =
      some (emit output
        (padding (if zeroPad then '0' else ' ') width (unsignedDigits conversion value).length ++
          unsignedDigits conversion value)) := by
  have hmax : intMax = 2147483647 := rfl
  have hwidth : width.value ≤ intMax := width.bounded
  have hlow : 8 ≤ (if conversion = 'o' then 8 else if conversion = 'u' then 10 else 16) := by
    split
    · omega
    · split <;> omega
  have hhigh : (if conversion = 'o' then 8 else if conversion = 'u' then 10 else 16) ≤ 16 := by
    split
    · omega
    · split <;> omega
  rw [outputUnsigned_eq output hvalue hlow hhigh _ _ (by omega) (by omega),
    ← unsignedDigits_eq hconversion value, List.length_map, padding_eq]

/-! ## Pieces -/

theorem vaInteger_eq (bits : Nat) (value : BitVec bits) (arguments : List Argument) :
    vaInteger bits (.integer bits value :: arguments) = some (value, arguments) := dif_pos rfl

/-- The integer type that is read is the one of the modifier. -/
theorem vaInteger_code (modifier : Modifier) (value : BitVec modifier.bits)
    (arguments : List Argument) :
    vaInteger (integerBits modifier.code) (.integer modifier.bits value :: arguments) =
      some (value.cast (integerBits_code modifier).symm, arguments) :=
  dif_pos (integerBits_code modifier).symm

theorem toInt_cast {bits other : Nat} (h : bits = other) (value : BitVec bits) :
    (value.cast h).toInt = value.toInt := by
  subst h
  rfl

theorem bits_le (modifier : Modifier) : modifier.bits ≤ 64 := by
  cases modifier <;> decide

theorem toNat_lt_of_modifier {modifier : Modifier} (value : BitVec modifier.bits) :
    value.toNat < 2 ^ 64 :=
  Nat.lt_of_lt_of_le value.isLt (Nat.pow_le_pow_right (by omega) (bits_le modifier))

theorem natAbs_lt_of_modifier {modifier : Modifier} (value : BitVec modifier.bits) :
    value.toInt.natAbs < 2 ^ 64 := by
  have hnat := toNat_lt_of_modifier value
  have hsize : 2 ^ modifier.bits ≤ 2 ^ 64 := Nat.pow_le_pow_right (by omega) (bits_le modifier)
  rw [BitVec.toInt_eq_toNat_cond]
  split <;> omega

theorem convert_string (output : OutputBuffer) (flags : FlagText ['-']) (width : Width)
    (precision : Option Number) (text : Text) (arguments : List Argument) :
    convert output flags.flags width.value (precisionValue precision) 0 's'
        (.pointer text.address text.chars :: arguments) =
      some (emit output (Piece.string flags width precision text).render, arguments) := by
  unfold convert
  rw [if_pos rfl, vaPointer]
  simp only [Option.bind_eq_bind, Option.bind_some]
  rw [if_neg text.address_ne, convertString_eq]
  simp only [Option.bind_some, Piece.render, FlagText.flags, decide_eq_true_eq]
  rfl

theorem convert_character (output : OutputBuffer) (flags : Flags) (width precision : Int)
    (value : BitVec 32) (arguments : List Argument) :
    convert output flags width precision 0 'c' (.integer 32 value :: arguments) =
      some (emit output (Piece.character value).render, arguments) := by
  unfold convert
  rw [if_neg (by decide), if_pos rfl, vaInteger_eq]
  rfl

theorem convert_signed (output : OutputBuffer) (conversion : {c : Char // c ∈ ['d', 'i']})
    (flags : FlagText ['0', '+']) (width : Width) (precision : Int) (modifier : Modifier)
    (value : BitVec modifier.bits) (arguments : List Argument) :
    convert output flags.flags width.value precision modifier.code conversion.val
        (.integer modifier.bits value :: arguments) =
      some (emit output (Piece.signed conversion flags width modifier value).render,
        arguments) := by
  have hvalue := natAbs_lt_of_modifier value
  have hconversion : conversion.val = 'd' ∨ conversion.val = 'i' := by
    simpa using conversion.property
  have hstring : conversion.val ≠ 's' := by
    rcases hconversion with heq | heq <;> rw [heq] <;> decide
  have hcharacter : conversion.val ≠ 'c' := by
    rcases hconversion with heq | heq <;> rw [heq] <;> decide
  unfold convert
  rw [if_neg hstring, if_neg hcharacter, if_pos hconversion, vaInteger_code]
  simp only [Option.bind_eq_bind, Option.bind_some, toInt_cast]
  rw [convertSigned_eq output flags.flags width hvalue]
  simp only [Option.bind_some, Piece.render, FlagText.flags, decide_eq_true_eq]
  rfl

theorem convert_unsigned (output : OutputBuffer)
    (conversion : {c : Char // c ∈ ['u', 'x', 'X', 'o']}) (flags : FlagText ['0'])
    (width : Width) (precision : Int) (modifier : Modifier) (value : BitVec modifier.bits)
    (arguments : List Argument) :
    convert output flags.flags width.value precision modifier.code conversion.val
        (.integer modifier.bits value :: arguments) =
      some (emit output (Piece.unsigned conversion flags width modifier value).render,
        arguments) := by
  have hvalue := toNat_lt_of_modifier value
  have hconversion : conversion.val = 'u' ∨ conversion.val = 'x' ∨ conversion.val = 'X' ∨
      conversion.val = 'o' := by
    simpa using conversion.property
  have hothers : ∀ c ∈ ['u', 'x', 'X', 'o'], c ≠ 's' ∧ c ≠ 'c' ∧ ¬(c = 'd' ∨ c = 'i') :=
    forall_mem_of_all (by decide)
  obtain ⟨hstring, hcharacter, hsigned⟩ := hothers conversion.val conversion.property
  unfold convert
  rw [if_neg hstring, if_neg hcharacter, if_neg hsigned, if_pos hconversion, vaInteger_code]
  simp only [Option.bind_eq_bind, Option.bind_some, BitVec.toNat_cast]
  rw [convertUnsigned_eq output conversion.property width _ hvalue]
  simp only [Option.bind_some, Piece.render, FlagText.flags, decide_eq_true_eq]
  rfl

def noFlags : FlagText [] := ⟨[], by simp⟩

def noWidth : Width := ⟨⟨[], by simp, by decide⟩, by simp⟩

theorem formatStep_literal {c : Char} (h : c ≠ '%') (rest : List Char)
    (arguments : List Argument) (output : OutputBuffer) :
    formatStep ⟨c :: rest, arguments, output⟩ =
      some ⟨rest, arguments, outputCharacter output c⟩ := by
  simp [formatStep, h]

/-- One turn of the loop prints one piece. -/
theorem formatStep_piece (piece : Piece) (rest : List Char) (arguments : List Argument)
    (output : OutputBuffer) :
    formatStep ⟨piece.text ++ rest, piece.arguments ++ arguments, output⟩ =
      some ⟨rest, arguments, emit output piece.render⟩ := by
  cases piece with
  | literal c => exact formatStep_literal c.property.1 rest arguments output
  | percent => rfl
  | character value =>
      have hconversion : 'c' ∈ conversions := by decide
      have hread := directive_eq (by simp) noFlags noWidth none .none hconversion rest
        (.integer 32 value :: arguments) output
      refine Eq.trans hread ?_
      rw [Modifier.code, convert_character]
      rfl
  | string flags width precision text =>
      have hconversion : 's' ∈ conversions := by decide
      have hread := directive_eq (by simp) flags width precision .none hconversion rest
        (.pointer text.address text.chars :: arguments) output
      rw [Modifier.code, convert_string] at hread
      simp only [Piece.text, Piece.arguments, List.cons_append, List.append_assoc,
        List.nil_append]
      exact hread
  | signed conversion flags width modifier value =>
      have hall : ∀ c ∈ ['d', 'i'], c ∈ conversions := forall_mem_of_all (by decide)
      have hread := directive_eq (by simp) flags width none modifier
        (hall conversion.val conversion.property) rest
        (.integer modifier.bits value :: arguments) output
      rw [convert_signed] at hread
      simp only [Piece.text, Piece.arguments, List.cons_append, List.append_assoc,
        List.nil_append]
      exact hread
  | unsigned conversion flags width modifier value =>
      have hall : ∀ c ∈ ['u', 'x', 'X', 'o'], c ∈ conversions := forall_mem_of_all (by decide)
      have hread := directive_eq (by simp) flags width none modifier
        (hall conversion.val conversion.property) rest
        (.integer modifier.bits value :: arguments) output
      rw [convert_unsigned] at hread
      simp only [Piece.text, Piece.arguments, List.cons_append, List.append_assoc,
        List.nil_append]
      exact hread

theorem text_ne_nil (piece : Piece) : piece.text ≠ [] := by
  cases piece <;> exact List.cons_ne_nil _ _

/-- The loop prints the pieces one after the other; it ends before its turns do. -/
theorem formatLoop_eq (pieces : List Piece) (others : List Argument) (output : OutputBuffer)
    {turns : Nat} (hturns : (formatText pieces).length ≤ turns) :
    formatLoop turns ⟨formatText pieces, pieces.flatMap Piece.arguments ++ others, output⟩ =
      some ⟨[], others, emit output (rendering pieces)⟩ := by
  induction pieces generalizing turns output with
  | nil =>
      cases turns with
      | zero => rfl
      | succ turns => rfl
  | cons piece pieces ih =>
      have htext : formatText (piece :: pieces) = piece.text ++ formatText pieces := rfl
      have hrender : rendering (piece :: pieces) = piece.render ++ rendering pieces := rfl
      have hpos := List.length_pos_iff.mpr (text_ne_nil piece)
      rw [htext, List.length_append] at hturns
      cases turns with
      | zero => omega
      | succ turns =>
          have hne : piece.text ++ formatText pieces ≠ [] := by simp [text_ne_nil piece]
          rw [htext, hrender, List.flatMap_cons, List.append_assoc, formatLoop, if_neg hne,
            formatStep_piece, Option.bind_some, ih _ (by omega), emit_emit]

end MoonlightScarlet.Sys.Vsnprintf
