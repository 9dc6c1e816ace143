import MoonlightScarlet.Sys.SubjectSequence
/-!
# What strtol and strtoul accept

The loops of the code against the subject sequence of C.
-/

namespace MoonlightScarlet.Sys.Strtol

open Support.Numerals

/-! ## Characters -/

theorem isAlphanum_eq (c : Char) : c.isAlphanum = (c.isUpper || c.isLower || c.isDigit) := rfl

theorem digitValue_eq (c : Char) :
    digitValue c = if c.isAlphanum then (digit c : Int) else -1 := by
  unfold digitValue digit
  simp only [digit_range_iff, lower_range_iff, upper_range_iff, isAlphanum_eq]
  have hzero : '0'.toNat = 48 := rfl
  have ha : 'a'.toNat = 97 := rfl
  have hA : 'A'.toNat = 65 := rfl
  by_cases hdigit : c.isDigit = true
  · have hle := toNat_of_isDigit hdigit
    simp only [hdigit, if_true, Bool.or_true]
    omega
  by_cases hlower : c.isLower = true
  · have hle := toNat_of_isLower hlower
    simp only [hdigit, hlower, if_true, Bool.or_true, Bool.true_or, Bool.false_eq_true, if_false]
    omega
  by_cases hupper : c.isUpper = true
  · have hle := toNat_of_isUpper hupper
    simp only [hdigit, hlower, hupper, if_true, Bool.true_or, Bool.false_eq_true, if_false]
    omega
  · simp only [hdigit, hlower, hupper, Bool.or_false, Bool.false_eq_true, if_false]

theorem isDigit_iff (base : Nat) (c : Char) :
    (digitValue c ≥ 0 ∧ digitValue c < base) ↔ isDigit base c = true := by
  rw [digitValue_eq, isDigit, Bool.and_eq_true, decide_eq_true_eq]
  by_cases halnum : c.isAlphanum = true
  · simp only [halnum, if_true, true_and]
    omega
  · simp only [halnum]
    simp

theorem toNat_digitValue {base : Nat} {c : Char} (h : isDigit base c = true) :
    (digitValue c).toNat = digit c := by
  rw [isDigit, Bool.and_eq_true] at h
  rw [digitValue_eq, if_pos h.1, Int.toNat_natCast]

/-! ## Loops -/

theorem skipSpace_eq (value : List Char) : skipSpace value = value.dropWhile isSpace := by
  induction value with
  | nil => rfl
  | cons c value ih => rw [skipSpace, List.dropWhile_cons, ih]

/-- The digits are summed modulo the size of the type. -/
theorem readDigits_eq (base : Nat) (value : List Char) (start : Nat) :
    readDigits base (UInt64.ofNat start) value =
      (UInt64.ofNat ((value.takeWhile (isDigit base)).foldl (fun n c => n * base + digit c) start),
        value.dropWhile (isDigit base)) := by
  induction value generalizing start with
  | nil => rfl
  | cons c value ih =>
      rw [readDigits]
      by_cases hc : isDigit base c = true
      · rw [if_pos ((isDigit_iff base c).mpr hc), toNat_digitValue hc, ← UInt64.ofNat_mul,
          ← UInt64.ofNat_add, ih, List.takeWhile_cons_of_pos hc, List.dropWhile_cons_of_pos hc,
          List.foldl_cons]
      · rw [if_neg fun h => hc ((isDigit_iff base c).mp h), List.takeWhile_cons_of_neg hc,
          List.dropWhile_cons_of_neg hc, List.foldl_nil]

theorem readDigits_zero (base : Nat) (value : List Char) :
    readDigits base 0 value =
      (UInt64.ofNat (number digit base (value.takeWhile (isDigit base))),
        value.dropWhile (isDigit base)) := readDigits_eq base value 0

/-! ## The longest numeral -/

/-- The prefix of hexadecimal digits without a digit behind it. -/
def bareHex (base : Nat) (text : List Char) : Bool :=
  (base = 0 || base = 16) && startsHex text && ((text.drop 2).takeWhile (isDigit 16)).isEmpty

/-- The number at the front of a text, and what is behind it. -/
def scan (base : Nat) (text : List Char) : Option (Nat × List Char) :=
  if bareHex base text then some (0, text.drop 1)
  else
    let (base, digits) := readBase base text
    if digits.takeWhile (isDigit base) = [] then none
    else some (number digit base (digits.takeWhile (isDigit base)),
      digits.dropWhile (isDigit base))

def IsNumeral (base : Nat) (text : List Char) : Prop := ∃ n, Numeral base text n

theorem startsHex_iff {text : List Char} :
    startsHex text = true ↔ ∃ x rest, text = '0' :: x :: rest ∧ (x = 'x' ∨ x = 'X') := by
  constructor
  · intro h
    unfold startsHex at h
    split at h
    · exact ⟨'x', _, rfl, .inl rfl⟩
    · exact ⟨'X', _, rfl, .inr rfl⟩
    · cases h
  · rintro ⟨x, rest, rfl, rfl | rfl⟩ <;> rfl

/-- The letter of the prefix is no digit of any base up to sixteen. -/
theorem isDigit_x {base : Nat} (hbase : base ≤ 16) {x : Char} (hx : x = 'x' ∨ x = 'X') :
    isDigit base x = false := by
  have hdigit : digit x = 33 := by
    obtain rfl | rfl := hx <;> rfl
  rw [isDigit, hdigit, Bool.and_eq_false_iff]
  exact .inr (decide_eq_false (by omega))

theorem digit_zero : digit '0' = 0 := rfl

theorem number_zero_cons (base : Nat) (digits : List Char) :
    number digit base ('0' :: digits) = number digit base digits :=
  number_zeros base (List.forall_mem_singleton.mpr digit_zero) digits

theorem isDigit_zero {base : Nat} (hbase : 0 < base) : isDigit base '0' = true := by
  rw [isDigit, digit_zero, decide_eq_true hbase]
  rfl

/-- The base of a text that does not start as a hexadecimal number. -/
def plainBase (base : Nat) (text : List Char) : Nat :=
  if base = 0 then if text.head? = some '0' then 8 else 10 else base

theorem readBase_plain {base : Nat} {text : List Char}
    (h : ¬((base = 0 ∨ base = 16) ∧ startsHex text = true)) :
    readBase base text = (plainBase base text, text) := by
  rw [readBase, if_neg h, plainBase]
  split <;> rfl

theorem readBase_hex {base : Nat} {text : List Char} (hbase : base = 0 ∨ base = 16)
    (hhex : startsHex text = true) : readBase base text = (16, text.drop 2) :=
  if_pos ⟨hbase, hhex⟩

theorem takeWhile_hex {base : Nat} {text : List Char} (hbase : base = 0 ∨ base = 16)
    (hhex : startsHex text = true) : text.takeWhile (isDigit (plainBase base text)) = ['0'] := by
  obtain ⟨x, rest, rfl, hx⟩ := startsHex_iff.mp hhex
  have hplain : plainBase base ('0' :: x :: rest) = 8 ∨ plainBase base ('0' :: x :: rest) = 16 := by
    obtain rfl | rfl := hbase
    · exact .inl rfl
    · exact .inr rfl
  have hzero : isDigit (plainBase base ('0' :: x :: rest)) '0' = true :=
    isDigit_zero (by omega)
  have hnot := @isDigit_x (plainBase base ('0' :: x :: rest)) (by omega) x hx
  rw [List.takeWhile_cons_of_pos hzero, List.takeWhile_cons_of_neg (by rw [hnot]; nofun)]

/-- The numerals at the front of a text. -/
theorem numeral_cases {base n : Nat} {text part : List Char} (hpart : part <+: text)
    (h : Numeral base part n) :
    (∀ c ∈ part, isDigit (plainBase base text) c = true) ∨
      ((base = 0 ∨ base = 16) ∧ startsHex text = true ∧ ∃ x digits, part = '0' :: x :: digits ∧
        digits ≠ [] ∧ digits <+: text.drop 2 ∧ ∀ c ∈ digits, isDigit 16 c = true) := by
  obtain ⟨rest, rfl⟩ := hpart
  cases h with
  | digits hbase hne hdigits =>
      refine .inl ?_
      rw [plainBase, if_neg hbase]
      exact hdigits
  | hexadecimal hbase hx hne hdigits =>
      refine .inr ⟨hbase, startsHex_iff.mpr ⟨_, _, rfl, hx⟩, _, _, rfl, hne, ⟨rest, rfl⟩, hdigits⟩
  | octal hbase hdigits =>
      subst hbase
      have hplain : ∀ text, plainBase 0 ('0' :: text) = 8 := fun _ => rfl
      rw [List.cons_append, hplain]
      exact .inl (List.forall_mem_cons.mpr ⟨isDigit_zero (by decide), hdigits⟩)
  | decimal hbase hc hdigits =>
      subst hbase
      refine .inl ?_
      rw [plainBase, if_pos rfl, List.cons_append, List.head?_cons,
        if_neg fun h => hc (Option.some.inj h)]
      exact hdigits

/-- A text of digits is a numeral. -/
theorem numeral_plain {base : Nat} {text part : List Char} (hpart : part <+: text)
    (hne : part ≠ []) (hdigits : ∀ c ∈ part, isDigit (plainBase base text) c = true) :
    Numeral base part (number digit (plainBase base text) part) := by
  obtain ⟨rest, rfl⟩ := hpart
  obtain ⟨c, digits, rfl⟩ := List.exists_cons_of_ne_nil hne
  by_cases hbase : base = 0
  · subst hbase
    by_cases hc : c = '0'
    · subst hc
      have hplain : plainBase 0 ('0' :: digits ++ rest) = 8 := rfl
      rw [hplain] at hdigits ⊢
      rw [number_zero_cons]
      exact .octal rfl (List.forall_mem_cons.mp hdigits).2
    · have hplain : plainBase 0 (c :: digits ++ rest) = 10 := by
        rw [plainBase, if_pos rfl, List.cons_append, List.head?_cons,
          if_neg fun h => hc (Option.some.inj h)]
      rw [hplain] at hdigits ⊢
      exact .decimal rfl hc hdigits
  · have hplain : plainBase base (c :: digits ++ rest) = base := if_neg hbase
    rw [hplain] at hdigits ⊢
    exact .digits hbase hne hdigits

theorem length_le_plain {base : Nat} {text part : List Char} (hpart : part <+: text)
    (h : IsNumeral base part) (hhex : ¬((base = 0 ∨ base = 16) ∧ startsHex text = true)) :
    part.length ≤ (text.takeWhile (isDigit (plainBase base text))).length := by
  obtain ⟨n, h⟩ := h
  obtain hdigits | ⟨hbase, hstarts, -⟩ := numeral_cases hpart h
  · exact length_le_takeWhile hpart hdigits
  · exact absurd ⟨hbase, hstarts⟩ hhex

theorem length_le_hex {base : Nat} {text part : List Char} (hpart : part <+: text)
    (h : IsNumeral base part) (hbase : base = 0 ∨ base = 16) (hhex : startsHex text = true) :
    part.length ≤ 1 ∨ (text.drop 2).takeWhile (isDigit 16) ≠ [] ∧
      part.length ≤ 2 + ((text.drop 2).takeWhile (isDigit 16)).length := by
  obtain ⟨n, h⟩ := h
  obtain hdigits | ⟨-, -, x, digits, rfl, hne, hstarts, hdigits⟩ := numeral_cases hpart h
  · have hle := length_le_takeWhile hpart hdigits
    rw [takeWhile_hex hbase hhex] at hle
    exact .inl hle
  · have hle := length_le_takeWhile hstarts hdigits
    have hpos := List.length_pos_of_ne_nil hne
    refine .inr ⟨fun hnil => ?_, ?_⟩
    · rw [hnil, List.length_nil] at hle
      omega
    · rw [List.length_cons, List.length_cons]
      omega

theorem bareHex_iff {base : Nat} {text : List Char} :
    bareHex base text = true ↔ ((base = 0 ∨ base = 16) ∧ startsHex text = true) ∧
      (text.drop 2).takeWhile (isDigit 16) = [] := by
  rw [bareHex, Bool.and_eq_true, Bool.and_eq_true, Bool.or_eq_true, decide_eq_true_eq,
    decide_eq_true_eq, List.isEmpty_iff]

theorem scan_hex {base : Nat} {text : List Char}
    (hhex : (base = 0 ∨ base = 16) ∧ startsHex text = true)
    (hne : (text.drop 2).takeWhile (isDigit 16) ≠ []) :
    scan base text = some (number digit 16 ((text.drop 2).takeWhile (isDigit 16)),
      (text.drop 2).dropWhile (isDigit 16)) := by
  rw [scan, if_neg fun h => hne (bareHex_iff.mp h).2, readBase_hex hhex.1 hhex.2]
  exact if_neg hne

theorem scan_plain {base : Nat} {text : List Char}
    (hhex : ¬((base = 0 ∨ base = 16) ∧ startsHex text = true)) :
    scan base text =
      if text.takeWhile (isDigit (plainBase base text)) = [] then none
      else some (number digit (plainBase base text)
        (text.takeWhile (isDigit (plainBase base text))),
        text.dropWhile (isDigit (plainBase base text))) := by
  rw [scan, if_neg fun h => hhex (bareHex_iff.mp h).1, readBase_plain hhex]

/-- The scanner takes the longest numeral. -/
theorem scan_some {base n : Nat} {text rest : List Char} (h : scan base text = some (n, rest)) :
    ∃ part, text = part ++ rest ∧ Numeral base part n ∧ Longest (IsNumeral base) text part := by
  by_cases hhex : (base = 0 ∨ base = 16) ∧ startsHex text = true
  · obtain ⟨x, tail, rfl, hx⟩ := startsHex_iff.mp hhex.2
    have hbound := fun part (hpart : part <+: '0' :: x :: tail) (h : IsNumeral base part) =>
      length_le_hex hpart h hhex.1 hhex.2
    by_cases hnil : tail.takeWhile (isDigit 16) = []
    · have hbare := bareHex_iff.mpr ⟨hhex, hnil⟩
      rw [scan, if_pos hbare] at h
      cases h
      have hfront : ['0'] <+: '0' :: x :: tail := ⟨x :: tail, rfl⟩
      have hdigits := all_takeWhile (isDigit (plainBase base ('0' :: x :: tail))) ('0' :: x :: tail)
      rw [takeWhile_hex hhex.1 hhex.2] at hdigits
      have hnumeral := numeral_plain hfront (List.cons_ne_nil _ _) hdigits
      rw [number, List.foldl_cons, List.foldl_nil, Nat.zero_mul, digit_zero] at hnumeral
      refine ⟨['0'], rfl, hnumeral, hfront, ⟨0, hnumeral⟩, fun part hpart hpartNumeral => ?_⟩
      exact (hbound part hpart hpartNumeral).resolve_right fun hmore => hmore.1 hnil
    · rw [scan_hex hhex hnil] at h
      cases h
      have hsplit : '0' :: x :: tail = '0' :: x :: tail.takeWhile (isDigit 16) ++
          tail.dropWhile (isDigit 16) := by
        rw [List.cons_append, List.cons_append, List.takeWhile_append_dropWhile]
      have hnumeral := Numeral.hexadecimal hhex.1 hx hnil (all_takeWhile (isDigit 16) tail)
      refine ⟨_, hsplit, hnumeral, ⟨_, hsplit.symm⟩, ⟨_, hnumeral⟩,
        fun part hpart hpartNumeral => ?_⟩
      have hle := hbound part hpart hpartNumeral
      rw [List.drop_succ_cons, List.drop_succ_cons, List.drop_zero] at hle
      rw [List.length_cons, List.length_cons]
      omega
  · rw [scan_plain hhex] at h
    split at h
    · cases h
    · next hne =>
        cases h
        have hfront := List.takeWhile_prefix (isDigit (plainBase base text)) (l := text)
        have hnumeral := numeral_plain hfront hne (all_takeWhile _ text)
        exact ⟨_, (List.takeWhile_append_dropWhile).symm, hnumeral, hfront, ⟨_, hnumeral⟩,
          fun part hpart hpartNumeral => length_le_plain hpart hpartNumeral hhex⟩

theorem scan_none {base : Nat} {text part : List Char} (h : scan base text = none)
    (hpart : part <+: text) : ¬IsNumeral base part := by
  intro hnumeral
  have hpos : part.length ≠ 0 := by
    obtain ⟨n, hn⟩ := hnumeral
    cases hn with
    | digits hbase hne hdigits => exact fun h => hne (List.length_eq_zero_iff.mp h)
    | _ => nofun
  by_cases hhex : (base = 0 ∨ base = 16) ∧ startsHex text = true
  · by_cases hnil : (text.drop 2).takeWhile (isDigit 16) = []
    · rw [scan, if_pos (bareHex_iff.mpr ⟨hhex, hnil⟩)] at h
      cases h
    · rw [scan_hex hhex hnil] at h
      cases h
  · rw [scan_plain hhex] at h
    split at h
    · next hnil =>
        have hle := length_le_plain hpart hnumeral hhex
        rw [hnil, List.length_nil] at hle
        omega
    · cases h

/-- Digits never start as a hexadecimal number does. -/
theorem startsHex_of_digits {base : Nat} (hbase : base ≤ 16) {text : List Char}
    (h : ∀ c ∈ text, isDigit base c = true) : startsHex text = false := by
  rw [Bool.eq_false_iff]
  intro hhex
  obtain ⟨x, rest, rfl, hx⟩ := startsHex_iff.mp hhex
  have hnot := isDigit_x hbase hx
  rw [h x (by simp)] at hnot
  cases hnot

/-- The number that a numeral stands for is known from its text. -/
theorem Numeral.eq_number {base n : Nat} {text : List Char} (h : Numeral base text n) :
    n = if (base = 0 ∨ base = 16) ∧ startsHex text = true then number digit 16 (text.drop 2)
      else number digit (plainBase base text) text := by
  cases h with
  | digits hbase hne hdigits =>
      have hnot : ¬((base = 0 ∨ base = 16) ∧ startsHex text = true) := by
        rintro ⟨rfl | rfl, hhex⟩
        · exact hbase rfl
        · rw [startsHex_of_digits (Nat.le_refl 16) hdigits] at hhex
          cases hhex
      rw [if_neg hnot, plainBase, if_neg hbase]
  | hexadecimal hbase hx hne hdigits =>
      rw [if_pos ⟨hbase, startsHex_iff.mpr ⟨_, _, rfl, hx⟩⟩]
      rfl
  | @octal digits hbase hdigits =>
      subst hbase
      have hall : ∀ c ∈ '0' :: digits, isDigit 8 c = true :=
        List.forall_mem_cons.mpr ⟨isDigit_zero (by decide), hdigits⟩
      have hplain : plainBase 0 ('0' :: digits) = 8 := rfl
      rw [startsHex_of_digits (by decide) hall, if_neg (fun h => Bool.false_ne_true h.2), hplain]
      exact (number_zero_cons 8 digits).symm
  | @decimal c digits hbase hc hdigits =>
      subst hbase
      have hplain : plainBase 0 (c :: digits) = 10 := by
        rw [plainBase, if_pos rfl, List.head?_cons, if_neg fun h => hc (Option.some.inj h)]
      rw [startsHex_of_digits (by decide) hdigits, if_neg (fun h => Bool.false_ne_true h.2), hplain]

/-- A text stands for one number. -/
theorem Numeral.unique {base n n' : Nat} {text : List Char} (h : Numeral base text n)
    (h' : Numeral base text n') : n = n' := h.eq_number.trans h'.eq_number.symm

/-! ## The subject sequence -/

/-- The text behind the white space and the sign, and whether the sign is a minus. -/
def body (string : List Char) : List Char := (readSign (skipSpace string)).2

def minus (string : List Char) : Bool := (readSign (skipSpace string)).1

/-- A numeral starts with a digit. -/
theorem Numeral.head {base n : Nat} {text : List Char} (h : Numeral base text n) :
    ∃ c rest, text = c :: rest ∧ c.isAlphanum = true := by
  cases h with
  | digits hbase hne hdigits =>
      obtain ⟨c, rest, rfl⟩ := List.exists_cons_of_ne_nil hne
      have hc := hdigits c List.mem_cons_self
      rw [isDigit, Bool.and_eq_true] at hc
      exact ⟨c, rest, rfl, hc.1⟩
  | hexadecimal hbase hx hne hdigits => exact ⟨'0', _, rfl, rfl⟩
  | octal hbase hdigits => exact ⟨'0', _, rfl, rfl⟩
  | decimal hbase hc hdigits =>
      have hc := hdigits _ List.mem_cons_self
      rw [isDigit, Bool.and_eq_true] at hc
      exact ⟨_, _, rfl, hc.1⟩

/-- The sign at the front of a text. -/
def signText (text : List Char) : List Char :=
  if text.head? = some '+' ∨ text.head? = some '-' then text.take 1 else []

theorem readSign_plain {text : List Char} (hplus : text.head? ≠ some '+')
    (hminus : text.head? ≠ some '-') : readSign text = (false, text) ∧ signText text = [] := by
  refine ⟨?_, if_neg fun h => h.elim hplus hminus⟩
  unfold readSign
  split
  · exact absurd rfl hplus
  · exact absurd rfl hminus
  · rfl

theorem signText_append (text : List Char) : text = signText text ++ (readSign text).2 := by
  by_cases hplus : text.head? = some '+'
  · obtain ⟨tail, rfl⟩ := List.head?_eq_some_iff.mp hplus
    rfl
  by_cases hminus : text.head? = some '-'
  · obtain ⟨tail, rfl⟩ := List.head?_eq_some_iff.mp hminus
    rfl
  · obtain ⟨hread, hsign⟩ := readSign_plain hplus hminus
    rw [hread, hsign, List.nil_append]

/-- A numeral has no sign at its front, nor has a text that starts with one. -/
theorem Numeral.head_ne {base n : Nat} {text part : List Char} {c : Char}
    (h : Numeral base part n) (hpart : part <+: text) (hc : c.isAlphanum = false) :
    text.head? ≠ some c := by
  obtain ⟨d, rest, rfl, hd⟩ := h.head
  obtain ⟨tail, rfl⟩ := hpart
  rw [List.cons_append, List.head?_cons]
  rintro ⟨⟩
  rw [hc] at hd
  cases hd

/-- The subjects at the front of a text are its sign with the numerals behind the sign. -/
theorem subject_iff {base n : Nat} {text part : List Char} {negative : Bool} :
    (part <+: text ∧ Subject base part negative n) ↔
      ∃ tail, part = signText text ++ tail ∧ tail <+: (readSign text).2 ∧
        Numeral base tail n ∧ negative = (readSign text).1 := by
  constructor
  · rintro ⟨hpart, hsubject⟩
    cases hsubject with
    | unsigned h =>
        obtain ⟨hread, hsign⟩ := readSign_plain (h.head_ne hpart rfl) (h.head_ne hpart rfl)
        rw [hread, hsign]
        exact ⟨part, rfl, hpart, h, rfl⟩
    | @plus tail n h =>
        obtain ⟨rest, rfl⟩ := hpart
        exact ⟨tail, rfl, ⟨rest, rfl⟩, h, rfl⟩
    | @minus tail n h =>
        obtain ⟨rest, rfl⟩ := hpart
        exact ⟨tail, rfl, ⟨rest, rfl⟩, h, rfl⟩
  · rintro ⟨tail, rfl, htail, h, rfl⟩
    refine ⟨?_, ?_⟩
    · conv => rhs; rw [signText_append text]
      exact (List.prefix_append_right_inj _).mpr htail
    · by_cases hplus : text.head? = some '+'
      · obtain ⟨rest, rfl⟩ := List.head?_eq_some_iff.mp hplus
        exact .plus h
      by_cases hminus : text.head? = some '-'
      · obtain ⟨rest, rfl⟩ := List.head?_eq_some_iff.mp hminus
        exact .minus h
      · obtain ⟨hread, hsign⟩ := readSign_plain hplus hminus
        rw [hread, hsign]
        exact .unsigned h

/-- White space in front of a subject is what the code skips. -/
theorem skipSpace_subject {base n : Nat} {space subject rest : List Char} {negative : Bool}
    (hspace : ∀ c ∈ space, isSpace c = true) (hsubject : Subject base subject negative n) :
    skipSpace (space ++ (subject ++ rest)) = subject ++ rest := by
  have hhead : ∃ c tail, subject = c :: tail ∧ isSpace c = false := by
    cases hsubject with
    | unsigned h =>
        obtain ⟨c, tail, rfl, hc⟩ := h.head
        refine ⟨c, tail, rfl, ?_⟩
        rw [Bool.eq_false_iff]
        intro hspace
        simp only [isSpace, Bool.or_eq_true, decide_eq_true_eq] at hspace
        obtain ((((rfl | rfl) | rfl) | rfl) | rfl) | rfl := hspace <;> cases hc
    | plus h => exact ⟨'+', _, rfl, rfl⟩
    | minus h => exact ⟨'-', _, rfl, rfl⟩
  obtain ⟨c, tail, rfl, hc⟩ := hhead
  rw [skipSpace_eq, List.dropWhile_append_of_pos hspace, List.cons_append,
    List.dropWhile_cons_of_neg (by rw [hc]; nofun)]

/-- A subject at the front of what follows the white space is a numeral behind the sign. -/
theorem numeral_of_subject {base n : Nat} {string space subject rest : List Char}
    {negative : Bool} (hstring : string = space ++ (subject ++ rest))
    (hspace : ∀ c ∈ space, isSpace c = true) (hsubject : Subject base subject negative n) :
    skipSpace string = subject ++ rest ∧ negative = minus string ∧
      ∃ part, subject = signText (skipSpace string) ++ part ∧ body string = part ++ rest ∧
        Numeral base part n := by
  have hskip : skipSpace string = subject ++ rest := by
    rw [hstring, skipSpace_subject hspace hsubject]
  have hpart : subject <+: skipSpace string := ⟨rest, hskip.symm⟩
  obtain ⟨part, hsign, -, hnumeral, hminus⟩ := subject_iff.mp ⟨hpart, hsubject⟩
  refine ⟨hskip, hminus, part, hsign, ?_, hnumeral⟩
  have hsplit := signText_append (skipSpace string)
  have hboth : signText (skipSpace string) ++ (part ++ rest) =
      signText (skipSpace string) ++ body string := by
    rw [← List.append_assoc, ← hsign, ← hskip]
    exact hsplit
  exact (List.append_cancel_left hboth).symm

theorem reads_iff {base n : Nat} {string rest : List Char} {negative : Bool} :
    Reads base string negative n rest ↔
      scan base (body string) = some (n, rest) ∧ negative = minus string := by
  constructor
  · rintro ⟨space, subject, hstring, hspace, hsubject, hlongest⟩
    obtain ⟨hskip, hminus, part, hsign, hbody, hnumeral⟩ :=
      numeral_of_subject hstring hspace hsubject
    refine ⟨?_, hminus⟩
    have hlongestPart : Longest (IsNumeral base) (body string) part := by
      refine ⟨⟨rest, hbody.symm⟩, ⟨n, hnumeral⟩, fun other hother ⟨m, hm⟩ => ?_⟩
      obtain ⟨hstarts, hsubjectOther⟩ := subject_iff.mpr ⟨other, rfl, hother, hm, rfl⟩
      rw [← hskip] at hlongest
      have hle := hlongest.longest _ hstarts ⟨_, _, hsubjectOther⟩
      have hlength := congrArg List.length hsign
      rw [List.length_append] at hle hlength
      omega
    cases hscan : scan base (body string) with
    | none => exact absurd ⟨n, hnumeral⟩ (scan_none hscan hlongestPart.starts)
    | some found =>
        obtain ⟨part', hbody', hnumeral', hlongest'⟩ := scan_some hscan
        obtain rfl := hlongestPart.unique hlongest'
        rw [hbody] at hbody'
        rw [hnumeral.unique hnumeral', List.append_cancel_left hbody']
  · rintro ⟨hscan, rfl⟩
    obtain ⟨part, hbody, hnumeral, hlongest⟩ := scan_some hscan
    have hskip : skipSpace string = signText (skipSpace string) ++ part ++ rest := by
      rw [List.append_assoc, ← hbody]
      exact signText_append (skipSpace string)
    obtain ⟨hstarts, hsubject⟩ := subject_iff.mpr ⟨part, rfl, hlongest.starts, hnumeral, rfl⟩
    refine ⟨string.takeWhile isSpace, signText (skipSpace string) ++ part, ?_,
      all_takeWhile isSpace string, hsubject, ?_⟩
    · rw [← hskip, skipSpace_eq, List.takeWhile_append_dropWhile]
    · rw [← hskip]
      refine ⟨hstarts, ⟨_, _, hsubject⟩, fun other hother ⟨negative, m, hm⟩ => ?_⟩
      obtain ⟨tail, rfl, htail, hnumeralTail, -⟩ := subject_iff.mp ⟨hother, hm⟩
      have hle := hlongest.longest tail htail ⟨m, hnumeralTail⟩
      rw [List.length_append, List.length_append]
      omega

theorem noSubject_iff {base : Nat} {string : List Char} :
    NoSubject base string ↔ scan base (body string) = none := by
  constructor
  · intro h
    cases hscan : scan base (body string) with
    | none => rfl
    | some found =>
        obtain ⟨space, subject, hstring, hspace, hsubject, -⟩ := reads_iff.mpr ⟨hscan, rfl⟩
        exact absurd hsubject (h space subject _ _ _ hstring hspace)
  · intro hscan space subject rest negative n hstring hspace hsubject
    obtain ⟨-, -, part, -, hbody, hnumeral⟩ := numeral_of_subject hstring hspace hsubject
    exact scan_none hscan ⟨rest, hbody.symm⟩ ⟨n, hnumeral⟩

end MoonlightScarlet.Sys.Strtol
