import MoonlightScarlet.Support.Words
import MoonlightScarlet.Sys.Proofs.Strtol
/-!
# Where strtol and strtoul do what C asks

The scan of the code agrees with the subject sequence but for a bare prefix and, in
`strtol`, for what may stand behind a sign; the value agrees as long as it does not
overflow.
-/

namespace MoonlightScarlet.Sys.Strtol

open Support.Numerals

/-! ## strtoul -/

theorem dropWhile_eq_iff {p : Char → Bool} (text : List Char) :
    text.dropWhile p = text ↔ text.takeWhile p = [] := by
  have hsplit := List.takeWhile_append_dropWhile (p := p) (l := text)
  constructor
  · intro h
    rw [h] at hsplit
    exact List.append_left_eq_self.mp hsplit
  · intro h
    rw [h, List.nil_append] at hsplit
    exact hsplit

theorem strtoul_eq (string : List Char) (base : Nat) :
    strtoul string base =
      let (radix, digits) := readBase base (body string)
      if digits.takeWhile (isDigit radix) = [] then (0, string)
      else
        let value := UInt64.ofNat (number digit radix (digits.takeWhile (isDigit radix)))
        (if minus string then 0 - value else value, digits.dropWhile (isDigit radix)) := by
  obtain ⟨radix, digits, hread⟩ : ∃ radix digits, readBase base (body string) = (radix, digits) :=
    ⟨_, _, rfl⟩
  unfold strtoul
  rw [hread]
  rw [body] at hread
  dsimp only
  rw [hread]
  dsimp only
  rw [readDigits_zero]
  dsimp only [minus]
  by_cases hnil : digits.takeWhile (isDigit radix) = []
  · rw [if_pos hnil, if_pos ((dropWhile_eq_iff digits).mpr hnil), hnil]
    have hzero : UInt64.ofNat (number digit radix []) = 0 := rfl
    rw [hzero]
    cases (readSign (skipSpace string)).1 <;> rfl
  · rw [if_neg hnil, if_neg fun h => hnil ((dropWhile_eq_iff digits).mp h)]
    rfl

theorem strtoul_bare {string : List Char} {base : Nat} (hbare : bareHex base (body string) = true) :
    strtoul string base = (0, string) := by
  obtain ⟨hhex, hnil⟩ := bareHex_iff.mp hbare
  rw [strtoul_eq, readBase_hex hhex.1 hhex.2]
  exact if_pos hnil

theorem strtoul_none {string : List Char} {base : Nat} (hscan : scan base (body string) = none) :
    strtoul string base = (0, string) := by
  rw [scan] at hscan
  rw [strtoul_eq]
  split at hscan
  · cases hscan
  · dsimp only at hscan ⊢
    split at hscan
    · next hnil => exact if_pos hnil
    · cases hscan

theorem strtoul_some {string rest : List Char} {base n : Nat}
    (hbare : ¬bareHex base (body string) = true)
    (hscan : scan base (body string) = some (n, rest)) :
    strtoul string base =
      (if minus string then 0 - UInt64.ofNat n else UInt64.ofNat n, rest) := by
  rw [scan, if_neg hbare] at hscan
  rw [strtoul_eq]
  dsimp only at hscan ⊢
  split at hscan
  · cases hscan
  · next hne =>
      cases hscan
      exact if_neg hne

/-- The number of the string is in the range of the type, or it wraps to `ULONG_MAX`; and
the string is not a bare prefix. -/
def UnsignedOk (base : Nat) (string : List Char) : Prop :=
  ¬bareHex base (body string) ∧ ∀ negative n rest, Reads base string negative n rest →
    n < 2 ^ 64 ∨ n % 2 ^ 64 = if negative then 1 else 2 ^ 64 - 1

theorem unsignedValue_iff (negative : Bool) (n : Nat) :
    (if negative then 0 - UInt64.ofNat n else UInt64.ofNat n) = unsignedValue negative n ↔
      n < 2 ^ 64 ∨ n % 2 ^ 64 = if negative then 1 else 2 ^ 64 - 1 := by
  by_cases hlt : n < 2 ^ 64
  · exact iff_of_true (by rw [unsignedValue, if_pos hlt]) (.inl hlt)
  · have hmax : unsignedValue negative n = UInt64.ofNat (2 ^ 64 - 1) := if_neg hlt
    have hnumber : (UInt64.ofNat n).toNat = n % 2 ^ 64 := UInt64.toNat_ofNat'
    have hlast : (UInt64.ofNat (2 ^ 64 - 1)).toNat = 2 ^ 64 - 1 := UInt64.toNat_ofNat'
    rw [hmax, ← UInt64.toNat_inj, hlast, or_iff_right hlt]
    cases negative with
    | false => exact Eq.congr_left hnumber
    | true =>
        have hzero : (0 : UInt64).toNat = 0 := rfl
        simp only [if_true]
        rw [UInt64.toNat_sub, hnumber, hzero]
        omega

/-- What a result that is read must be. -/
theorem conforms_some {α : Type} {value : Bool → Nat → α} {zero : α} {base n : Nat}
    {string rest : List Char} (hscan : scan base (body string) = some (n, rest)) {result : α}
    {stop : List Char} :
    Conforms value zero base string (result, stop) ↔
      stop = rest ∧ result = value (minus string) n := by
  constructor
  · rintro (⟨negative, m, hreads, hvalue⟩ | ⟨hnone, -⟩)
    · obtain ⟨hfound, rfl⟩ := reads_iff.mp hreads
      rw [hscan] at hfound
      cases hfound
      exact ⟨rfl, hvalue⟩
    · rw [noSubject_iff.mp hnone] at hscan
      cases hscan
  · rintro ⟨rfl, hvalue⟩
    exact .inl ⟨_, n, reads_iff.mpr ⟨hscan, rfl⟩, hvalue⟩

theorem conforms_none {α : Type} {value : Bool → Nat → α} {zero : α} {base : Nat}
    {string : List Char} (hscan : scan base (body string) = none) {result : α × List Char} :
    Conforms value zero base string result ↔ result = (zero, string) := by
  constructor
  · rintro (⟨negative, m, hreads, -⟩ | ⟨-, hresult⟩)
    · rw [(reads_iff.mp hreads).1] at hscan
      cases hscan
    · exact hresult
  · exact fun hresult => .inr ⟨noSubject_iff.mpr hscan, hresult⟩

theorem eq_drop_one_of_bare {string : List Char} {base : Nat}
    (hbare : bareHex base (body string) = true) :
    scan base (body string) = some (0, (body string).drop 1) := if_pos hbare

theorem length_body_le (string : List Char) : (body string).length ≤ string.length := by
  have hsign := congrArg List.length (signText_append (skipSpace string))
  have hspace := List.length_dropWhile_le isSpace string
  rw [List.length_append] at hsign
  rw [← skipSpace_eq] at hspace
  rw [body]
  omega

/-- What is left behind a number is shorter. -/
theorem length_lt_of_scan {base n : Nat} {text rest : List Char}
    (hscan : scan base text = some (n, rest)) : rest.length < text.length := by
  obtain ⟨part, rfl, hnumeral, -⟩ := scan_some hscan
  obtain ⟨c, tail, rfl, -⟩ := hnumeral.head
  rw [List.length_append, List.length_cons]
  omega

theorem strtoul_conforms_iff (base : Nat) (string : List Char) :
    ConformsUnsigned base string (strtoul string base) ↔ UnsignedOk base string := by
  unfold ConformsUnsigned UnsignedOk
  by_cases hbare : bareHex base (body string) = true
  · have hscan := eq_drop_one_of_bare hbare
    have hlt := length_lt_of_scan hscan
    have hle := length_body_le string
    rw [strtoul_bare hbare, conforms_some hscan]
    refine iff_of_false (fun ⟨hstop, _⟩ => ?_) fun h => h.1 hbare
    rw [← hstop] at hlt
    omega
  cases hscan : scan base (body string) with
  | none =>
      rw [strtoul_none hscan, conforms_none hscan]
      refine iff_of_true rfl ⟨hbare, fun negative n rest hreads => ?_⟩
      rw [(reads_iff.mp hreads).1] at hscan
      cases hscan
  | some found =>
      obtain ⟨n, rest⟩ := found
      rw [strtoul_some hbare hscan, conforms_some hscan, unsignedValue_iff]
      constructor
      · rintro ⟨-, hvalue⟩
        refine ⟨hbare, fun negative m rest' hreads => ?_⟩
        obtain ⟨hfound, rfl⟩ := reads_iff.mp hreads
        rw [hscan] at hfound
        cases hfound
        exact hvalue
      · rintro ⟨-, hvalue⟩
        exact ⟨rfl, hvalue _ n rest (reads_iff.mpr ⟨hscan, rfl⟩)⟩

/-! ## strtol -/

/-- White space or a second sign, which `strtoul` skips and C does not allow here. -/
def startsBlank : List Char → Bool
  | [] => false
  | c :: _ => isSpace c || c = '+' || c = '-'

/-- The number is in the range of the type, or it wraps to `LONG_MAX`; the string is not a
bare prefix; and white space or a second sign behind a sign is not followed by a number
that `strtoul` reads. -/
def SignedOk (base : Nat) (string : List Char) : Prop :=
  ¬bareHex base (body string) ∧
    (∀ negative n rest, Reads base string negative n rest →
      n < 2 ^ 63 ∨ negative = false ∧ n % 2 ^ 64 = 2 ^ 63 - 1) ∧
    (startsBlank (body string) → ∀ negative n rest, Reads base (body string) negative n rest →
      bareHex base (body (body string)))

theorem toInt_toInt64 (n : Nat) :
    (UInt64.ofNat n).toInt64.toInt = (n : Int).bmod (2 ^ 64) := BitVec.toInt_ofNat' n

theorem toInt_signedValue (negative : Bool) (n : Nat) :
    (signedValue negative n).toInt =
      max (-2 ^ 63) (min (if negative then -(n : Int) else n) (2 ^ 63 - 1)) :=
  Int64.toInt_ofInt_of_le (by omega) (by omega)

theorem signedValue_false_iff (n : Nat) :
    (UInt64.ofNat n).toInt64 = signedValue false n ↔
      n < 2 ^ 63 ∨ n % 2 ^ 64 = 2 ^ 63 - 1 := by
  rw [← Int64.toInt_inj, toInt_toInt64, toInt_signedValue]
  simp only [Bool.false_eq_true, if_false]
  rw [Int.bmod_def]
  split <;> omega

theorem signedValue_true_iff (n : Nat) :
    ((UInt64.ofNat n).toInt64 ≠ Int64.minValue ∧
      -(UInt64.ofNat n).toInt64 = signedValue true n) ↔ n < 2 ^ 63 := by
  have hmin : (UInt64.ofNat n).toInt64 = Int64.minValue ↔ (n : Int).bmod (2 ^ 64) = -2 ^ 63 := by
    rw [← Int64.toInt_inj, toInt_toInt64]
    rfl
  have hneg : -(UInt64.ofNat n).toInt64 = signedValue true n ↔
      (-(n : Int).bmod (2 ^ 64)).bmod (2 ^ 64) = max (-2 ^ 63) (min (-(n : Int)) (2 ^ 63 - 1)) := by
    rw [← Int64.toInt_inj, Int64.toInt_neg, toInt_toInt64, toInt_signedValue, if_pos rfl]
  rw [ne_eq, hmin, hneg, Int.bmod_def, Int.bmod_def]
  split <;> split <;> omega

theorem strtol_eq {string parsedEnd : List Char} {base : Nat} {magnitude : UInt64}
    (h : strtoul (body string) base = (magnitude, parsedEnd)) :
    strtol string base =
      let stop := if parsedEnd = body string then string else parsedEnd
      if minus string then
        if magnitude.toInt64 = Int64.minValue then none else some (-magnitude.toInt64, stop)
      else some (magnitude.toInt64, stop) := by
  rw [body] at h
  unfold strtol body minus
  dsimp only
  rw [h]

/-- Without a number, `strtol` gives zero and the start of the string. -/
theorem strtol_nothing {string : List Char} {base : Nat}
    (h : strtoul (body string) base = (0, body string)) :
    strtol string base = some (0, string) := by
  have hzero : UInt64.toInt64 0 ≠ Int64.minValue := by decide
  rw [strtol_eq h]
  dsimp only
  rw [if_pos rfl, if_neg hzero]
  split <;> rfl

/-- The sign of a text that starts with neither white space nor a sign. -/
theorem readSign_of_not_blank {text : List Char} (h : ¬startsBlank text = true) :
    body text = text ∧ minus text = false := by
  cases text with
  | nil => exact ⟨rfl, rfl⟩
  | cons c text =>
      simp only [startsBlank, Bool.or_eq_true, decide_eq_true_eq, not_or] at h
      obtain ⟨⟨hspace, hplus⟩, hminus⟩ := h
      have hskip : skipSpace (c :: text) = c :: text := if_neg hspace
      have hread : readSign (c :: text) = (false, c :: text) :=
        (@readSign_plain (c :: text) (fun h => hplus (Option.some.inj h))
          fun h => hminus (Option.some.inj h)).1
      exact ⟨by rw [body, hskip, hread], by rw [minus, hskip, hread]⟩

/-- C finds no number behind white space or a second sign. -/
theorem scan_of_blank (base : Nat) {text : List Char} (h : startsBlank text = true) :
    scan base text = none := by
  rw [Option.eq_none_iff_forall_ne_some]
  rintro ⟨n, rest⟩ hscan
  obtain ⟨part, rfl, hnumeral, -⟩ := scan_some hscan
  obtain ⟨c, tail, rfl, hc⟩ := hnumeral.head
  simp only [List.cons_append, startsBlank, isSpace, Bool.or_eq_true, decide_eq_true_eq] at h
  obtain ((((((rfl | rfl) | rfl) | rfl) | rfl) | rfl) | rfl) | rfl := h <;> cases hc

/-- A number that `strtoul` reads is where `*end` points behind. -/
theorem strtol_number {string rest : List Char} {base n : Nat} {magnitude : UInt64}
    (hscan : scan base (body (body string)) = some (n, rest))
    (h : strtoul (body string) base = (magnitude, rest)) :
    strtol string base =
      if minus string then
        if magnitude.toInt64 = Int64.minValue then none else some (-magnitude.toInt64, rest)
      else some (magnitude.toInt64, rest) := by
  have hlt := length_lt_of_scan hscan
  have hle := length_body_le (body string)
  have hne : rest ≠ body string := by
    rintro rfl
    omega
  rw [strtol_eq h]
  dsimp only
  rw [if_neg hne]

theorem conformsSigned_none {string : List Char} {base : Nat}
    (hscan : scan base (body string) = none) {result : Option (Int64 × List Char)} :
    ConformsSigned base string result ↔ result = some (0, string) := by
  constructor
  · rintro ⟨answer, rfl, hanswer⟩
    rw [(conforms_none hscan).mp hanswer]
  · rintro rfl
    exact ⟨_, rfl, (conforms_none hscan).mpr rfl⟩

theorem conformsSigned_some {string rest stop : List Char} {base n : Nat}
    (hscan : scan base (body string) = some (n, rest)) {result : Int64} :
    ConformsSigned base string (some (result, stop)) ↔
      stop = rest ∧ result = signedValue (minus string) n := by
  rw [← conforms_some hscan]
  exact ⟨fun ⟨_, hresult, hanswer⟩ => Option.some.inj hresult ▸ hanswer, fun h => ⟨_, rfl, h⟩⟩

/-- Behind a sign that is followed by white space or a second sign. -/
theorem conforms_blank {string : List Char} {base : Nat}
    (hblank : startsBlank (body string) = true) :
    ConformsSigned base string (strtol string base) ↔ SignedOk base string := by
  have hnone := scan_of_blank base hblank
  have hbare : ¬bareHex base (body string) = true := by
    intro hbare
    rw [eq_drop_one_of_bare hbare] at hnone
    cases hnone
  have hreads : ∀ negative n rest, ¬Reads base string negative n rest := by
    intro negative n rest hreads
    rw [(reads_iff.mp hreads).1] at hnone
    cases hnone
  have hok : SignedOk base string ↔ ∀ negative n rest, Reads base (body string) negative n rest →
      bareHex base (body (body string)) = true :=
    ⟨fun h => h.2.2 hblank, fun h => ⟨hbare, fun negative n rest hread =>
      absurd hread (hreads negative n rest), fun _ => h⟩⟩
  rw [hok, conformsSigned_none hnone]
  by_cases hsecond : bareHex base (body (body string)) = true
  · exact iff_of_true (strtol_nothing (strtoul_bare hsecond)) fun _ _ _ _ => hsecond
  cases hscan : scan base (body (body string)) with
  | none =>
      refine iff_of_true (strtol_nothing (strtoul_none hscan)) fun negative n rest hread => ?_
      rw [(reads_iff.mp hread).1] at hscan
      cases hscan
  | some found =>
      obtain ⟨n, rest⟩ := found
      refine iff_of_false (fun hresult => ?_) fun h =>
        hsecond (h _ n rest (reads_iff.mpr ⟨hscan, rfl⟩))
      have hlt := length_lt_of_scan hscan
      have hle := length_body_le string
      have hle' := length_body_le (body string)
      have hstop : rest = string := by
        obtain ⟨magnitude, hmagnitude⟩ : ∃ magnitude, strtoul (body string) base =
            (magnitude, rest) := ⟨_, strtoul_some hsecond hscan⟩
        rw [strtol_number hscan hmagnitude] at hresult
        split at hresult
        · split at hresult
          · cases hresult
          · exact congrArg Prod.snd (Option.some.inj hresult)
        · exact congrArg Prod.snd (Option.some.inj hresult)
      rw [hstop] at hlt
      omega

/-- Without a sign, or with the digits right behind it. -/
theorem conforms_direct {string : List Char} {base : Nat}
    (hblank : ¬startsBlank (body string) = true) :
    ConformsSigned base string (strtol string base) ↔ SignedOk base string := by
  obtain ⟨hbody, hminus⟩ := readSign_of_not_blank hblank
  by_cases hbare : bareHex base (body string) = true
  · have hscan := eq_drop_one_of_bare hbare
    have hlt := length_lt_of_scan hscan
    have hle := length_body_le string
    have hsecond : bareHex base (body (body string)) = true := by rw [hbody, hbare]
    rw [strtol_nothing (strtoul_bare hsecond), conformsSigned_some hscan]
    refine iff_of_false (fun ⟨hstop, _⟩ => ?_) fun h => h.1 hbare
    rw [← hstop] at hlt
    omega
  cases hscan : scan base (body string) with
  | none =>
      have hsecond : scan base (body (body string)) = none := by rw [hbody, hscan]
      rw [strtol_nothing (strtoul_none hsecond), conformsSigned_none hscan]
      refine iff_of_true rfl ⟨hbare, fun negative n rest hreads => ?_, fun h => absurd h hblank⟩
      rw [(reads_iff.mp hreads).1] at hscan
      cases hscan
  | some found =>
      obtain ⟨n, rest⟩ := found
      have hsecond : scan base (body (body string)) = some (n, rest) := by rw [hbody, hscan]
      have hbare' : ¬bareHex base (body (body string)) = true := by rwa [hbody]
      have hunsigned := strtoul_some hbare' hsecond
      rw [hminus, if_neg Bool.false_ne_true] at hunsigned
      have hok : SignedOk base string ↔
          n < 2 ^ 63 ∨ minus string = false ∧ n % 2 ^ 64 = 2 ^ 63 - 1 := by
        constructor
        · exact fun h => h.2.1 _ n rest (reads_iff.mpr ⟨hscan, rfl⟩)
        · refine fun h => ⟨hbare, fun negative m rest' hreads => ?_, fun h => absurd h hblank⟩
          obtain ⟨hfound, rfl⟩ := reads_iff.mp hreads
          rw [hscan] at hfound
          cases hfound
          exact h
      rw [hok, strtol_number hsecond hunsigned]
      cases hsign : minus string with
      | false =>
          simp only [Bool.false_eq_true, if_false, true_and]
          rw [conformsSigned_some hscan, hsign, and_iff_right rfl, signedValue_false_iff]
      | true =>
          have hnot : ¬(true = false ∧ n % 2 ^ 64 = 2 ^ 63 - 1) := fun h => nomatch h.1
          rw [if_pos rfl, or_iff_left hnot, ← signedValue_true_iff]
          split
          · next hmin =>
              exact iff_of_false (fun ⟨_, hresult, _⟩ => nomatch hresult) fun h => h.1 hmin
          · next hmin =>
              rw [conformsSigned_some hscan, hsign, and_iff_right rfl]
              exact ⟨fun h => ⟨hmin, h⟩, fun h => h.2⟩

theorem strtol_conforms_iff (base : Nat) (string : List Char) :
    ConformsSigned base string (strtol string base) ↔ SignedOk base string := by
  by_cases hblank : startsBlank (body string) = true
  · exact conforms_blank hblank
  · exact conforms_direct hblank

/-! ## Both functions -/

theorem strtol_strtoul_iff (base : Nat) (string : List Char) :
    (ConformsSigned base string (strtol string base) ↔ SignedOk base string) ∧
      (ConformsUnsigned base string (strtoul string base) ↔ UnsignedOk base string) :=
  ⟨strtol_conforms_iff base string, strtoul_conforms_iff base string⟩

/-- A sign in front of a second one is no number in C. -/
theorem strtol_strtoul_second_sign :
    ¬∀ base string, ConformsSigned base string (strtol string base) ∧
      ConformsUnsigned base string (strtoul string base) := by
  intro h
  have hscan : scan 10 (body ['-', '+', '5']) = none := by decide
  have hresult := (conformsSigned_none hscan).mp (h 10 ['-', '+', '5']).1
  exact absurd hresult (by decide)

end MoonlightScarlet.Sys.Strtol
