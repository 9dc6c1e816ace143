import MoonlightScarlet.Support.Numerals
import MoonlightScarlet.Sys.Strtok
/-!
# Tokens of a string

Each call takes the first run of characters that are no delimiters from what the calls
before it have left.
-/

namespace MoonlightScarlet.Sys.Strtok

open Support.Numerals Vsnprintf

namespace Tokenizer

/-- The string that a pointer into the buffer points to. -/
def stringAt (t : Tokenizer) (pointer : Nat) : List Char :=
  (t.buffer.drop pointer).takeWhile (· ≠ nul)

/-- The text that no call has consumed yet. -/
def remaining (t : Tokenizer) : List Char := t.stringAt t.state

end Tokenizer

/-- One call: a token is the first run without delimiters and ends where the string does,
or at a delimiter that becomes its NUL; `NULL` means that only delimiters were left. -/
structure Exact (size : Nat) (delimiters : List Char) (t : Tokenizer) (result : Option Nat)
    (t' : Tokenizer) : Prop where
  inside : t'.state ≤ size
  token : ∀ start, result = some start → ∃ skipped token rest,
    t.remaining = skipped ++ (token ++ rest) ∧ start = t.state + skipped.length ∧
      (∀ c ∈ skipped, c ∈ delimiters) ∧ token ≠ [] ∧ (∀ c ∈ token, c ∉ delimiters) ∧
      (∀ c, rest.head? = some c → c ∈ delimiters) ∧ t'.stringAt start = token ∧
      t'.remaining = rest.drop 1 ∧
      t'.buffer = if rest = [] then t.buffer else t.buffer.set (start + token.length) nul
  null : result = none →
    (∀ c ∈ t.remaining, c ∈ delimiters) ∧ t'.remaining = [] ∧ t'.buffer = t.buffer

/-- One call after the other. -/
inductive Calls (size : Nat) :
    Tokenizer → List (List Char) → List (Option Nat) → Tokenizer → Prop
  | nil (t : Tokenizer) : Calls size t [] [] t
  | cons {t t' t'' : Tokenizer} {delimiters : List Char} {sets : List (List Char)}
      {result : Option Nat} {results : List (Option Nat)}
      (hcall : Exact size delimiters t result t') (hcalls : Calls size t' sets results t'') :
      Calls size t (delimiters :: sets) (result :: results) t''

/-! ## The loops -/

theorem isDelimiter_iff {c : Char} (hc : c ≠ nul) (delimiters : List Char) :
    isDelimiter c delimiters = true ↔ c ∈ delimiters := by
  unfold isDelimiter
  induction delimiters with
  | nil =>
      rw [strchr, if_neg hc.symm]
      exact iff_of_false nofun List.not_mem_nil
  | cons d delimiters ih =>
      rw [strchr, List.mem_cons]
      by_cases hd : d = c
      · rw [if_pos hd]
        exact iff_of_true rfl (.inl hd.symm)
      · rw [if_neg hd, Option.isSome_map, ih]
        exact ⟨.inr, fun h => h.resolve_left fun hcd => hd hcd.symm⟩

/-- A loop stops at the NUL at the latest. -/
theorem scanWhile_eq (keep : Char → Bool) {text : List Char} (htext : nul ∉ text)
    (others : List Char) :
    scanWhile keep (text ++ nul :: others) = some (text.takeWhile keep).length := by
  induction text with
  | nil => exact if_neg fun h => h.1 rfl
  | cons c text ih =>
      rw [List.mem_cons, not_or] at htext
      rw [List.cons_append, scanWhile]
      by_cases hc : keep c = true
      · rw [if_pos ⟨fun h => htext.1 h.symm, hc⟩, ih htext.2, List.takeWhile_cons_of_pos hc]
        rfl
      · rw [if_neg fun h => hc h.2, List.takeWhile_cons_of_neg hc]
        rfl

/-- The text from the saved state on is as it was at the start. -/
structure Untouched (text others : List Char) (t : Tokenizer) : Prop where
  inside : t.state ≤ text.length
  bytes : t.buffer.drop t.state = text.drop t.state ++ nul :: others

theorem takeWhile_nul {text : List Char} (htext : nul ∉ text) (others : List Char) :
    (text ++ nul :: others).takeWhile (· ≠ nul) = text := by
  have hall : ∀ c ∈ text, decide (c ≠ nul) = true := fun c hc =>
    decide_eq_true fun h => htext (h ▸ hc)
  rw [List.takeWhile_append_of_pos hall, List.takeWhile_cons_of_neg (by simp), List.append_nil]

/-! ## One call -/

section Call

variable {text others : List Char} {t : Tokenizer}

theorem Untouched.remaining (h : Untouched text others t) (htext : nul ∉ text) :
    t.remaining = text.drop t.state := by
  rw [Tokenizer.remaining, Tokenizer.stringAt, h.bytes]
  exact takeWhile_nul (fun hmem => htext (List.mem_of_mem_drop hmem)) others

/-- The bytes behind a part of what is not consumed. -/
theorem Untouched.drop (h : Untouched text others t) {part rest : List Char}
    (hsplit : text.drop t.state = part ++ rest) :
    t.buffer.drop (t.state + part.length) = rest ++ nul :: others := by
  rw [← List.drop_drop, h.bytes, hsplit, List.append_assoc, List.drop_left]

theorem getElem?_of_drop {bytes rest : List Char} {c : Char} {i : Nat}
    (h : bytes.drop i = c :: rest) : bytes[i]? = some c := by
  rw [← List.head?_drop, h, List.head?_cons]

/-- The scan for the next token, when there is one. -/
theorem strtokR_token (h : Untouched text others t) {delimiters skipped token rest : List Char}
    (hsplit : text.drop t.state = skipped ++ (token ++ rest)) (htext : nul ∉ text)
    (hskipped : ∀ c ∈ skipped, c ∈ delimiters) (hne : token ≠ [])
    (htoken : ∀ c ∈ token, c ∉ delimiters) (hrest : ∀ c, rest.head? = some c → c ∈ delimiters) :
    strtokR t none delimiters =
      some (some (t.state + skipped.length),
        if rest = [] then ⟨t.buffer, t.state + skipped.length + token.length⟩
        else ⟨t.buffer.set (t.state + skipped.length + token.length) nul,
          t.state + skipped.length + token.length + 1⟩) := by
  have hnul : nul ∉ skipped ++ (token ++ rest) := fun hmem =>
    htext (List.mem_of_mem_drop (hsplit ▸ hmem))
  have hplain : ∀ c ∈ skipped ++ (token ++ rest), c ≠ nul := fun c hc heq => hnul (heq ▸ hc)
  simp only [List.mem_append, not_or] at hnul
  obtain ⟨first, tail, rfl⟩ := List.exists_cons_of_ne_nil hne
  have hfirst : first ≠ nul := hplain first (by simp)
  have hskip : scanWhile (isDelimiter · delimiters) (t.buffer.drop t.state) =
      some skipped.length := by
    have hnot : ¬isDelimiter first delimiters = true := fun h =>
      htoken first List.mem_cons_self ((isDelimiter_iff hfirst delimiters).mp h)
    have hkeep : ∀ c ∈ skipped, isDelimiter c delimiters = true := fun c hc =>
      (isDelimiter_iff (hplain c (List.mem_append_left _ hc)) delimiters).mpr (hskipped c hc)
    have hstop : (first :: (tail ++ rest)).takeWhile (isDelimiter · delimiters) = [] :=
      List.takeWhile_cons_of_neg hnot
    rw [h.bytes, scanWhile_eq _ (fun hmem => htext (List.mem_of_mem_drop hmem)), hsplit,
      List.takeWhile_append_of_pos hkeep, List.cons_append, hstop, List.append_nil]
  have hstart := h.drop hsplit
  have hrun : scanWhile (fun c => !isDelimiter c delimiters)
      (t.buffer.drop (t.state + skipped.length)) = some (first :: tail).length := by
    have hkeep : ∀ c ∈ first :: tail, (!isDelimiter c delimiters) = true := by
      intro c hc
      have hc' := hplain c (List.mem_append_right _ (List.mem_append_left _ hc))
      rw [Bool.not_eq_true', Bool.eq_false_iff]
      exact fun h => htoken c hc ((isDelimiter_iff hc' delimiters).mp h)
    have hstop : rest.takeWhile (fun c => !isDelimiter c delimiters) = [] := by
      cases rest with
      | nil => rfl
      | cons d rest =>
          have hd := (isDelimiter_iff (hplain d (by simp)) delimiters).mpr (hrest d rfl)
          exact List.takeWhile_cons_of_neg (by rw [hd]; nofun)
    rw [hstart, scanWhile_eq _ (by simp only [List.mem_append, not_or]; exact hnul.2),
      List.takeWhile_append_of_pos hkeep, hstop, List.append_nil]
  have hcharacter := getElem?_of_drop hstart
  have hafter : text.drop t.state = (skipped ++ first :: tail) ++ rest := by
    rw [hsplit, List.append_assoc]
  have hend := h.drop hafter
  rw [List.length_append, ← Nat.add_assoc] at hend
  unfold strtokR
  dsimp only [Option.getD_none]
  rw [hskip]
  simp only [Option.bind_eq_bind, Option.bind_some, hcharacter, hfirst, if_false, hrun]
  cases rest with
  | nil =>
      have hlast := getElem?_of_drop hend
      simp only [hlast, Option.bind_some, if_true]
      rfl
  | cons d rest =>
      have hlast := getElem?_of_drop hend
      have hd : d ≠ nul := hplain d (by simp)
      simp only [hlast, Option.bind_some, hd, if_false, List.cons_ne_nil]
      rfl

/-- Only delimiters are left. -/
theorem strtokR_null (h : Untouched text others t) {delimiters : List Char} (htext : nul ∉ text)
    (hall : ∀ c ∈ text.drop t.state, c ∈ delimiters) :
    strtokR t none delimiters = some (none, ⟨t.buffer, text.length⟩) := by
  have hnul : nul ∉ text.drop t.state := fun hmem => htext (List.mem_of_mem_drop hmem)
  have hscan : scanWhile (isDelimiter · delimiters) (t.buffer.drop t.state) =
      some (text.drop t.state).length := by
    rw [h.bytes, scanWhile_eq _ hnul]
    have hkeep : ∀ c ∈ text.drop t.state, isDelimiter c delimiters = true := fun c hc =>
      (isDelimiter_iff (fun heq => hnul (heq ▸ hc)) delimiters).mpr (hall c hc)
    rw [List.takeWhile_eq_self_iff.mpr hkeep]
  have hend : t.state + (text.drop t.state).length = text.length := by
    have hinside := h.inside
    rw [List.length_drop]
    omega
  have hcharacter := getElem?_of_drop (h.drop (List.append_nil _).symm)
  rw [hend] at hcharacter
  unfold strtokR
  dsimp only [Option.getD_none]
  rw [hscan]
  simp only [Option.bind_eq_bind, Option.bind_some, hend, hcharacter, if_true]
  rfl

/-- What a call with a token leaves, when the token ends at the end of the string. -/
theorem Untouched.at_end (h : Untouched text others t) {part : List Char}
    (hsplit : text.drop t.state = part) :
    t.state + part.length = text.length ∧
      Untouched text others ⟨t.buffer, t.state + part.length⟩ := by
  have hinside := h.inside
  have hlength := congrArg List.length hsplit
  rw [List.length_drop] at hlength
  have hend : t.state + part.length = text.length := by omega
  have hbytes := h.drop (hsplit.trans (List.append_nil part).symm)
  refine ⟨hend, ⟨Nat.le_of_eq hend, ?_⟩⟩
  rw [hbytes, hend, List.drop_length]

/-- What a call with a token leaves, when the token ends at a delimiter. -/
theorem Untouched.at_delimiter (h : Untouched text others t) {part rest : List Char} {c : Char}
    (hsplit : text.drop t.state = part ++ c :: rest) :
    Untouched text others
        ⟨t.buffer.set (t.state + part.length) nul, t.state + part.length + 1⟩ ∧
      text.drop (t.state + part.length + 1) = rest := by
  have hone : text.drop t.state = (part ++ [c]) ++ rest := by
    rw [hsplit, List.append_assoc]
    rfl
  have hlength := congrArg List.length hsplit
  rw [List.length_drop, List.length_append, List.length_cons] at hlength
  have hbytes := h.drop hone
  have hrest : text.drop (t.state + part.length + 1) = rest := by
    have hdrop : (part ++ [c] ++ rest).drop (part ++ [c]).length = rest := List.drop_left
    rw [← hone, List.drop_drop, List.length_append, List.length_singleton] at hdrop
    exact hdrop
  refine ⟨⟨by dsimp only; omega, ?_⟩, hrest⟩
  rw [hrest]
  rw [List.length_append, List.length_singleton] at hbytes
  dsimp only
  rw [List.drop_set_of_lt (Nat.lt_succ_self _)]
  exact hbytes

/-- The delimiter behind a token becomes the NUL that ends it. -/
theorem stringAt_token (h : Untouched text others t) {skipped token rest : List Char}
    (hsplit : text.drop t.state = skipped ++ (token ++ rest)) (htext : nul ∉ text)
    (state : Nat) :
    Tokenizer.stringAt ⟨if rest = [] then t.buffer
        else t.buffer.set (t.state + skipped.length + token.length) nul, state⟩
      (t.state + skipped.length) = token := by
  have htoken : nul ∉ token := by
    intro hmem
    have hall : nul ∈ text.drop t.state := by
      rw [hsplit]
      exact List.mem_append_right _ (List.mem_append_left _ hmem)
    exact htext (List.mem_of_mem_drop hall)
  have hstart := h.drop hsplit
  unfold Tokenizer.stringAt
  dsimp only
  cases rest with
  | nil =>
      rw [if_pos rfl, hstart, List.append_nil]
      exact takeWhile_nul htoken others
  | cons c rest =>
      rw [if_neg (List.cons_ne_nil c rest), List.drop_set, if_neg (by omega), hstart,
        Nat.add_sub_cancel_left, List.append_assoc, List.set_append_right _ _ (Nat.le_refl _),
        Nat.sub_self, List.cons_append, List.set_cons_zero]
      exact takeWhile_nul htoken (rest ++ nul :: others)

/-- The first run of characters that are no delimiters. -/
theorem exists_token {delimiters text : List Char} (h : ¬∀ c ∈ text, c ∈ delimiters) :
    ∃ skipped token rest, text = skipped ++ (token ++ rest) ∧
      (∀ c ∈ skipped, c ∈ delimiters) ∧ token ≠ [] ∧ (∀ c ∈ token, c ∉ delimiters) ∧
      ∀ c, rest.head? = some c → c ∈ delimiters := by
  obtain ⟨skipped, tail, rfl, hskipped, htail⟩ := exists_span (fun c => c ∈ delimiters) text
  obtain ⟨token, rest, rfl, htoken, hrest⟩ := exists_span (fun c => decide (c ∉ delimiters)) tail
  simp only [decide_eq_true_eq, decide_eq_false_iff_not, not_not] at hskipped htail htoken hrest
  refine ⟨skipped, token, rest, rfl, hskipped, ?_, htoken, hrest⟩
  rintro rfl
  rw [List.nil_append] at htail h
  refine h fun c hc => (List.mem_append.mp hc).elim (hskipped c) fun hc => ?_
  cases rest with
  | nil => cases hc
  | cons d rest => exact absurd (hrest d rfl) (htail d rfl)

theorem call_exact (h : Untouched text others t) (htext : nul ∉ text)
    (delimiters : List Char) :
    ∃ result t', strtokR t none delimiters = some (result, t') ∧
      Exact text.length delimiters t result t' ∧ Untouched text others t' ∧
      (result ≠ none → t.state < t'.state) ∧ (result = none → t'.state = text.length) := by
  have hremaining := h.remaining htext
  by_cases hall : ∀ c ∈ text.drop t.state, c ∈ delimiters
  · obtain ⟨hend, hafter⟩ := h.at_end rfl
    rw [hend] at hafter
    refine ⟨none, _, strtokR_null h htext hall, ⟨Nat.le_refl _, nofun, fun _ => ?_⟩, hafter,
      fun hne => absurd rfl hne, fun _ => rfl⟩
    rw [hremaining, hafter.remaining htext]
    exact ⟨hall, List.drop_length, rfl⟩
  · obtain ⟨skipped, token, rest, hsplit, hskipped, hne, htoken, hrest⟩ := exists_token hall
    have hcall := strtokR_token h hsplit htext hskipped hne htoken hrest
    have hstring := stringAt_token h hsplit htext
    have hpos := List.length_pos_of_ne_nil hne
    have hjoin : text.drop t.state = (skipped ++ token) ++ rest := by
      rw [hsplit, List.append_assoc]
    have hlength : t.state + (skipped ++ token).length =
        t.state + skipped.length + token.length := by
      rw [List.length_append, Nat.add_assoc]
    cases rest with
    | nil =>
        obtain ⟨hend, hafter⟩ := h.at_end (hjoin.trans (List.append_nil _))
        rw [hlength] at hend hafter
        rw [if_pos rfl] at hcall
        refine ⟨_, _, hcall, ⟨Nat.le_of_eq hend, ?_, nofun⟩, hafter, fun _ => ?_, nofun⟩
        · rintro start ⟨⟩
          refine ⟨skipped, token, [], hremaining.trans hsplit, rfl, hskipped, hne, htoken, hrest,
            hstring _, ?_, rfl⟩
          rw [hafter.remaining htext]
          dsimp only
          rw [hend, List.drop_length]
          rfl
        · dsimp only
          omega
    | cons c rest =>
        obtain ⟨hafter, hleft⟩ := h.at_delimiter hjoin
        rw [hlength] at hafter hleft
        rw [if_neg (List.cons_ne_nil c rest)] at hcall
        refine ⟨_, _, hcall, ⟨hafter.inside, ?_, nofun⟩, hafter, fun _ => ?_, nofun⟩
        · rintro start ⟨⟩
          exact ⟨skipped, token, c :: rest, hremaining.trans hsplit, rfl, hskipped, hne, htoken,
            hrest, hstring _, (hafter.remaining htext).trans hleft, rfl⟩
        · dsimp only
          omega

end Call

/-! ## All calls -/

/-- Every token takes a character at least, and after a `NULL` nothing is left. -/
theorem calls_exact {text others : List Char} {t : Tokenizer} (h : Untouched text others t)
    (htext : nul ∉ text) (sets : List (List Char)) :
    ∃ (tokens : List Nat) (nulls : Nat) (t' : Tokenizer), calls t none sets =
        some (tokens.map some ++ List.replicate nulls none, t') ∧
      Calls text.length t sets (tokens.map some ++ List.replicate nulls none) t' ∧
      tokens.length ≤ text.length - t.state := by
  induction sets generalizing t with
  | nil => exact ⟨[], 0, t, rfl, .nil t, Nat.zero_le _⟩
  | cons delimiters sets ih =>
      obtain ⟨result, t', hcall, hexact, hafter, htoken, hnull⟩ := call_exact h htext delimiters
      obtain ⟨tokens, nulls, t'', hcalls, hrun, hcount⟩ := ih hafter
      have hboth : calls t none (delimiters :: sets) =
          some (result :: (tokens.map some ++ List.replicate nulls none), t'') := by
        rw [calls, hcall]
        dsimp only [Option.bind_eq_bind, Option.bind_some]
        rw [hcalls]
        rfl
      have hinside := hafter.inside
      cases result with
      | some start =>
          have hlt := htoken nofun
          refine ⟨start :: tokens, nulls, t'', hboth, .cons hexact hrun, ?_⟩
          rw [List.length_cons]
          omega
      | none =>
          have hend := hnull rfl
          have hnone : tokens = [] := List.length_eq_zero_iff.mp (by omega)
          subst hnone
          exact ⟨[], nulls + 1, t'', hboth, .cons hexact hrun, Nat.zero_le _⟩

theorem strtok_r_exact (text others : List Char) (htext : nul ∉ text) (old : Nat)
    (delimiters : List Char) (sets : List (List Char)) :
    ∃ (tokens : List Nat) (nulls : Nat) (t' : Tokenizer),
      calls ⟨text ++ nul :: others, old⟩ (some 0) (delimiters :: sets) =
        some (tokens.map some ++ List.replicate nulls none, t') ∧
      Calls text.length ⟨text ++ nul :: others, 0⟩ (delimiters :: sets)
        (tokens.map some ++ List.replicate nulls none) t' ∧
      tokens.length ≤ text.length := by
  have hstart : Untouched text others ⟨text ++ nul :: others, 0⟩ := ⟨Nat.zero_le _, rfl⟩
  exact calls_exact hstart htext (delimiters :: sets)

/-- A request line, with another set for its last token. -/
theorem strtok_r_exact_request :
    ∃ (tokens : List Nat) (nulls : Nat) (t' : Tokenizer),
      calls ⟨['G', ' ', '/', 'a', ' ', '1', '\r', nul], 7⟩ (some 0)
        [[' '], [' '], ['\r', '\n'], [' ']] =
          some (tokens.map some ++ List.replicate nulls none, t') ∧
      Calls 7 ⟨['G', ' ', '/', 'a', ' ', '1', '\r', nul], 0⟩
        [[' '], [' '], ['\r', '\n'], [' ']] (tokens.map some ++ List.replicate nulls none) t' ∧
      tokens.length ≤ 7 :=
  strtok_r_exact ['G', ' ', '/', 'a', ' ', '1', '\r'] [] (by decide) 7 [' ']
    [[' '], ['\r', '\n'], [' ']]

example : calls ⟨['G', ' ', '/', 'a', ' ', '1', '\r', nul], 7⟩ (some 0)
    [[' '], [' '], ['\r', '\n'], [' ']] =
      some ([some 0, some 2, some 5, none],
        ⟨['G', nul, '/', 'a', nul, '1', nul, nul], 7⟩) := by decide

end MoonlightScarlet.Sys.Strtok
