import MoonlightScarlet.Support.LowBits
import MoonlightScarlet.Support.Parities
import MoonlightScarlet.Support.Runs
import MoonlightScarlet.Sys.FallbackRandom
/-!
# The fallback loses states

`next` is linear for `^^^`, and exactly one word other than zero steps to zero: if a word does,
its lowest seven bits determine the others.  The words that come from the initial value keep two
parities that zero does not have.
-/

namespace MoonlightScarlet.Sys.FallbackRandom

open Support Support.LowBits Support.Parities Support.Runs

/-! ## The words that step to zero -/

/-- `next` on the bits of a word. -/
def combine (v : BitVec 64) : BitVec 64 := v ^^^ (v <<< 13) ^^^ (v >>> 7) ^^^ (v <<< 17)

theorem toBitVec_next (v : UInt64) : (next v).toBitVec = combine v.toBitVec := rfl

theorem xor_xor_xor_comm (a b c d : BitVec 64) :
    (a ^^^ b) ^^^ (c ^^^ d) = (a ^^^ c) ^^^ (b ^^^ d) := by
  rw [BitVec.xor_assoc, ← BitVec.xor_assoc b, BitVec.xor_comm b, BitVec.xor_assoc c,
    ← BitVec.xor_assoc]

theorem combine_xor (v w : BitVec 64) : combine (v ^^^ w) = combine v ^^^ combine w := by
  unfold combine
  rw [BitVec.shiftLeft_xor_distrib, BitVec.shiftLeft_xor_distrib, BitVec.ushiftRight_xor_distrib,
    xor_xor_xor_comm v, xor_xor_xor_comm (v ^^^ _), xor_xor_xor_comm (v ^^^ _ ^^^ _)]

/-- If `combine` gives zero, the right shift is the sum of the others, so the higher bits of
the word follow from the lowest seven. -/
def feedback (low v : BitVec 64) : BitVec 64 :=
  low ^^^ ((v ^^^ (v <<< 13) ^^^ (v <<< 17)) <<< 7)

theorem delays_feedback (low : BitVec 64) : Delays 7 (feedback low) := by
  intro n a b h
  have h13 : Agree n (a <<< 13) (b <<< 13) := (h.shiftLeft 13).mono (Nat.le_add_right n 13)
  have h17 : Agree n (a <<< 17) (b <<< 17) := (h.shiftLeft 17).mono (Nat.le_add_right n 17)
  exact (Agree.refl _ low).xor (((h.xor h13).xor h17).shiftLeft 7)

theorem feedback_fixed {v : BitVec 64} (h : combine v = 0) :
    feedback (BitVec.ofNat 64 (v.toNat % 2 ^ 7)) v = v := by
  have hsum : (v ^^^ (v <<< 13) ^^^ (v <<< 17)) ^^^ (v >>> 7) = 0 := by
    rw [← h, combine, BitVec.xor_assoc, BitVec.xor_assoc, BitVec.xor_assoc, BitVec.xor_assoc,
      BitVec.xor_comm (v >>> 7)]
  rw [feedback, BitVec.xor_eq_zero_iff.mp hsum, low_xor_high]

/-- The word that steps to zero. -/
def vanishing : UInt64 := 0x244675525948f1e3

theorem combine_eq_zero {v : BitVec 64} (h : combine v = 0) :
    v = 0 ∨ v = vanishing.toBitVec := by
  have hall : ∀ low < 2 ^ 7, combine ((feedback (BitVec.ofNat 64 low))^[10] 0) = 0 →
      (feedback (BitVec.ofNat 64 low))^[10] 0 = 0 ∨
        (feedback (BitVec.ofNat 64 low))^[10] 0 = vanishing.toBitVec := by
    decide +kernel
  have hv := (delays_feedback _).fixed (by decide : 64 ≤ 10 * 7) (feedback_fixed h) 0
  have hlt : v.toNat % 2 ^ 7 < 2 ^ 7 := Nat.mod_lt _ (by decide)
  rw [hv] at h ⊢
  exact hall _ hlt h

theorem next_xor (v w : UInt64) : next (v ^^^ w) = next v ^^^ next w :=
  UInt64.toBitVec_inj.mp (combine_xor v.toBitVec w.toBitVec)

theorem next_eq_zero_iff (v : UInt64) : next v = 0 ↔ v = 0 ∨ v = vanishing := by
  constructor
  · intro h
    have hcombine : combine v.toBitVec = 0 := (toBitVec_next v).symm.trans (congrArg _ h)
    rcases combine_eq_zero hcombine with hzero | hvanishing
    · exact .inl (UInt64.toBitVec_inj.mp hzero)
    · exact .inr (UInt64.toBitVec_inj.mp hvanishing)
  · rintro (rfl | rfl) <;> decide

theorem next_eq_next_iff (v w : UInt64) : next v = next w ↔ v = w ∨ v ^^^ w = vanishing := by
  rw [← UInt64.xor_eq_zero_iff, ← next_xor, next_eq_zero_iff, UInt64.xor_eq_zero_iff]

/-! ## What keeps the initial value from zero -/

/-- `combine`, moved to the mask of a parity. -/
def transposed (mask : BitVec 64) : BitVec 64 :=
  mask ^^^ (mask >>> 13) ^^^ (mask <<< 7) ^^^ (mask >>> 17)

theorem dot_combine (mask v : BitVec 64) : dot mask (combine v) = dot (transposed mask) v := by
  rw [combine, dot_xor, dot_xor, dot_xor, dot_shiftLeft, dot_ushiftRight, dot_shiftLeft,
    transposed, xor_dot, xor_dot, xor_dot]

def oddMask : BitVec 64 := 0x44000000004444

def evenMask : BitVec 64 := 0x2200020200222202

theorem transposed_oddMask : transposed oddMask = oddMask ^^^ evenMask := by decide

theorem transposed_evenMask : transposed evenMask = evenMask := by decide

/-- Two parities that `combine` keeps; zero does not have the first. -/
structure Alive (v : BitVec 64) : Prop where
  odd : dot oddMask v = 1
  even : dot evenMask v = 0

theorem Alive.combine {v : BitVec 64} (h : Alive v) : Alive (combine v) where
  odd := by rw [dot_combine, transposed_oddMask, xor_dot, h.odd, h.even, add_zero]
  even := by rw [dot_combine, transposed_evenMask, h.even]

theorem Alive.ne_zero {v : BitVec 64} (h : Alive v) : v ≠ 0 := by
  rintro rfl
  exact absurd ((dot_zero oddMask).symm.trans h.odd) (by decide)

/-! ## The loop -/

variable {T : Type} [DecidableEq T] {s s' : State T} {label : T × Action}

def word (s : State T) : UInt64 := s.shared.fallbackRandom

/-- The compare-exchange of the step succeeds. -/
def Swaps (s : State T) (label : T × Action) : Prop :=
  s.pcs label.1 = .exchange (word s) ∧ label.2 = .exchange false

/-- What a step does to the shared data. -/
inductive Effect (s : State T) (label : T × Action) : Shared → Prop
  | swapped (hswaps : Swaps s label) : Effect s label
      ⟨next (word s), .fallback (next (word s)).toUInt32 :: s.shared.returned⟩
  | received (hnot : ¬Swaps s label) (output : UInt32) : Effect s label
      { s.shared with returned := .kernel output :: s.shared.returned }
  | unchanged (hnot : ¬Swaps s label) : Effect s label s.shared

theorem step_effect (h : step s label = some s') : Effect s label s'.shared := by
  obtain ⟨t, action⟩ := label
  obtain ⟨⟨shared, pc⟩, hadvance, rfl⟩ := Option.map_eq_some_iff.mp h
  simp only at hadvance
  cases action with
  | call result output =>
      have hnot : ¬Swaps s (t, .call result output) := fun hswaps => nomatch hswaps.2
      cases hpc : s.pcs t <;> rw [hpc] at hadvance
      case idle =>
          by_cases hresult : result = sizeOfOutput
          · cases (if_pos hresult).symm.trans hadvance
            exact .received hnot output
          · cases (if_neg hresult).symm.trans hadvance
            exact .unchanged hnot
      case load | exchange => exact nomatch hadvance
  | load =>
      have hnot : ¬Swaps s (t, .load) := fun hswaps => nomatch hswaps.2
      cases hpc : s.pcs t <;> rw [hpc] at hadvance
      case load =>
          cases hadvance
          exact .unchanged hnot
      case idle | exchange => exact nomatch hadvance
  | exchange spurious =>
      cases hpc : s.pcs t <;> rw [hpc] at hadvance
      case exchange value =>
          by_cases hsucceeds : (!spurious && decide (s.shared.fallbackRandom = value)) = true
          · cases (if_pos hsucceeds).symm.trans hadvance
            obtain ⟨hspurious, rfl⟩ : spurious = false ∧ s.shared.fallbackRandom = value := by
              simpa using hsucceeds
            exact .swapped ⟨hpc, congrArg _ hspurious⟩
          · cases (if_neg hsucceeds).symm.trans hadvance
            refine .unchanged fun ⟨hvalue, hspurious⟩ => hsucceeds ?_
            cases hspurious
            cases hpc.symm.trans hvalue
            simp [word]
      case idle | load => exact nomatch hadvance

/-- A compare-exchange that succeeds finds another word than the one that steps to zero. -/
def Keeps (s : State T) (label : T × Action) : Prop := Swaps s label → word s ≠ vanishing

theorem word_ne_zero_iff (h : step s label = some s') (hword : word s ≠ 0) :
    word s' ≠ 0 ↔ Keeps s label := by
  obtain ⟨shared, pcs⟩ := s'
  cases step_effect h with
  | swapped hswaps =>
      have hnext : next (word s) = 0 ↔ word s = vanishing :=
        (next_eq_zero_iff _).trans (or_iff_right hword)
      exact (not_congr hnext).trans ⟨fun hkeeps _ => hkeeps, fun hkeeps => hkeeps hswaps⟩
  | received hnot => exact iff_of_true hword fun hswaps => absurd hswaps hnot
  | unchanged hnot => exact iff_of_true hword fun hswaps => absurd hswaps hnot

theorem alive_step (h : Alive (word s).toBitVec) (hstep : step s label = some s') :
    Alive (word s').toBitVec := by
  obtain ⟨shared, pcs⟩ := s'
  cases step_effect hstep with
  | swapped => exact h.combine
  | received => exact h
  | unchanged => exact h

omit [DecidableEq T] in
theorem alive_initial : Alive (word (initial : State T)).toBitVec :=
  have hodd : dot oddMask 0x8f6d4a21d3c7b509 = 1 := by decide +kernel
  have heven : dot evenMask 0x8f6d4a21d3c7b509 = 0 := by decide +kernel
  ⟨hodd, heven⟩

/-- The word is zero, and so is what the fallback has returned since `before`. -/
def Stuck (before : List Output) (s : State T) : Prop :=
  word s = 0 ∧ ∃ later, s.shared.returned = later ++ before ∧
    ∀ output, .fallback output ∈ later → output = 0

theorem stuck_step {before : List Output} (h : Stuck before s) (hstep : step s label = some s') :
    Stuck before s' := by
  obtain ⟨hword, later, hreturned, hzero⟩ := h
  obtain ⟨shared, pcs⟩ := s'
  cases step_effect hstep with
  | swapped =>
      refine ⟨(next_eq_zero_iff _).mpr (.inl hword), .fallback (next (word s)).toUInt32 :: later,
        congrArg _ hreturned, fun output houtput => ?_⟩
      rcases List.mem_cons.mp houtput with heq | hlater
      · rw [Output.fallback.inj heq, hword]
        rfl
      · exact hzero output hlater
  | received _ random =>
      refine ⟨hword, .kernel random :: later, congrArg _ hreturned, fun output houtput => ?_⟩
      have hne : Output.fallback output ≠ .kernel random := nofun
      exact hzero output (List.mem_of_ne_of_mem hne houtput)
  | unchanged => exact ⟨hword, later, hreturned, hzero⟩

/-- Two words have one successor if and only if they differ exactly in the bits of `vanishing`.
A run comes to zero, and stays there, if and only if a compare-exchange succeeds on that word,
which never happens from the initial value. -/
theorem fallback_random_iff :
    (∀ v w : UInt64, (next v = next w → v = w) ↔ v ^^^ w ≠ vanishing) ∧
    (∀ v : UInt64, v ≠ 0 → (next v ≠ 0 ↔ v ≠ vanishing)) ∧
    (∀ (s : State T) (schedule : List (T × Action)), word s ≠ 0 →
      (Always step (word · ≠ 0) s schedule ↔ Meets step Keeps s schedule)) ∧
    (∀ schedule : List (T × Action), Always step (word · ≠ 0) initial schedule) ∧
    ∀ (s : State T) (schedule : List (T × Action)), word s = 0 →
      Always step (Stuck s.shared.returned) s schedule := by
  refine ⟨fun v w => ?_, fun v hv => ?_, fun s schedule hword => ?_, fun schedule => ?_,
    fun s schedule hword => ?_⟩
  · rw [next_eq_next_iff]
    constructor
    · intro hinjective hxor
      have heq : v = w := hinjective (.inr hxor)
      rw [heq, UInt64.xor_self] at hxor
      exact absurd hxor (by decide)
    · exact fun hxor hnext => hnext.resolve_right hxor
  · rw [Ne, next_eq_zero_iff, or_iff_right hv]
  · exact always_iff_meets (J := fun _ => True) (L := fun _ => True) (fun _ _ _ _ _ _ => trivial)
      (fun _ _ _ _ _ hword hstep => word_ne_zero_iff hstep hword) trivial hword
      (fun _ _ => trivial)
  · refine Always.of_invariant (I := fun s => Alive (word s).toBitVec)
      (fun _ _ _ h hstep => alive_step h hstep) (fun s h hzero => ?_) alive_initial schedule
    exact h.ne_zero (congrArg UInt64.toBitVec hzero)
  · exact Always.of_invariant (fun _ _ _ h hstep => stuck_step h hstep) (fun _ h => h)
      ⟨hword, [], rfl, fun _ h => nomatch h⟩ schedule

/-! ## A lone caller -/

/-- The kernel refuses `n` calls of one thread, one after another. -/
def refusedCalls (t : T) : Nat → List (T × Action)
  | 0 => []
  | n + 1 => (t, .call 0 0) :: (t, .load) :: (t, .exchange false) :: refusedCalls t n

theorem run_refusedCalls (shared : Shared) (pcs : T → Pc) (t : T) (n : Nat) :
    (run step ⟨shared, Function.update pcs t .idle⟩ (refusedCalls t n)).map word =
      some (next^[n] shared.fallbackRandom) := by
  induction n generalizing shared with
  | zero => rfl
  | succ n ih =>
      have hcall : advance t shared .idle (.call 0 0) = some (shared, .load) := rfl
      have hload : advance t shared .load .load =
        some (shared, .exchange shared.fallbackRandom) := rfl
      have hexchange : advance t shared (.exchange shared.fallbackRandom) (.exchange false) =
          some (⟨next shared.fallbackRandom, .fallback (next shared.fallbackRandom).toUInt32 ::
            shared.returned⟩, .idle) := if_pos (by simp)
      rw [refusedCalls, run_cons, step, Threads.step_update hcall, Option.bind_some, run_cons,
        Threads.step_update hload, Option.bind_some, run_cons, Threads.step_update hexchange,
        Option.bind_some, ih, Function.iterate_succ_apply]

theorem run_initial_refusedCalls (t : T) (n : Nat) :
    (run step initial (refusedCalls t n)).map word = some (next^[n] 0x8f6d4a21d3c7b509) := by
  have hidle : (initial : State T) = ⟨{}, Function.update initial.pcs t .idle⟩ :=
    congrArg _ (Function.update_eq_self t initial.pcs).symm
  rw [hidle, run_refusedCalls]

theorem next_fifth : next^[5] 0x8f6d4a21d3c7b509 = 0xa9b6681b9c05cd45 := by decide

theorem next_late : next^[7620] 0xa9b6681b9c05cd45 = 0x8df01d49c54d3ca6 := by decide +kernel

/-- One thread whose calls are refused comes to two different words with the same successor; and
one word other than zero steps to zero. -/
theorem fallback_random_merges :
    ¬Function.Injective next ∧ (vanishing ≠ 0 ∧ next vanishing = 0) ∧
    ∃ v w : UInt64, v ≠ w ∧ next v = next w ∧
      (run step initial (refusedCalls () 5)).map word = some v ∧
      (run step initial (refusedCalls () 7625)).map word = some w := by
  have hmerged : next 0xa9b6681b9c05cd45 = next 0x8df01d49c54d3ca6 := by decide
  have hne : (0xa9b6681b9c05cd45 : UInt64) ≠ 0x8df01d49c54d3ca6 := by decide
  refine ⟨fun hinjective => hne (hinjective hmerged), by decide, _, _, hne, hmerged, ?_, ?_⟩
  · rw [run_initial_refusedCalls, next_fifth]
  · rw [run_initial_refusedCalls, Function.iterate_add_apply next 7620 5, next_fifth, next_late]

end MoonlightScarlet.Sys.FallbackRandom
