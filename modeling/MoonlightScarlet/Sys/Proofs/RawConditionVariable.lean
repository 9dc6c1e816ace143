import MoonlightScarlet.Sys.RawConditionVariable
import MoonlightScarlet.Sys.Proofs.RawMutex
import MoonlightScarlet.Support.Counting
/-!
# The condition variable loses no wake-up

While a consumer sleeps on the sequence word, each unit of `n` is covered by a thread of its
own: a consumer that is awake, or a producer that has added to `n` and not yet made its
system call.  A consumer that is about to sleep gives up its own place, and may: if the word
still has the value it loaded, then `n` was zero at the load and each unit is covered by a
producer that has not incremented the word since.
-/

namespace MoonlightScarlet.Sys.RawConditionVariable

open Support Support.Threads Support.Runs Support.Counting

variable {T : Type} [DecidableEq T]

/-! ## Moves -/

/-- What the calls of a thread do to its stage and to the shared data; `idle` and `held` say
that the call of the mutex before has returned. -/
inductive Move (t : T) (shared : Shared T) (mutex : RawMutex.Pc) : Stage → Shared T → Stage → Prop
  | locked (hheld : mutex = .held) :
      Move t shared mutex (.consumer .lock) shared (.consumer .check)
  | relocked (hheld : mutex = .held) :
      Move t shared mutex (.consumer .relock) shared (.consumer .check)
  | empty (hempty : shared.n = 0) :
      Move t shared mutex (.consumer .check) shared (.consumer .load)
  | found (hfound : 0 < shared.n) :
      Move t shared mutex (.consumer .check) shared (.consumer .take)
  | load :
      Move t shared mutex (.consumer .load) shared
        (.consumer (.unlockToWait shared.sequence.word shared.signals))
  | unlocked (sequence : UInt32) (loadedAt : Nat) :
      Move t shared mutex (.consumer (.unlockToWait sequence loadedAt)) shared
        (.consumer (.futexWait sequence loadedAt))
  | sleep (loadedAt : Nat) :
      Move t shared mutex (.consumer (.futexWait shared.sequence.word loadedAt))
        { shared with sequence := shared.sequence.sleep t } (.consumer .waiting)
  | awake (sequence : UInt32) (loadedAt : Nat) :
      Move t shared mutex (.consumer (.futexWait sequence loadedAt)) shared (.consumer .relock)
  | waited :
      Move t shared mutex (.consumer .waiting)
        { shared with sequence := shared.sequence.remove t } (.consumer .relock)
  | take :
      Move t shared mutex (.consumer .take) { shared with n := shared.n - 1 } (.consumer .unlock)
  | again : Move t shared mutex (.consumer .unlock) shared (.consumer .lock)
  | begin : Move t shared mutex (.producer .idle) shared (.producer .lock)
  | producerLocked (hheld : mutex = .held) :
      Move t shared mutex (.producer .lock) shared (.producer .add)
  | add :
      Move t shared mutex (.producer .add) { shared with n := shared.n + 1 } (.producer .unlock)
  | producerUnlocked : Move t shared mutex (.producer .unlock) shared (.producer .fetchAdd)
  | fetchAdd :
      Move t shared mutex (.producer .fetchAdd)
        { shared with
          sequence := shared.sequence.store (shared.sequence.word + 1)
          signals := shared.signals + 1 } (.producer .wake)
  | wake (u : T) (hu : u ∈ shared.sequence.sleepers) :
      Move t shared mutex (.producer .wake)
        { shared with sequence := shared.sequence.remove u } (.producer .idle)
  | wakeNobody (hnobody : shared.sequence.sleepers = ∅) :
      Move t shared mutex (.producer .wake) shared (.producer .idle)

theorem consumer_cases {t : T} {shared shared' : Shared T} {mutex : RawMutex.Pc} {call : Call T}
    {stage stage' : Consumer}
    (h : stage.advance t shared mutex call = some (shared', stage')) :
    Move t shared mutex (.consumer stage) shared' (.consumer stage') := by
  unfold Consumer.advance at h
  split at h
  case h_1 =>
      split at h
      case isTrue hheld => cases h; exact .locked hheld
      case isFalse => exact nomatch h
  case h_2 =>
      obtain ⟨rfl, rfl⟩ := Prod.mk.inj (Option.some.inj h)
      by_cases hempty : shared.n = 0
      · rw [if_pos hempty]
        exact .empty hempty
      · rw [if_neg hempty]
        exact .found (Nat.pos_of_ne_zero hempty)
  case h_3 => cases h; exact .load
  case h_4 sequence loadedAt =>
      split at h
      case isTrue => cases h; exact .unlocked sequence loadedAt
      case isFalse => exact nomatch h
  case h_5 sequence loadedAt fails =>
      split at h
      case isTrue hsleep =>
          cases h
          have hword : shared.sequence.word = sequence := by
            simpa using (Bool.and_eq_true_iff.mp hsleep).2
          exact hword ▸ .sleep loadedAt
      case isFalse => cases h; exact .awake sequence loadedAt
  case h_6 => cases h; exact .waited
  case h_7 =>
      split at h
      case isTrue hheld => cases h; exact .relocked hheld
      case isFalse => exact nomatch h
  case h_8 => cases h; exact .take
  case h_9 =>
      split at h
      case isTrue => cases h; exact .again
      case isFalse => exact nomatch h
  case h_10 => exact nomatch h

theorem producer_cases {t : T} {shared shared' : Shared T} {mutex : RawMutex.Pc} {call : Call T}
    {stage stage' : Producer} (h : stage.advance shared mutex call = some (shared', stage')) :
    Move t shared mutex (.producer stage) shared' (.producer stage') := by
  unfold Producer.advance at h
  split at h
  case h_1 => cases h; exact .begin
  case h_2 =>
      split at h
      case isTrue hheld => cases h; exact .producerLocked hheld
      case isFalse => exact nomatch h
  case h_3 => cases h; exact .add
  case h_4 =>
      split at h
      case isTrue => cases h; exact .producerUnlocked
      case isFalse => exact nomatch h
  case h_5 => cases h; exact .fetchAdd
  case h_6 woken =>
      obtain ⟨sequence, hwake, heq⟩ := Option.map_eq_some_iff.mp h
      cases heq
      obtain ⟨u, hu, rfl⟩ | ⟨hnobody, rfl⟩ := Futex.wake_cases hwake
      · exact .wake u hu
      · exact .wakeNobody hnobody
  case h_7 => exact nomatch h

theorem stage_cases {t : T} {shared shared' : Shared T} {mutex : RawMutex.Pc} {call : Call T}
    {stage stage' : Stage} (h : stage.advance t shared mutex call = some (shared', stage')) :
    Move t shared mutex stage shared' stage' := by
  cases stage with
  | consumer stage =>
      obtain ⟨⟨_, _⟩, hadvance, heq⟩ := Option.map_eq_some_iff.mp h
      cases heq
      exact consumer_cases hadvance
  | producer stage =>
      obtain ⟨⟨_, _⟩, hadvance, heq⟩ := Option.map_eq_some_iff.mp h
      cases heq
      exact producer_cases hadvance

/-! ## What covers the units of `n` -/

/-- The thread holds the mutex and is in none of its calls. -/
def Stage.guarded : Stage → Bool
  | .consumer .check | .consumer .load | .consumer .take | .producer .add => true
  | _ => false

/-- A producer that has added to `n` and not yet incremented the sequence word. -/
def Stage.announced : Stage → Bool
  | .producer .unlock | .producer .fetchAdd => true
  | _ => false

/-- A producer that has added to `n` and not yet made its system call. -/
def Stage.signalling : Stage → Bool
  | .producer .unlock | .producer .fetchAdd | .producer .wake => true
  | _ => false

/-- The value of the sequence word that the next `FutexWait` expects, with its age. -/
def Stage.loaded : Stage → Option (UInt32 × Nat)
  | .consumer (.unlockToWait sequence loadedAt) | .consumer (.futexWait sequence loadedAt) =>
      some (sequence, loadedAt)
  | _ => none

/-- What the thread has read of `n` is still true. -/
def Knows (n : Nat) : Stage → Prop
  | .consumer .load => n = 0
  | .consumer .take => 0 < n
  | _ => True

def Announced (stages : T → Stage) (u : T) : Prop := (stages u).announced

def Covers (sequence : Futex T) (stages : T → Stage) (u : T) : Prop :=
  (stages u).isConsumer ∧ u ∉ sequence.sleepers ∨ (stages u).signalling

structure Waiter (shared : Shared T) (stages : T → Stage) (sequence : UInt32) (loadedAt : Nat) :
    Prop where
  value : sequence = UInt32.ofNat loadedAt
  age : loadedAt ≤ shared.signals
  announced : loadedAt = shared.signals → (shared.n : ℕ∞) ≤ count (Announced stages)

structure Covered (shared : Shared T) (stages : T → Stage) : Prop where
  knows : ∀ u, Knows shared.n (stages u)
  sequence : shared.sequence.word = UInt32.ofNat shared.signals
  waiters : ∀ u value loadedAt, (stages u).loaded = some (value, loadedAt) →
    Waiter shared stages value loadedAt
  asleep : ∀ u ∈ shared.sequence.sleepers, stages u = .consumer .waiting
  covered : shared.sequence.sleepers.Nonempty →
    (shared.n : ℕ∞) ≤ count (Covers shared.sequence stages)

variable {t : T} {shared shared' : Shared T} {mutex : RawMutex.Pc} {stages : T → Stage}
  {stage : Stage}

theorem Knows.of_not_guarded {n : Nat} (h : ¬stage.guarded) : Knows n stage := by
  unfold Knows
  split
  · exact absurd rfl h
  · exact absurd rfl h
  · trivial

theorem Move.knows_self (h : Move t shared mutex (stages t) shared' stage) :
    Knows shared'.n stage := by
  generalize stages t = old at h
  cases h with
  | empty hempty => exact hempty
  | found hfound => exact hfound
  | _ => trivial

/-- Only who holds the mutex changes `n`. -/
theorem Move.n_eq (h : Move t shared mutex (stages t) shared' stage)
    (hguarded : ¬(stages t).guarded) : shared'.n = shared.n := by
  generalize stages t = old at h hguarded
  cases h with
  | take => exact absurd rfl hguarded
  | add => exact absurd rfl hguarded
  | _ => rfl

theorem Covered.knows_move (h : Covered shared stages)
    (hexcl : ∀ u, (stages t).guarded → (stages u).guarded → u = t)
    (hmove : Move t shared mutex (stages t) shared' stage) (u : T) :
    Knows shared'.n (Function.update stages t stage u) := by
  by_cases hu : u = t
  · subst hu
    rw [Function.update_self]
    exact hmove.knows_self
  · rw [Function.update_of_ne hu]
    by_cases ht : (stages t).guarded
    · exact .of_not_guarded fun hguarded => hu (hexcl u ht hguarded)
    · rw [hmove.n_eq ht]
      exact h.knows u

theorem Covered.sequence_move (h : Covered shared stages)
    (hmove : Move t shared mutex (stages t) shared' stage) :
    shared'.sequence.word = UInt32.ofNat shared'.signals := by
  have hsequence : shared.sequence.word = UInt32.ofNat shared.signals := h.sequence
  generalize stages t = old at hmove
  cases hmove with
  | fetchAdd =>
      show shared.sequence.word + 1 = UInt32.ofNat (shared.signals + 1)
      rw [hsequence, UInt32.ofNat_add]
      rfl
  | _ => exact hsequence

/-! ### The waiters -/

theorem announced_update {u : T} (h : Announced stages u)
    (hstage : (stages t).announced → stage.announced) :
    Announced (Function.update stages t stage) u := by
  unfold Announced at h ⊢
  by_cases hu : u = t
  · subst hu
    rw [Function.update_self]
    exact hstage h
  · rwa [Function.update_of_ne hu]

/-- Until the next signal each unit of `n` stays announced. -/
theorem announced_move (h : (shared.n : ℕ∞) ≤ count (Announced stages))
    (hmove : Move t shared mutex (stages t) shared' stage)
    (hsignals : shared'.signals = shared.signals) :
    (shared'.n : ℕ∞) ≤ count (Announced (Function.update stages t stage)) := by
  have hkeep : ((stages t).announced → stage.announced) →
      (shared.n : ℕ∞) ≤ count (Announced (Function.update stages t stage)) :=
    fun hstage => h.trans (count_mono fun u hu => announced_update hu hstage)
  generalize hold : stages t = old at hmove hkeep
  cases hmove with
  | take =>
      exact (Nat.cast_le.mpr (Nat.sub_le _ _)).trans (hkeep nofun)
  | add =>
      have hnew : Announced (Function.update stages t (.producer .unlock)) t := by
        simp [Announced, Stage.announced]
      have hfresh : ¬Announced stages t := by simp [Announced, Stage.announced, hold]
      calc ((shared.n + 1 : ℕ) : ℕ∞) = shared.n + 1 := Nat.cast_succ _
        _ ≤ count (Announced stages) + 1 := by gcongr
        _ ≤ count (Announced (Function.update stages t (.producer .unlock))) :=
            count_add_one_le hfresh hnew fun u hu => announced_update hu fun _ => rfl
  | producerUnlocked => exact hkeep fun _ => rfl
  | fetchAdd => exact absurd hsignals (Nat.succ_ne_self _)
  | _ => exact hkeep nofun

theorem Move.signals_cases (h : Move t shared mutex (stages t) shared' stage) :
    shared'.signals = shared.signals ∨ shared'.signals = shared.signals + 1 := by
  generalize stages t = old at h
  cases h with
  | fetchAdd => exact Or.inr rfl
  | _ => exact Or.inl rfl

theorem Waiter.move {value : UInt32} {loadedAt : Nat} (h : Waiter shared stages value loadedAt)
    (hmove : Move t shared mutex (stages t) shared' stage) :
    Waiter shared' (Function.update stages t stage) value loadedAt := by
  obtain hsignals | hsignals := hmove.signals_cases
  · exact ⟨h.value, hsignals ▸ h.age, fun hage =>
      announced_move (h.announced (hage.trans hsignals)) hmove hsignals⟩
  · -- A signal after the load: the word no longer has the loaded age
    have hage : loadedAt ≤ shared.signals := h.age
    exact ⟨h.value, by omega, fun heq => by omega⟩

theorem Covered.waiters_move (h : Covered shared stages)
    (hmove : Move t shared mutex (stages t) shared' stage) (u : T) (value : UInt32)
    (loadedAt : Nat) (hu : (Function.update stages t stage u).loaded = some (value, loadedAt)) :
    Waiter shared' (Function.update stages t stage) value loadedAt := by
  by_cases hut : u = t
  · subst hut
    rw [Function.update_self] at hu
    have hold : ∀ old, stages u = old → old.loaded = some (value, loadedAt) →
        Waiter shared' (Function.update stages u stage) value loadedAt :=
      fun old heq hloaded => (h.waiters u value loadedAt (heq ▸ hloaded)).move hmove
    have hknows := h.knows u
    have hsequence := h.sequence
    generalize hpc : stages u = old at hmove hknows
    cases hmove with
    | load =>
        obtain ⟨rfl, rfl⟩ := Prod.mk.inj (Option.some.inj hu)
        have hempty : shared.n = 0 := hknows
        exact ⟨hsequence, le_rfl, fun _ => by simp [hempty]⟩
    | unlocked => exact hold _ hpc hu
    | _ => exact nomatch hu
  · rw [Function.update_of_ne hut] at hu
    exact (h.waiters u value loadedAt hu).move hmove

theorem Covered.asleep_move (h : Covered shared stages)
    (hmove : Move t shared mutex (stages t) shared' stage) :
    ∀ u ∈ shared'.sequence.sleepers, Function.update stages t stage u = .consumer .waiting := by
  intro u hu
  have hasleep : u ∈ shared.sequence.sleepers → stages u = .consumer .waiting := h.asleep u
  -- A sleeper that is not the mover stays where it is
  have hother : u ≠ t → u ∈ shared.sequence.sleepers →
      Function.update stages t stage u = .consumer .waiting := by
    intro hut hu
    rw [Function.update_of_ne hut]
    exact hasleep hu
  have hmover : stages t ≠ .consumer .waiting → u ∈ shared.sequence.sleepers → u ≠ t := by
    rintro hne hu rfl
    exact hne (hasleep hu)
  generalize stages t = old at hmove hmover
  cases hmove with
  | sleep =>
      obtain rfl | hu := Futex.mem_sleep.mp hu
      · exact Function.update_self ..
      · exact hother (hmover (by simp) hu) hu
  | waited =>
      obtain ⟨hut, hu⟩ := Futex.mem_remove.mp hu
      exact hother hut hu
  | wake =>
      obtain ⟨-, hu⟩ := Futex.mem_remove.mp hu
      exact hother (hmover (by simp) hu) hu
  | _ => exact hother (hmover (by simp) hu) hu

/-! ### The units of `n` -/

theorem covers_update {sequence sequence' : Futex T} {u : T} (h : Covers sequence stages u)
    (hsleepers : u ≠ t → u ∈ sequence'.sleepers → u ∈ sequence.sleepers)
    (hself : Covers sequence stages t →
      stage.isConsumer ∧ t ∉ sequence'.sleepers ∨ stage.signalling) :
    Covers sequence' (Function.update stages t stage) u := by
  by_cases hu : u = t
  · subst hu
    unfold Covers
    rw [Function.update_self]
    exact hself h
  · unfold Covers at h ⊢
    rw [Function.update_of_ne hu]
    exact h.imp_left (And.imp_right (mt (hsleepers hu)))

theorem ofNat_inj_of_lt {a b : Nat} (h : UInt32.ofNat a = UInt32.ofNat b) (hle : b ≤ a)
    (hlt : a < b + 2 ^ 32) : a = b := by
  have hmod := congrArg UInt32.toNat h
  simp only [UInt32.toNat_ofNat'] at hmod
  omega

/-- A consumer that falls asleep leaves each unit to a producer. -/
theorem Covered.sleep (h : Covered shared stages) {loadedAt : Nat}
    (hstage : stages t = .consumer (.futexWait shared.sequence.word loadedAt))
    (hfresh : shared.signals < loadedAt + 2 ^ 32) :
    (shared.n : ℕ∞) ≤
      count (Covers (shared.sequence.sleep t) (Function.update stages t (.consumer .waiting))) := by
  have hwaiter := h.waiters t _ _ (congrArg Stage.loaded hstage)
  have hage : shared.signals = loadedAt :=
    ofNat_inj_of_lt (h.sequence.symm.trans hwaiter.value) hwaiter.age hfresh
  apply (hwaiter.announced hage.symm).trans
  apply count_mono
  intro u hu
  have hut : u ≠ t := by
    rintro rfl
    simp [Announced, hstage, Stage.announced] at hu
  unfold Announced at hu
  unfold Covers
  rw [Function.update_of_ne hut]
  refine Or.inr ?_
  revert hu
  generalize stages u = old
  cases old with
  | consumer => exact nofun
  | producer stage => cases stage <;> decide

/-- A producer that adds a unit covers it. -/
theorem Covered.add (h : (shared.n : ℕ∞) ≤ count (Covers shared.sequence stages))
    (hstage : stages t = .producer .add) :
    ((shared.n + 1 : ℕ) : ℕ∞) ≤
      count (Covers shared.sequence (Function.update stages t (.producer .unlock))) := by
  have hfresh : ¬Covers shared.sequence stages t := by
    simp [Covers, hstage, Stage.isConsumer, Stage.signalling]
  have hnew : Covers shared.sequence (Function.update stages t (.producer .unlock)) t := by
    simp [Covers, Stage.signalling]
  calc ((shared.n + 1 : ℕ) : ℕ∞) = shared.n + 1 := Nat.cast_succ _
    _ ≤ count (Covers shared.sequence stages) + 1 := by gcongr
    _ ≤ count (Covers shared.sequence (Function.update stages t (.producer .unlock))) :=
        count_add_one_le hfresh hnew fun u hu =>
          covers_update hu (fun _ hmem => hmem) fun _ => Or.inr rfl

/-- A producer that wakes a consumer leaves its unit to it. -/
theorem Covered.wake (h : Covered shared stages) (hstage : stages t = .producer .wake) {u : T}
    (hu : u ∈ shared.sequence.sleepers) :
    (shared.n : ℕ∞) ≤
      count (Covers (shared.sequence.remove u) (Function.update stages t (.producer .idle))) := by
  have hwaiting : stages u = .consumer .waiting := h.asleep u hu
  have hut : u ≠ t := by
    rintro rfl
    rw [hstage] at hwaiting
    exact nomatch hwaiting
  have hasleep : ¬Covers shared.sequence stages u := by
    simp [Covers, hwaiting, hu, Stage.signalling]
  have hawake : Covers (shared.sequence.remove u)
      (Function.update stages t (.producer .idle)) u := by
    simp [Covers, Function.update_of_ne hut, hwaiting, Stage.isConsumer]
  apply (h.covered ⟨u, hu⟩).trans
  apply count_le_of_exchange hasleep hawake
  intro v hvt hv
  unfold Covers at hv ⊢
  rw [Function.update_of_ne hvt]
  exact hv.imp_left (And.imp_right fun hv hmem => hv (Futex.mem_remove.mp hmem).2)

theorem Covered.covered_move (h : Covered shared stages)
    (hfresh : ∀ loadedAt ∈ (stages t).waitsSince, shared.signals < loadedAt + 2 ^ 32)
    (hmove : Move t shared mutex (stages t) shared' stage)
    (hsleeper : shared'.sequence.sleepers.Nonempty) :
    (shared'.n : ℕ∞) ≤ count (Covers shared'.sequence (Function.update stages t stage)) := by
  have hcovered := h.covered
  -- A step that puts nobody to sleep and takes no cover away
  have hkeep : ∀ {stage : Stage}, shared.sequence.sleepers.Nonempty →
      ((stages t).isConsumer → stage.isConsumer) → ((stages t).signalling → stage.signalling) →
      (shared.n : ℕ∞) ≤ count (Covers shared.sequence (Function.update stages t stage)) :=
    fun hsleeper hconsumer hsignalling => (hcovered hsleeper).trans <|
      count_mono fun u hu => covers_update hu (fun _ hmem => hmem)
        (Or.imp (And.imp_left hconsumer) hsignalling)
  generalize hold : stages t = old at hmove hkeep
  cases hmove with
  | sleep loadedAt => exact h.sleep hold (hfresh loadedAt (hold ▸ rfl))
  | waited =>
      by_cases hnonempty : shared.sequence.sleepers.Nonempty
      · apply (hcovered hnonempty).trans
        apply count_mono
        intro u hu
        apply covers_update hu
        · exact fun _ hmem => (Futex.mem_remove.mp hmem).2
        · exact fun _ => Or.inl ⟨rfl, by simp⟩
      · rw [Finset.not_nonempty_iff_eq_empty] at hnonempty
        simp [Futex.remove, hnonempty] at hsleeper
  | take =>
      exact (Nat.cast_le.mpr (Nat.sub_le _ _)).trans (hkeep hsleeper (fun _ => rfl) nofun)
  | add => exact Covered.add (hcovered hsleeper) hold
  | fetchAdd => exact hkeep hsleeper nofun fun _ => rfl
  | wake u hu => exact h.wake hold hu
  | wakeNobody hnobody => exact absurd hnobody hsleeper.ne_empty
  | producerUnlocked => exact hkeep hsleeper nofun fun _ => rfl
  | begin => exact hkeep hsleeper nofun nofun
  | producerLocked => exact hkeep hsleeper nofun nofun
  | _ => exact hkeep hsleeper (fun _ => rfl) nofun

/-- One call of any thread keeps the cover, if its `FutexWait` does not come too late. -/
theorem Covered.move (h : Covered shared stages)
    (hexcl : ∀ u, (stages t).guarded → (stages u).guarded → u = t)
    (hfresh : ∀ loadedAt ∈ (stages t).waitsSince, shared.signals < loadedAt + 2 ^ 32)
    (hmove : Move t shared mutex (stages t) shared' stage) :
    Covered shared' (Function.update stages t stage) where
  knows := h.knows_move hexcl hmove
  sequence := h.sequence_move hmove
  waiters := h.waiters_move hmove
  asleep := h.asleep_move hmove
  covered := h.covered_move hfresh hmove

/-! ## The invariant of the threads -/

/-- The mutex with the threads in its calls. -/
def mutexOf (s : State T) : RawMutex.State T := ⟨s.shared.mutex, Pc.mutex ∘ s.pcs⟩

def stagesOf (s : State T) : T → Stage := Pc.stage ∘ s.pcs

/-- A step of the mutex leaves the stages alone. -/
theorem stage_comp_update (pcs : T → Pc) (t : T) (mutex : RawMutex.Pc) :
    Pc.stage ∘ Function.update pcs t { pcs t with mutex } = Pc.stage ∘ pcs :=
  (Function.comp_update ..).trans (Function.update_eq_self t (Pc.stage ∘ pcs))

theorem mutex_comp_update (pcs : T → Pc) (t : T) (stage : Stage) :
    Pc.mutex ∘ Function.update pcs t { pcs t with stage } = Pc.mutex ∘ pcs :=
  (Function.comp_update ..).trans (Function.update_eq_self t (Pc.mutex ∘ pcs))

structure Sound (s : State T) : Prop where
  mutex : RawMutex.Sound (mutexOf s)
  guarded : ∀ t, (stagesOf s t).guarded → (s.pcs t).mutex = .held
  covered : Covered s.shared (stagesOf s)

variable {s s' : State T}

omit [DecidableEq T] in
theorem Sound.only (h : Sound s) {u : T} (ht : (s.pcs t).mutex = .held)
    (hu : (s.pcs u).mutex = .held) : u = t :=
  h.mutex.exclusive hu ht

omit [DecidableEq T] in
theorem Sound.locked (h : Sound s) (ht : (s.pcs t).mutex = .held) :
    s.shared.mutex.word ≠ mutexUnlocked :=
  fun hword => h.mutex.unlocked_iff.mp hword t ht

/-- A thread that has the mutex to itself makes no step of the mutex. -/
theorem not_held_of_mutexStep {stage : Stage} {mutex : RawMutex.Pc} {futex : Futex T × RawMutex.Pc}
    {futex₀ : Futex T} {action : RawMutex.Action T} (hpermits : stage.permits action)
    (hadvance : RawMutex.advance t futex₀ mutex action = some futex)
    (hguarded : stage.guarded) : mutex ≠ .held := by
  rintro rfl
  cases action with
  | unlock =>
      revert hpermits hguarded
      cases stage with
      | consumer stage => cases stage <;> simp [Stage.permits, Stage.guarded]
      | producer stage => cases stage <;> simp [Stage.permits, Stage.guarded]
  | _ => exact nomatch hadvance

theorem Sound.mutexStep (h : Sound s) {action : RawMutex.Action T} {next : Futex T × RawMutex.Pc}
    (hpermits : (s.pcs t).stage.permits action)
    (hadvance : RawMutex.advance t s.shared.mutex (s.pcs t).mutex action = some next) :
    Sound ⟨{ s.shared with mutex := next.1 },
      Function.update s.pcs t { s.pcs t with mutex := next.2 }⟩ where
  mutex := by
    unfold mutexOf
    rw [Function.comp_update]
    exact h.mutex.move (s := mutexOf s) (RawMutex.advance_cases hadvance)
  guarded := by
    unfold stagesOf
    rw [stage_comp_update]
    intro u hu
    have hut : u ≠ t := by
      rintro rfl
      exact not_held_of_mutexStep hpermits hadvance hu (h.guarded u hu)
    simpa only [Function.update_of_ne hut] using h.guarded u hu
  covered := by
    unfold stagesOf
    rw [stage_comp_update]
    obtain ⟨hknows, hsequence, hwaiters, hasleep, hcovered⟩ := h.covered
    exact ⟨hknows, hsequence, fun u value loadedAt hu =>
      let ⟨hvalue, hage, hannounced⟩ := hwaiters u value loadedAt hu
      ⟨hvalue, hage, hannounced⟩, hasleep, hcovered⟩

theorem Move.mutex_eq (h : Move t shared mutex (stages t) shared' stage) :
    shared'.mutex = shared.mutex := by
  generalize stages t = old at h
  cases h <;> rfl

theorem Move.guarded (h : Move t shared mutex (stages t) shared' stage)
    (hold : (stages t).guarded → mutex = .held) (hstage : stage.guarded) : mutex = .held := by
  generalize stages t = old at h hold
  cases h with
  | locked hheld => exact hheld
  | relocked hheld => exact hheld
  | producerLocked hheld => exact hheld
  | empty => exact hold rfl
  | found => exact hold rfl
  | _ => exact nomatch hstage

theorem Sound.callStep (h : Sound s)
    (hfresh : ∀ loadedAt ∈ (stagesOf s t).waitsSince, s.shared.signals < loadedAt + 2 ^ 32)
    (hmove : Move t s.shared (s.pcs t).mutex (stagesOf s t) shared' stage) :
    Sound ⟨shared', Function.update s.pcs t { s.pcs t with stage := stage }⟩ where
  mutex := by
    unfold mutexOf
    rw [mutex_comp_update, hmove.mutex_eq]
    exact h.mutex
  guarded := by
    unfold stagesOf
    rw [Function.comp_update]
    intro u hu
    by_cases hut : u = t
    · subst hut
      simp only [Function.update_self] at hu ⊢
      exact hmove.guarded (h.guarded u) hu
    · simp only [Function.update_of_ne hut] at hu ⊢
      exact h.guarded u hu
  covered := by
    unfold stagesOf
    rw [Function.comp_update]
    exact h.covered.move (fun u ht hu => h.only (h.guarded t ht) (h.guarded u hu)) hfresh hmove

theorem Sound.step (h : Sound s) {label : T × Action T} (hfresh : Fresh s label)
    (hstep : step s label = some s') : Sound s' := by
  obtain ⟨t, action⟩ := label
  obtain ⟨⟨shared, pc⟩, hadvance, rfl⟩ := Option.map_eq_some_iff.mp hstep
  cases action with
  | mutex action =>
      simp only [advance, Option.ite_none_right_eq_some, Option.map_eq_some_iff] at hadvance
      obtain ⟨hpermits, next, hnext, heq⟩ := hadvance
      cases heq
      exact h.mutexStep hpermits hnext
  | call call =>
      obtain ⟨⟨_, _⟩, hcall, heq⟩ := Option.map_eq_some_iff.mp hadvance
      cases heq
      exact h.callStep hfresh (stage_cases hcall)

omit [DecidableEq T] in
theorem Sound.initial (consumer : T → Bool) : Sound (initial consumer) where
  mutex := RawMutex.Sound.initial
  guarded := fun t ht => by
    simp only [stagesOf, RawConditionVariable.initial, Function.comp_apply] at ht
    split at ht <;> exact nomatch ht
  covered := {
    knows := fun u => by
      simp only [stagesOf, RawConditionVariable.initial, Function.comp_apply]
      split <;> trivial
    sequence := rfl
    waiters := fun u value loadedAt hu => by
      simp only [stagesOf, RawConditionVariable.initial, Function.comp_apply] at hu
      split at hu <;> exact nomatch hu
    asleep := fun u hu => absurd hu (Finset.notMem_empty u)
    covered := fun h => absurd rfl h.ne_empty }

/-! ## What every run keeps -/

omit [DecidableEq T] in
theorem Sound.holdsMutex (h : Sound s) (ht : (stagesOf s t).guarded) : HoldsMutex s t :=
  have hheld : (s.pcs t).mutex = .held := h.guarded t ht
  ⟨hheld, h.locked hheld, fun _ => h.only hheld⟩

omit [DecidableEq T] in
theorem Sound.not_lostWakeup (h : Sound s) : ¬LostWakeup s := by
  rintro ⟨havailable, ⟨t, ht⟩, hasleep, hfinished⟩
  obtain ⟨u, hu⟩ := exists_of_le_count (h.covered.covered ⟨t, hasleep t ht⟩) havailable
  obtain ⟨hconsumer, hawake⟩ | hsignalling := hu
  · exact hawake (hasleep u hconsumer)
  · -- A producer that still has its system call to make has not finished
    have hidle : stagesOf s u = .producer .idle := hfinished u fun hconsumer => by
      revert hsignalling hconsumer
      cases hstage : stagesOf s u <;> simp_all [stagesOf, Stage.isConsumer, Stage.signalling]
    rw [hidle] at hsignalling
    exact nomatch hsignalling

/-- What `n -= 1` takes is there. -/
theorem take_available (consumer : T → Bool) {labels : List (T × Action T)}
    (hfresh : Meets step Fresh (initial consumer) labels)
    (hrun : run step (initial consumer) labels = some s)
    (ht : (s.pcs t).stage = .consumer .take) : 0 < s.shared.n := by
  have hsound : Sound s := invariant_of_meets (fun _ _ _ h hfresh hstep => h.step hfresh hstep)
    (Sound.initial consumer) hfresh hrun
  simpa only [Knows, show stagesOf s t = _ from ht] using hsound.covered.knows t

/-- No wake-up is lost, and a consumer whose `wait` (or `lock`) has returned has the mutex. -/
theorem wait_signal_sound (consumer : T → Bool) {labels : List (T × Action T)}
    (hfresh : Meets step Fresh (initial consumer) labels) :
    Always step (fun s => ¬LostWakeup s ∧
      ∀ t, (s.pcs t).stage = .consumer .check → HoldsMutex s t) (initial consumer) labels :=
  Always.of_meets (fun _ _ _ h hfresh hstep => h.step hfresh hstep)
    (fun s h => ⟨h.not_lostWakeup, fun t ht => h.holdsMutex (t := t) (by
      rw [show stagesOf s t = _ from ht]
      rfl)⟩) (Sound.initial consumer) hfresh

/-- A consumer falls asleep, a producer adds a unit and wakes it, and it takes the unit. -/
def handover : List (Bool × Action Bool) :=
  [(true, .mutex .lock), (true, .call .next), (true, .call .next), (true, .call .next),
    (true, .mutex .unlock), (true, .call .next), (true, .call (.wait false)),
    (false, .call .next), (false, .mutex .lock), (false, .call .next), (false, .call .next),
    (false, .mutex .unlock), (false, .call .next), (false, .call .next),
    (false, .call (.wake (some true))), (true, .call .waited), (true, .mutex .lock),
    (true, .call .next), (true, .call .next), (true, .call .next)]

theorem wait_signal_sound_handover :
    (run step (initial id) handover).isSome ∧
      Always step (fun s => ¬LostWakeup s ∧
        ∀ t, (s.pcs t).stage = .consumer .check → HoldsMutex s t) (initial id) handover :=
  ⟨by decide, wait_signal_sound id (by decide)⟩

end MoonlightScarlet.Sys.RawConditionVariable
