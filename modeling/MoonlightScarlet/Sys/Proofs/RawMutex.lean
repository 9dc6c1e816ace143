import MoonlightScarlet.Sys.RawMutex
import MoonlightScarlet.Support.Runs
/-!
# The futex mutex is exclusive and strands no sleeper

The word is unlocked exactly when no thread holds the mutex.  While threads sleep, the word
is contended, so that the next `unlock` wakes one of them, or some thread is awake that
will either wake a sleeper or mark the word contended itself.
-/

namespace MoonlightScarlet.Sys.RawMutex

open Support Support.Threads Support.Runs

variable {T : Type} [DecidableEq T]

/-- The steps of `lock` and `unlock` by their effect. -/
inductive Move (t : T) (state : Futex T) : Pc → Futex T → Pc → Prop
  | lock (hfree : state.word = mutexUnlocked) :
      Move t state .idle (state.store mutexLocked) .held
  | lockFailed : Move t state .idle state .exchange
  | acquire (hfree : state.word = mutexUnlocked) :
      Move t state .exchange (state.store mutexContended) .held
  | contend (htaken : state.word ≠ mutexUnlocked) :
      Move t state .exchange (state.store mutexContended) .wait
  | sleep (hcontended : state.word = mutexContended) :
      Move t state .wait (state.sleep t) .waiting
  | waitReturned (fails : Bool) : Move t state .wait state (afterWait fails)
  | waited (fails : Bool) : Move t state .waiting (state.remove t) (afterWait fails)
  | paused : Move t state .pause state .exchange
  | unlock (hword : state.word ≠ mutexContended) :
      Move t state .held (state.store mutexUnlocked) .idle
  | unlockContended : Move t state .held (state.store mutexUnlocked) .wake
  | wake (u : T) (hu : u ∈ state.sleepers) : Move t state .wake (state.remove u) .idle
  | wakeNobody (hnobody : state.sleepers = ∅) : Move t state .wake state .idle

theorem advance_cases {t : T} {state state' : Futex T} {pc pc' : Pc} {action : Action T}
    (h : advance t state pc action = some (state', pc')) : Move t state pc state' pc' := by
  unfold advance at h
  split at h
  case h_1 =>
      split at h
      case isTrue hfree => cases h; exact .lock hfree
      case isFalse => cases h; exact .lockFailed
  case h_2 =>
      obtain ⟨rfl, rfl⟩ := Prod.mk.inj (Option.some.inj h)
      by_cases hfree : state.word = mutexUnlocked
      · rw [if_pos hfree]
        exact .acquire hfree
      · rw [if_neg hfree]
        exact .contend hfree
  case h_3 fails =>
      split at h
      case isTrue hsleep =>
          cases h
          exact .sleep (by simpa using (Bool.and_eq_true_iff.mp hsleep).2)
      case isFalse => cases h; exact .waitReturned fails
  case h_4 fails => cases h; exact .waited fails
  case h_5 => cases h; exact .paused
  case h_6 =>
      obtain ⟨rfl, rfl⟩ := Prod.mk.inj (Option.some.inj h)
      by_cases hword : state.word = mutexContended
      · rw [if_pos hword]
        exact .unlockContended
      · rw [if_neg hword]
        exact .unlock hword
  case h_7 woken =>
      obtain ⟨futex, hwake, heq⟩ := Option.map_eq_some_iff.mp h
      cases heq
      obtain ⟨u, hu, rfl⟩ | ⟨hnobody, rfl⟩ := Futex.wake_cases hwake
      · exact .wake u hu
      · exact .wakeNobody hnobody
  case h_8 => exact nomatch h

/-! ## The invariant -/

/-- The word tells whether there is an owner. -/
def Marked (s : State T) (owner : Option T) : Prop :=
  Owned (· = .held) s.pcs owner ∧ (s.shared.word = mutexUnlocked ↔ owner = none)

/-- The thread is in `lock` or `unlock` and will mark the word contended or wake a sleeper. -/
def Watches (s : State T) (t : T) : Prop :=
  s.pcs t = .exchange ∨ s.pcs t = .pause ∨ s.pcs t = .wake ∨
    s.pcs t = .waiting ∧ t ∉ s.shared.sleepers

structure Sound (s : State T) : Prop where
  owner : ∃ owner, Marked s owner
  asleep : ∀ t ∈ s.shared.sleepers, s.pcs t = .waiting
  watched : s.shared.sleepers.Nonempty →
    s.shared.word = mutexContended ∨ ∃ t, Watches s t

variable {s : State T} {t : T} {state : Futex T} {pc : Pc}

/-- The counters of the sleepers stay when only threads that do not sleep move. -/
theorem asleep_update (h : ∀ u ∈ s.shared.sleepers, s.pcs u = .waiting)
    (hstate : ∀ u ∈ state.sleepers, u = t ∧ pc = .waiting ∨ u ∈ s.shared.sleepers ∧ u ≠ t) :
    ∀ u ∈ state.sleepers, Function.update s.pcs t pc u = .waiting := by
  intro u hu
  obtain ⟨rfl, hpc⟩ | ⟨hold, hne⟩ := hstate u hu
  · rw [Function.update_self, hpc]
  · rw [Function.update_of_ne hne]
    exact h u hold

/-- Another thread keeps its watch when nobody but the mover went to sleep. -/
theorem Watches.other {u : T} (h : Watches s u) (hne : u ≠ t)
    (hstate : u ∈ state.sleepers → u ∈ s.shared.sleepers) :
    Watches (⟨state, Function.update s.pcs t pc⟩ : State T) u := by
  simp only [Watches, Function.update_of_ne hne]
  exact h.imp_right <| Or.imp_right <| Or.imp_right <| And.imp_right (mt hstate)

theorem Watches.self (hpc : pc = .exchange ∨ pc = .pause ∨ pc = .wake) :
    Watches (⟨state, Function.update s.pcs t pc⟩ : State T) t := by
  simp only [Watches, Function.update_self]
  obtain rfl | rfl | rfl := hpc <;> simp

theorem Watches.afterWait (fails : Bool) :
    Watches (⟨state, Function.update s.pcs t (afterWait fails)⟩ : State T) t :=
  Watches.self (by cases fails <;> simp [RawMutex.afterWait])

/-- A thread taken off the word watches, unless it is the one that took it off. -/
theorem Watches.woken {u : T} (hu : s.pcs u = .waiting) (hne : u ≠ t) :
    Watches (⟨s.shared.remove u, Function.update s.pcs t pc⟩ : State T) u := by
  simp [Watches, Function.update_of_ne hne, hu]

theorem mutexUnlocked_ne_contended : mutexUnlocked ≠ mutexContended := by decide

theorem mutexLocked_ne_unlocked : mutexLocked ≠ mutexUnlocked := by decide

theorem mutexContended_ne_unlocked : mutexContended ≠ mutexUnlocked := by decide

theorem Marked.keep {owner : Option T} (h : Marked s owner) (ht : s.pcs t ≠ .held)
    (hpc : pc ≠ .held) (hword : state.word = s.shared.word) :
    Marked ⟨state, Function.update s.pcs t pc⟩ owner :=
  ⟨h.1.keep (iff_of_false hpc ht), by rw [hword]; exact h.2⟩

theorem Marked.acquire {owner : Option T} (h : Marked s owner)
    (hfree : s.shared.word = mutexUnlocked) (hword : state.word ≠ mutexUnlocked) :
    Marked ⟨state, Function.update s.pcs t .held⟩ (some t) := by
  have hnone : owner = none := h.2.mp hfree
  subst hnone
  exact ⟨h.1.acquire rfl, iff_of_false hword (Option.some_ne_none t)⟩

theorem Marked.release {owner : Option T} (h : Marked s owner) (ht : s.pcs t = .held)
    (hpc : pc ≠ .held) (hword : state.word = mutexUnlocked) :
    Marked ⟨state, Function.update s.pcs t pc⟩ none :=
  ⟨h.1.release ht hpc, iff_of_true hword rfl⟩

theorem owner_move {owner : Option T} (h : Marked s owner)
    (hmove : Move t s.shared (s.pcs t) state pc) :
    ∃ owner, Marked ⟨state, Function.update s.pcs t pc⟩ owner := by
  generalize hpc : s.pcs t = old at hmove
  have hne : old ≠ .held → s.pcs t ≠ .held := fun hne => hpc ▸ hne
  cases hmove with
  | lock hfree => exact ⟨_, h.acquire hfree mutexLocked_ne_unlocked⟩
  | lockFailed => exact ⟨_, h.keep (hne (by decide)) (by decide) rfl⟩
  | acquire hfree => exact ⟨_, h.acquire hfree mutexContended_ne_unlocked⟩
  | contend htaken =>
      have hsome : owner ≠ none := fun hnone => htaken (h.2.mpr hnone)
      exact ⟨owner, h.1.keep (iff_of_false (by decide) (hne (by decide))),
        iff_of_false mutexContended_ne_unlocked hsome⟩
  | sleep => exact ⟨_, h.keep (hne (by decide)) (by decide) rfl⟩
  | waitReturned fails =>
      exact ⟨_, h.keep (hne (by decide)) (by cases fails <;> decide) rfl⟩
  | waited fails =>
      exact ⟨_, h.keep (hne (by decide)) (by cases fails <;> decide) rfl⟩
  | paused => exact ⟨_, h.keep (hne (by decide)) (by decide) rfl⟩
  | unlock => exact ⟨_, h.release hpc (by decide) rfl⟩
  | unlockContended => exact ⟨_, h.release hpc (by decide) rfl⟩
  | wake => exact ⟨_, h.keep (hne (by decide)) (by decide) rfl⟩
  | wakeNobody => exact ⟨_, h.keep (hne (by decide)) (by decide) rfl⟩

theorem asleep_move (h : ∀ u ∈ s.shared.sleepers, s.pcs u = .waiting)
    (hmove : Move t s.shared (s.pcs t) state pc) :
    ∀ u ∈ state.sleepers, Function.update s.pcs t pc u = .waiting := by
  apply asleep_update h
  intro u hu
  generalize hpc : s.pcs t = old at hmove
  -- A sleeper is not the mover, which is not at its wait
  have hother : old ≠ .waiting → u ∈ s.shared.sleepers → u ≠ t := by
    rintro hold hu rfl
    exact hold (hpc.symm.trans (h u hu))
  cases hmove with
  | sleep =>
      obtain rfl | hu := Futex.mem_sleep.mp hu
      · exact Or.inl ⟨rfl, rfl⟩
      · exact Or.inr ⟨hu, hother (by decide) hu⟩
  | waited =>
      obtain ⟨hne, hu⟩ := Futex.mem_remove.mp hu
      exact Or.inr ⟨hu, hne⟩
  | wake =>
      obtain ⟨-, hu⟩ := Futex.mem_remove.mp hu
      exact Or.inr ⟨hu, hother (by decide) hu⟩
  | _ => exact Or.inr ⟨hu, hother (by decide) hu⟩

/-- Where somebody watched, and it was not the mover, somebody watches. -/
theorem exists_watches (h : ∃ u, Watches s u) (ht : ¬Watches s t)
    (hstate : ∀ u ≠ t, u ∈ state.sleepers → u ∈ s.shared.sleepers) :
    ∃ u, Watches (⟨state, Function.update s.pcs t pc⟩ : State T) u := by
  obtain ⟨u, hu⟩ := h
  have hne : u ≠ t := by
    rintro rfl
    exact ht hu
  exact ⟨u, hu.other hne (hstate u hne)⟩

theorem watched_move (h : Sound s) (hmove : Move t s.shared (s.pcs t) state pc)
    (hsleeper : state.sleepers.Nonempty) :
    state.word = mutexContended ∨
      ∃ u, Watches (⟨state, Function.update s.pcs t pc⟩ : State T) u := by
  have hidle : s.pcs t = .idle ∨ s.pcs t = .held → ¬Watches s t := by
    rintro (hpc | hpc) <;> simp [Watches, hpc]
  generalize hpc : s.pcs t = old at hmove hidle
  cases hmove with
  | lock hfree =>
      have hword : s.shared.word ≠ mutexContended := hfree ▸ mutexUnlocked_ne_contended
      exact Or.inr (exists_watches ((h.watched hsleeper).resolve_left hword) (hidle (by simp))
        fun _ _ hu => hu)
  | lockFailed => exact Or.inr ⟨t, Watches.self (by simp)⟩
  | acquire => exact Or.inl rfl
  | contend => exact Or.inl rfl
  | sleep hcontended => exact Or.inl hcontended
  | waitReturned fails => exact Or.inr ⟨t, Watches.afterWait fails⟩
  | waited fails => exact Or.inr ⟨t, Watches.afterWait fails⟩
  | paused => exact Or.inr ⟨t, Watches.self (by simp)⟩
  | unlock hword =>
      exact Or.inr (exists_watches ((h.watched hsleeper).resolve_left hword) (hidle (by simp))
        fun _ _ hu => hu)
  | unlockContended => exact Or.inr ⟨t, Watches.self (by simp)⟩
  | wake u hu =>
      have hwaiting : s.pcs u = .waiting := h.asleep u hu
      have hne : u ≠ t := by
        rintro rfl
        exact absurd (hpc.symm.trans hwaiting) (by decide)
      exact Or.inr ⟨u, Watches.woken hwaiting hne⟩
  | wakeNobody hnobody => exact absurd hnobody hsleeper.ne_empty

/-- One step of any thread keeps the invariant. -/
theorem Sound.move (h : Sound s) (hmove : Move t s.shared (s.pcs t) state pc) :
    Sound ⟨state, Function.update s.pcs t pc⟩ where
  owner := h.owner.elim fun _ howner => owner_move howner hmove
  asleep := asleep_move h.asleep hmove
  watched := watched_move h hmove

theorem Sound.step {s s' : State T} {label : T × Action T} (h : Sound s)
    (hstep : step s label = some s') : Sound s' :=
  step_preserves (fun _ _ _ _ _ hs hadvance => hs.move (advance_cases hadvance)) h hstep

omit [DecidableEq T] in
theorem Sound.initial : Sound (initial : State T) where
  owner := ⟨none, fun _ => iff_of_false (by simp [RawMutex.initial]) (Option.some_ne_none _).symm,
    iff_of_true rfl rfl⟩
  asleep := fun t ht => absurd ht (Finset.notMem_empty t)
  watched := fun h => absurd rfl h.ne_empty

/-! ## What every run keeps -/

omit [DecidableEq T] in
theorem Sound.exclusive (h : Sound s) {t u : T} (ht : Holds s t) (hu : Holds s u) : t = u := by
  obtain ⟨_, howned, -⟩ := h.owner
  exact howned.unique ht hu

omit [DecidableEq T] in
theorem Sound.unlocked_iff (h : Sound s) :
    s.shared.word = mutexUnlocked ↔ ∀ t, ¬Holds s t := by
  obtain ⟨owner, howned, hword⟩ := h.owner
  rw [hword]
  constructor
  · rintro rfl t ht
    exact Option.some_ne_none t ((howned t).mp ht).symm
  · intro hnobody
    cases owner with
    | none => rfl
    | some t => exact absurd ((howned t).mpr rfl) (hnobody t)

omit [DecidableEq T] in
theorem Sound.not_stranded (h : Sound s) : ¬Stranded s := by
  rintro ⟨hunlocked, ⟨u, hu⟩, hothers⟩
  have hword : s.shared.word ≠ mutexContended := hunlocked ▸ mutexUnlocked_ne_contended
  obtain ⟨t, hwatches⟩ := (h.watched ⟨u, hu⟩).resolve_left hword
  -- A watching thread is inside and awake
  obtain hpc | hpc | hpc | ⟨hpc, hawake⟩ := hwatches
  case inr.inr.inr => exact hawake (hothers t (by simp [hpc, Pc.inside]))
  all_goals
    have hasleep := h.asleep t (hothers t (by simp [hpc, Pc.inside]))
    exact absurd (hpc.symm.trans hasleep) (by decide)

/-- The mutex is exclusive, its word tells whether it is held, and no sleeper is stranded. -/
theorem rawMutex_sound (labels : List (T × Action T)) :
    Always step (fun s => (∀ t u, Holds s t → Holds s u → t = u) ∧
      (s.shared.word = mutexUnlocked ↔ ∀ t, ¬Holds s t) ∧ ¬Stranded s) initial labels :=
  Always.of_invariant (fun _ _ _ hs hstep => hs.step hstep)
    (fun _ hs => ⟨fun _ _ => hs.exclusive, hs.unlocked_iff, hs.not_stranded⟩) Sound.initial labels

end MoonlightScarlet.Sys.RawMutex
