import MoonlightScarlet.Sys.Proofs.Moves
/-!
# Who holds what

The two locks, `CONNECTION_ACTIVE` while a connection is started, and the `&mut self`
borrow of each connection are held by the thread whose program counter says so, and
by no other.
-/

namespace MoonlightScarlet.Sys

open Support.Threads

variable {T : Type}

def Pc.HoldsCore : Pc → Prop
  | .stop _ .lock => False
  | .stop _ _ => True
  | .call _ _ _ => True
  | _ => False

def Pc.HoldsWake : Pc → Prop
  | .start (.register _) => True
  | .start (.unlock _) => True
  | .stop _ .deactivate => True
  | .stop _ .unregister => True
  | .stop _ .unlockWake => True
  | .wake _ .lock => False
  | .wake _ _ => True
  | _ => False

def Pc.Starts : Pc → Prop
  | .start _ => True
  | _ => False

def Pc.borrow : Pc → Option ConnId
  | .stop c _ => some c
  | .wait c _ => some c
  | _ => none

/-- The connection that a call of `start_with_audio` starts. -/
def StartPc.connection : StartPc → Option ConnId
  | .call c => some c
  | .running c => some c
  | .lock c => some c
  | .register c => some c
  | .unlock c => some c
  | .reset => none
  | .release => none

def Pc.starting : Pc → Option ConnId
  | .start pc => pc.connection
  | _ => none

/-- In a `&mut self` method of a connection that is not stopped yet. -/
def Pc.Uses (c : ConnId) : Pc → Prop
  | .stop _ .unlock => False
  | .stop d _ => d = c
  | .wait d _ => d = c
  | _ => False

theorem Pc.Uses.borrow {c : ConnId} {pc : Pc} (h : pc.Uses c) : pc.borrow = some c := by
  unfold Pc.Uses at h
  split at h
  · exact h.elim
  · exact congrArg some h
  · exact congrArg some h
  · exact h.elim

theorem Pc.starts_of_starting {c : ConnId} {pc : Pc} (h : pc.starting = some c) : pc.Starts := by
  cases pc with
  | start pc => trivial
  | _ => cases h

/-- The thread that is starting a connection. -/
def Slot.thread : Slot T → Option T
  | .starting t => some t
  | _ => none

theorem Slot.eq_starting {slot : Slot T} {t : T} (h : slot.thread = some t) :
    slot = .starting t := by
  cases slot with
  | starting u =>
      cases h
      rfl
  | _ => cases h

def Shared.borrow (s : Shared T) (c : ConnId) : Option T := (s.connections c).bind (·.borrow)

/-- The connection was returned and is not stopped. -/
def Shared.Live (s : Shared T) (c : ConnId) : Prop :=
  ∃ object, s.connections c = some object ∧ object.stopped = false

section Objects

variable {s : Shared T} {c d : ConnId} {borrow : Option T}

theorem borrow_setBorrow_self {object : Connection T} (h : s.connections c = some object) :
    (s.setBorrow c borrow).borrow c = borrow := by
  simp [Shared.borrow, Shared.setBorrow, Shared.modifyConnection, h]

theorem borrow_setBorrow_of_ne (hd : d ≠ c) : (s.setBorrow c borrow).borrow d = s.borrow d := by
  simp [Shared.borrow, Shared.setBorrow, Shared.modifyConnection, hd]

theorem live_setBorrow : (s.setBorrow c borrow).Live d ↔ s.Live d := by
  by_cases hd : d = c
  · subst hd
    simp [Shared.Live, Shared.setBorrow, Shared.modifyConnection]
  · simp [Shared.Live, Shared.setBorrow, Shared.modifyConnection, hd]

theorem connections_modifyConnection {f : Connection T → Connection T} :
    (s.modifyConnection c f).connections d = none ↔ s.connections d = none := by
  by_cases hd : d = c
  · subst hd
    simp [Shared.modifyConnection]
  · simp [Shared.modifyConnection, hd]

end Objects

/-- Exclusive possession, and the connections that exist. -/
structure Locked (s : Shared T) (pcs : T → Pc) : Prop where
  core : Owned Pc.HoldsCore pcs s.coreLock
  wake : Owned Pc.HoldsWake pcs s.wakeLock
  start : Owned Pc.Starts pcs s.connectionActive.thread
  borrow : ∀ c, Owned (fun pc => pc.borrow = some c) pcs (s.borrow c)
  fresh : ∀ c, s.attempts ≤ c → s.connections c = none
  starting : ∀ t c, (pcs t).starting = some c → s.connections c = none ∧ c + 1 = s.attempts
  live : ∀ c, s.connectionActive = .connected c ↔ s.Live c
  latest : ∀ c, s.connectionActive = .connected c → c + 1 = s.attempts
  uses : ∀ t c, (pcs t).Uses c → s.Live c
  ended : ∀ t c, pcs t = .stop c .unlock → s.connections c ≠ none ∧ ¬s.Live c

theorem Locked.init : Locked ({} : Shared T) fun _ => .idle where
  core _ := iff_of_false nofun nofun
  wake _ := iff_of_false nofun nofun
  start _ := iff_of_false nofun nofun
  borrow _ _ := iff_of_false nofun nofun
  fresh _ _ := rfl
  starting _ _ := nofun
  live _ := iff_of_false nofun fun ⟨_, hobject, _⟩ => nomatch hobject
  latest _ := nofun
  uses _ _ := nofun
  ended _ _ := nofun

section Moves

variable {s s' : Shared T} {pcs : T → Pc} {t : T} {pc pc' : Pc}

/-- Connections come into being in one move only. -/
theorem connections_eq_none (hmove : Move t s pc s' pc') {d : ConnId} (hd : s.connections d = none)
    (hstarted : pc ≠ .start (.unlock d)) : s'.connections d = none := by
  rcases hmove with hmove | hmove
  · cases hmove with
    | started c =>
        have hc : d ≠ c := fun hc => hstarted (hc ▸ rfl)
        simpa [Shared.record, hc] using hd
    | stop c hobject => exact connections_modifyConnection.mpr hd
    | release c => exact connections_modifyConnection.mpr hd
    | _ => exact hd
  · cases hmove with
    | stopUnlock c => exact connections_modifyConnection.mpr hd
    | wait c hobject hstop => exact connections_modifyConnection.mpr hd
    | waitTerminated c herror => exact connections_modifyConnection.mpr hd
    | woken c hwoken => exact connections_modifyConnection.mpr hd
    | frameReady c hwoken => exact connections_modifyConnection.mpr hd
    | _ => exact hd

theorem connections_ne_none (hmove : Move t s pc s' pc') {d : ConnId}
    (hd : s.connections d ≠ none) : s'.connections d ≠ none := by
  rcases hmove with hmove | hmove
  · cases hmove with
    | started c =>
        by_cases hc : d = c
        · subst hc
          simp [Shared.record]
        · simpa [Shared.record, hc] using hd
    | stop c hobject => exact fun hnone => hd (connections_modifyConnection.mp hnone)
    | release c => exact fun hnone => hd (connections_modifyConnection.mp hnone)
    | _ => exact hd
  · cases hmove with
    | stopUnlock c => exact fun hnone => hd (connections_modifyConnection.mp hnone)
    | wait c hobject hstop => exact fun hnone => hd (connections_modifyConnection.mp hnone)
    | waitTerminated c herror => exact fun hnone => hd (connections_modifyConnection.mp hnone)
    | woken c hwoken => exact fun hnone => hd (connections_modifyConnection.mp hnone)
    | frameReady c hwoken => exact fun hnone => hd (connections_modifyConnection.mp hnone)
    | _ => exact hd

theorem attempts_eq (hmove : Move t s pc s' pc')
    (hreset : pc ≠ .start .reset) : s'.attempts = s.attempts := by
  rcases hmove with hmove | hmove
  · cases hmove with
    | reset => exact absurd rfl hreset
    | _ => rfl
  · cases hmove with
    | _ => rfl

theorem fresh_step (h : Locked s pcs) (hpc : pcs t = pc) (hmove : Move t s pc s' pc') (d : ConnId)
    (hd : s'.attempts ≤ d) : s'.connections d = none := by
  by_cases hreset : pc = .start .reset
  · subst hreset
    rcases hmove with hmove | hmove
    · cases hmove with
      | reset => exact h.fresh d (Nat.le_of_succ_le hd)
    · cases hmove
  · rw [attempts_eq hmove hreset] at hd
    refine connections_eq_none hmove (h.fresh d hd) fun hunlock => ?_
    obtain ⟨-, hlatest⟩ := h.starting t d (by rw [hpc, hunlock]; rfl)
    rw [← hlatest] at hd
    exact Nat.not_succ_le_self d hd

/-- `CONNECTION_ACTIVE` goes with the connections: `started` hands it over, `release` is
the end of both. -/
theorem live_step (h : Locked s pcs) (hpc : pcs t = pc) (hmove : Move t s pc s' pc') (d : ConnId) :
    s'.connectionActive = .connected d ↔ s'.Live d := by
  have hlive := h.live d
  rcases hmove with hmove | hmove
  · cases hmove with
    | claim hfree =>
        rw [hfree] at hlive
        exact iff_of_false nofun fun hd => nomatch hlive.mpr hd
    | giveUp =>
        have hstarting := Slot.eq_starting ((h.start t).mp (hpc ▸ trivial))
        rw [hstarting] at hlive
        exact iff_of_false nofun fun hd => nomatch hlive.mpr hd
    | started c =>
        have hstarting := Slot.eq_starting ((h.start t).mp (hpc ▸ trivial))
        rw [hstarting] at hlive
        by_cases hd : d = c
        · subst hd
          exact iff_of_true rfl ⟨{}, by simp [Shared.record], rfl⟩
        · apply iff_of_false (fun hc => hd (Slot.connected.inj hc).symm)
          rintro ⟨object, hobject, hstopped⟩
          simp only [Shared.record, Function.update_of_ne hd] at hobject
          exact nomatch hlive.mpr ⟨object, hobject, hstopped⟩
    | stop c hobject => exact hlive.trans live_setBorrow.symm
    | release c =>
        have hconnected : s.connectionActive = .connected c :=
          (h.live c).mpr (h.uses t c (hpc ▸ rfl))
        apply iff_of_false nofun
        rintro ⟨object, hobject, hstopped⟩
        by_cases hd : d = c
        · subst hd
          simp only [Shared.modifyConnection, Function.update_self, Option.map_eq_some_iff]
            at hobject
          obtain ⟨_, -, rfl⟩ := hobject
          cases hstopped
        · simp only [Shared.modifyConnection, Function.update_of_ne hd] at hobject
          have hother := hlive.mpr ⟨object, hobject, hstopped⟩
          exact hd (Slot.connected.inj (hother.symm.trans hconnected))
    | _ => exact hlive
  · cases hmove with
    | stopUnlock c => exact hlive.trans live_setBorrow.symm
    | wait c hobject hstop => exact hlive.trans live_setBorrow.symm
    | waitTerminated c herror => exact hlive.trans live_setBorrow.symm
    | woken c hwoken => exact hlive.trans live_setBorrow.symm
    | frameReady c hwoken => exact hlive.trans live_setBorrow.symm
    | _ => exact hlive

theorem latest_step (h : Locked s pcs) (hpc : pcs t = pc) (hmove : Move t s pc s' pc') (d : ConnId)
    (hd : s'.connectionActive = .connected d) : d + 1 = s'.attempts := by
  rcases hmove with hmove | hmove
  · cases hmove with
    | reset =>
        have hstarting := Slot.eq_starting ((h.start t).mp (hpc ▸ trivial))
        exact nomatch hstarting.symm.trans hd
    | started c =>
        obtain rfl := Slot.connected.inj hd
        exact (h.starting t c (hpc ▸ rfl)).2
    | claim hfree => cases hd
    | giveUp => cases hd
    | release c => cases hd
    | _ => exact h.latest d hd
  · cases hmove with
    | _ => exact h.latest d hd

/-- A connection comes to life when it is returned. -/
theorem live_cases (h : Locked s pcs) (hpc : pcs t = pc) (hmove : Move t s pc s' pc') {d : ConnId}
    (hd : s'.Live d) : s.Live d ∨ pc = .start (.unlock d) := by
  have hconnected := (live_step h hpc hmove d).mpr hd
  rcases hmove with hmove | hmove
  · cases hmove with
    | claim hfree => cases hconnected
    | giveUp => cases hconnected
    | release c => cases hconnected
    | started c =>
        obtain rfl := Slot.connected.inj hconnected
        exact .inr rfl
    | _ => exact .inl ((h.live d).mp hconnected)
  · cases hmove with
    | _ => exact .inl ((h.live d).mp hconnected)

/-- Each attempt to start a connection has its own number. -/
theorem starting_cases (hmove : Move t s pc s' pc') {d : ConnId} (hd : pc'.starting = some d) :
    pc.starting = some d ∨ pc = .start .reset ∧ d = s.attempts ∧ s'.attempts = s.attempts + 1 := by
  rcases hmove with hmove | hmove
  · cases hmove with
    | reset => exact .inr ⟨rfl, (Option.some.inj hd).symm, rfl⟩
    | startBegin c => exact .inl hd
    | startSucceeded c => exact .inl hd
    | startLock c hwake => exact .inl hd
    | register c => exact .inl hd
    | _ => cases hd
  · cases hmove with
    | _ => cases hd

/-- Only its own `stop` takes a connection from the thread that uses it. -/
theorem live_of_uses (h : Locked s pcs) (hpc : pcs t = pc) (hmove : Move t s pc s' pc') {d : ConnId}
    (hd : s.Live d) (hrelease : pc ≠ .stop d .release) : s'.Live d := by
  have hconnected := (h.live d).mpr hd
  refine (live_step h hpc hmove d).mp ?_
  rcases hmove with hmove | hmove
  · cases hmove with
    | claim hfree => exact nomatch hfree.symm.trans hconnected
    | giveUp =>
        have hstarting := Slot.eq_starting ((h.start t).mp (hpc ▸ trivial))
        exact nomatch hstarting.symm.trans hconnected
    | started c =>
        have hstarting := Slot.eq_starting ((h.start t).mp (hpc ▸ trivial))
        exact nomatch hstarting.symm.trans hconnected
    | release c =>
        have hother := (h.live c).mpr (h.uses t c (hpc ▸ rfl))
        obtain rfl := Slot.connected.inj (hother.symm.trans hconnected)
        exact absurd rfl hrelease
    | _ => exact hconnected
  · cases hmove with
    | _ => exact hconnected

end Moves

section Steps

variable [DecidableEq T] {s s' : Shared T} {pcs : T → Pc} {t : T} {pc pc' : Pc}

theorem core_owned (h : Owned Pc.HoldsCore pcs s.coreLock) (hpc : pcs t = pc)
    (hmove : Move t s pc s' pc') : Owned Pc.HoldsCore (Function.update pcs t pc') s'.coreLock := by
  rcases hmove with hmove | hmove
  · cases hmove with
    | stopLock c hcore => exact Owned.acquire (hcore ▸ h) trivial
    | _ => exact h.keep (hpc ▸ Iff.rfl)
  · cases hmove with
    | stopUnlock c => exact h.release (hpc ▸ trivial) id
    | callLock c call hobject hcore => exact Owned.acquire (hcore ▸ h) trivial
    | callUnlock c call => exact h.release (hpc ▸ trivial) id
    | _ => exact h.keep (hpc ▸ Iff.rfl)

theorem wake_owned (h : Owned Pc.HoldsWake pcs s.wakeLock) (hpc : pcs t = pc)
    (hmove : Move t s pc s' pc') : Owned Pc.HoldsWake (Function.update pcs t pc') s'.wakeLock := by
  rcases hmove with hmove | hmove
  · cases hmove with
    | startLock c hwake => exact Owned.acquire (hwake ▸ h) trivial
    | started c => exact h.release (hpc ▸ trivial) id
    | stopLockWake c hwake => exact Owned.acquire (hwake ▸ h) trivial
    | stopUnlockWake c => exact h.release (hpc ▸ trivial) id
    | _ => exact h.keep (hpc ▸ Iff.rfl)
  · cases hmove with
    | wakeLock waker hwake => exact Owned.acquire (hwake ▸ h) trivial
    | returned waker => exact h.release (hpc ▸ trivial) id
    | _ => exact h.keep (hpc ▸ Iff.rfl)

theorem start_owned (h : Locked s pcs) (hpc : pcs t = pc) (hmove : Move t s pc s' pc') :
    Owned Pc.Starts (Function.update pcs t pc') s'.connectionActive.thread := by
  rcases hmove with hmove | hmove
  · cases hmove with
    | claim hfree =>
        have hstart := h.start
        rw [hfree] at hstart
        exact hstart.acquire trivial
    | giveUp => exact h.start.release (hpc ▸ trivial) id
    | started c => exact h.start.release (hpc ▸ trivial) id
    | release c =>
        have hconnected : s.connectionActive = .connected c :=
          (h.live c).mpr (h.uses t c (hpc ▸ rfl))
        have hstart : Owned Pc.Starts (Function.update pcs t (.stop c .unlock))
            s.connectionActive.thread := h.start.keep (hpc ▸ Iff.rfl)
        rwa [hconnected] at hstart
    | _ => exact h.start.keep (hpc ▸ Iff.rfl)
  · cases hmove with
    | _ => exact h.start.keep (hpc ▸ Iff.rfl)

theorem borrow_begin (h : Locked s pcs) (hpc : (pcs t).borrow = none) {c : ConnId}
    (hobject : s.connections c = some { stopped := false, borrow := none })
    (hpc' : pc'.borrow = some c) (d : ConnId) :
    Owned (fun pc => pc.borrow = some d) (Function.update pcs t pc')
      ((s.setBorrow c (some t)).borrow d) := by
  by_cases hd : d = c
  · subst hd
    rw [borrow_setBorrow_self hobject]
    have hnone : s.borrow d = none := by simp [Shared.borrow, hobject]
    exact Owned.acquire (hnone ▸ h.borrow d) hpc'
  · rw [borrow_setBorrow_of_ne hd]
    refine (h.borrow d).keep (iff_of_false ?_ ?_)
    · rw [hpc']
      exact fun hc => hd (Option.some.inj hc).symm
    · rw [hpc]
      exact nofun

theorem borrow_end (h : Locked s pcs) {c : ConnId} (hpc : (pcs t).borrow = some c)
    (hpc' : pc'.borrow = none) (d : ConnId) :
    Owned (fun pc => pc.borrow = some d) (Function.update pcs t pc')
      ((s.setBorrow c none).borrow d) := by
  by_cases hd : d = c
  · subst hd
    have hborrow : s.borrow d = some t := (h.borrow d t).mp hpc
    obtain ⟨object, hobject, -⟩ := Option.bind_eq_some_iff.mp hborrow
    rw [borrow_setBorrow_self hobject]
    exact (h.borrow d).release hpc (by rw [hpc']; exact nofun)
  · rw [borrow_setBorrow_of_ne hd]
    refine (h.borrow d).keep (iff_of_false ?_ ?_)
    · rw [hpc']
      exact nofun
    · rw [hpc]
      exact fun hc => hd (Option.some.inj hc).symm

theorem borrow_owned (h : Locked s pcs) (hpc : pcs t = pc)
    (hmove : Move t s pc s' pc') (d : ConnId) :
    Owned (fun pc => pc.borrow = some d) (Function.update pcs t pc') (s'.borrow d) := by
  rcases hmove with hmove | hmove
  · cases hmove with
    | started c =>
        -- The object is new, so nobody has borrowed it.
        obtain ⟨hnone, -⟩ := h.starting t c (hpc ▸ rfl)
        have hborrow : Shared.borrow (({ s with
            wakeLock := none
            connectionActive := .connected c
            connections := Function.update s.connections c (some {}) }).record (.started c)) d =
              s.borrow d := by
          by_cases hd : d = c
          · subst hd
            simp [Shared.borrow, Shared.record, hnone]
          · simp [Shared.borrow, Shared.record, hd]
        rw [hborrow]
        exact (h.borrow d).keep (hpc ▸ Iff.rfl)
    | stop c hobject => exact borrow_begin h (hpc ▸ rfl) hobject rfl d
    | release c =>
        have hborrow : Shared.borrow ({ s with connectionActive := .free }.modifyConnection c
            fun object => { object with stopped := true }) d = s.borrow d := by
          by_cases hd : d = c
          · subst hd
            simp only [Shared.borrow, Shared.modifyConnection, Function.update_self]
            cases s.connections d <;> rfl
          · simp [Shared.borrow, Shared.modifyConnection, hd]
        rw [hborrow]
        exact (h.borrow d).keep (hpc ▸ Iff.rfl)
    | _ => exact (h.borrow d).keep (hpc ▸ Iff.rfl)
  · cases hmove with
    | stopUnlock c => exact borrow_end h (hpc ▸ rfl) rfl d
    | wait c hobject hstop => exact borrow_begin h (hpc ▸ rfl) hobject rfl d
    | waitTerminated c herror => exact borrow_end h (hpc ▸ rfl) rfl d
    | woken c hwoken => exact borrow_end h (hpc ▸ rfl) rfl d
    | frameReady c hwoken => exact borrow_end h (hpc ▸ rfl) rfl d
    | _ => exact (h.borrow d).keep (hpc ▸ Iff.rfl)

theorem starting_step (h : Locked s pcs) (hpc : pcs t = pc) (hmove : Move t s pc s' pc') (u : T)
    (d : ConnId) (hstarting : (Function.update pcs t pc' u).starting = some d) :
    s'.connections d = none ∧ d + 1 = s'.attempts := by
  by_cases hu : u = t
  · subst hu
    rw [Function.update_self] at hstarting
    rcases starting_cases hmove hstarting with hold | ⟨rfl, rfl, hnext⟩
    · obtain ⟨hnone, hlatest⟩ := h.starting u d (hpc ▸ hold)
      refine ⟨connections_eq_none hmove hnone ?_, ?_⟩
      · rintro rfl
        rcases hmove with hmove | hmove
        · cases hmove
          cases hstarting
        · cases hmove
      · rw [attempts_eq hmove (by rintro rfl; cases hold), hlatest]
    · refine ⟨connections_eq_none hmove (h.fresh _ (Nat.le_refl _)) nofun, ?_⟩
      exact hnext.symm
  · rw [Function.update_of_ne hu] at hstarting
    have hstarts : ¬pc.Starts := fun hstarts =>
      hu (h.start.unique (Pc.starts_of_starting hstarting) (hpc ▸ hstarts))
    obtain ⟨hnone, hlatest⟩ := h.starting u d hstarting
    refine ⟨connections_eq_none hmove hnone ?_, ?_⟩
    · rintro rfl
      exact hstarts trivial
    · rw [attempts_eq hmove (by rintro rfl; exact hstarts trivial), hlatest]

/-- An attempt that has ended does not begin again. -/
theorem not_starting_step (hpc : pcs t = pc) (hmove : Move t s pc s' pc')
    {c : ConnId} (hc : c < s.attempts) (h : ∀ u, (pcs u).starting ≠ some c) (u : T) :
    (Function.update pcs t pc' u).starting ≠ some c := by
  intro hu
  by_cases hut : u = t
  · rw [hut, Function.update_self] at hu
    rcases starting_cases hmove hu with hold | ⟨-, rfl, -⟩
    · exact h t (hpc ▸ hold)
    · exact Nat.lt_irrefl _ hc
  · rw [Function.update_of_ne hut] at hu
    exact h u hu

theorem uses_step (h : Locked s pcs) (hpc : pcs t = pc) (hmove : Move t s pc s' pc') (u : T)
    (d : ConnId) (huses : (Function.update pcs t pc' u).Uses d) : s'.Live d := by
  by_cases hu : u = t
  · subst hu
    rw [Function.update_self] at huses
    by_cases hold : pc.Uses d
    · apply live_of_uses h hpc hmove (h.uses u d (hpc ▸ hold))
      rintro rfl
      rcases hmove with hmove | hmove
      · cases hmove
        exact huses
      · cases hmove
    · rcases hmove with hmove | hmove
      · cases hmove with
        | stop c hobject =>
            cases huses
            exact live_setBorrow.mpr ⟨_, hobject, rfl⟩
        | _ => first | exact absurd huses hold | exact huses.elim
      · cases hmove with
        | wait c hobject hstop =>
            cases huses
            exact live_setBorrow.mpr ⟨_, hobject, rfl⟩
        | _ => first | exact absurd huses hold | exact huses.elim
  · rw [Function.update_of_ne hu] at huses
    apply live_of_uses h hpc hmove (h.uses u d huses)
    rintro rfl
    exact hu ((h.borrow d).unique huses.borrow (hpc ▸ rfl))

theorem ended_step (h : Locked s pcs) (hpc : pcs t = pc) (hmove : Move t s pc s' pc') (u : T)
    (d : ConnId) (hu : Function.update pcs t pc' u = .stop d .unlock) :
    s'.connections d ≠ none ∧ ¬s'.Live d := by
  by_cases hut : u = t
  · subst hut
    rw [Function.update_self] at hu
    subst hu
    rcases hmove with hmove | hmove
    · have hlive := h.uses u d
      have hexists := connections_ne_none (.inl hmove) (d := d)
      have hslot := live_step h hpc (.inl hmove) d
      cases hmove with
      | release c =>
          obtain ⟨object, hobject, -⟩ := hlive (hpc ▸ rfl)
          exact ⟨hexists (by simp [hobject]), fun hd => nomatch hslot.mpr hd⟩
    · cases hmove
  · rw [Function.update_of_ne hut] at hu
    obtain ⟨hexists, hdead⟩ := h.ended u d hu
    refine ⟨connections_ne_none hmove hexists, fun hd => ?_⟩
    rcases live_cases h hpc hmove hd with hlive | rfl
    · exact hdead hlive
    · exact hexists (h.starting t d (hpc ▸ rfl)).1

theorem Locked.step (h : Locked s pcs) (hpc : pcs t = pc) (hmove : Move t s pc s' pc') :
    Locked s' (Function.update pcs t pc') where
  core := core_owned h.core hpc hmove
  wake := wake_owned h.wake hpc hmove
  start := start_owned h hpc hmove
  borrow := borrow_owned h hpc hmove
  fresh := fresh_step h hpc hmove
  starting := starting_step h hpc hmove
  live := live_step h hpc hmove
  latest := latest_step h hpc hmove
  uses := uses_step h hpc hmove
  ended := ended_step h hpc hmove

end Steps

end MoonlightScarlet.Sys
