import MoonlightScarlet.Support.Runs
import MoonlightScarlet.Support.Threads
import Mathlib.Data.Finset.Basic
/-!
# Monitors

Threads call the methods of an object whose data a mutex protects.  A method waits on a
condition variable until its guard holds, goes on in single accesses to the data, and may
signal after it has left the mutex.  However the calls interleave, the object goes through
the whole methods one after the other, and under a rule about the signals no thread sleeps
although it could go on.
-/

namespace Support.Monitor

open Support.Runs Support.Threads

/-! ## Methods -/

/-- What a method does under the mutex.  The rest may depend on the data as an access finds
it; `signals` tells whether the method signals after it. -/
inductive Program (σ ρ : Type*)
  | ret (result : ρ) (signals : Bool)
  | access (write : σ → σ) (next : σ → Program σ ρ)

structure Method (σ ρ : Type*) where
  guard : σ → Bool := fun _ => true
  program : Program σ ρ

variable {T σ κ ρ : Type*}

/-- The whole program on data that nobody else touches. -/
def Program.exec : Program σ ρ → σ → σ × ρ × Bool
  | .ret result signals, data => (data, result, signals)
  | .access write next, data => (next data).exec (write data)

/-! ## Threads -/

inductive Pc (σ κ ρ : Type*)
  | idle
  | entering (call : κ)
  | testing (call : κ)
  | sleeping (call : κ)
  | running (call : κ) (rest : Program σ ρ)
  | signaling (call : κ) (result : ρ)
  | returning (call : κ) (result : ρ)

inductive Action (T κ : Type*)
  | call (call : κ)
  | lock
  | test
  /-- A sleeper returns, also one that nobody woke. -/
  | wake
  | access
  | unlock
  | signal (woken : Option T)
  | leave

/-- A method that went through the mutex. -/
structure Record (T κ ρ : Type*) where
  thread : T
  call : κ
  result : ρ

structure Shared (T σ κ ρ : Type*) where
  data : σ
  mutex : Option T := none
  sleepers : Finset T := ∅
  log : List (Record T κ ρ) := []

section Steps

variable [DecidableEq T] (method : κ → Method σ ρ)

def advance (t : T) (shared : Shared T σ κ ρ) :
    Pc σ κ ρ → Action T κ → Option (Shared T σ κ ρ × Pc σ κ ρ)
  | .idle, .call call => some (shared, .entering call)
  | .entering call, .lock =>
      if shared.mutex = none then some ({ shared with mutex := some t }, .testing call) else none
  | .testing call, .test =>
      if (method call).guard shared.data then
        some (shared, .running call (method call).program)
      else
        some ({ shared with mutex := none, sleepers := insert t shared.sleepers }, .sleeping call)
  | .sleeping call, .wake =>
      some ({ shared with sleepers := shared.sleepers.erase t }, .entering call)
  | .running call (.access write next), .access =>
      some ({ shared with data := write shared.data }, .running call (next shared.data))
  | .running call (.ret result signals), .unlock =>
      some ({ shared with mutex := none, log := shared.log ++ [⟨t, call, result⟩] },
        if signals then .signaling call result else .returning call result)
  | .signaling call result, .signal woken =>
      match woken with
      | some u =>
          if u ∈ shared.sleepers then
            some ({ shared with sleepers := shared.sleepers.erase u }, .returning call result)
          else none
      | none => if shared.sleepers = ∅ then some (shared, .returning call result) else none
  | .returning _ _, .leave => some (shared, .idle)
  | _, _ => none

abbrev State (T σ κ ρ : Type*) := System T (Shared T σ κ ρ) (Pc σ κ ρ)

abbrev step : State T σ κ ρ → T × Action T κ → Option (State T σ κ ρ) :=
  Threads.step (advance method)

def initial (data : σ) : State T σ κ ρ := { shared := { data }, pcs := fun _ => .idle }

end Steps

/-- The thread has the mutex. -/
def Pc.holds : Pc σ κ ρ → Prop
  | testing _ | running _ _ => True
  | _ => False

def Pc.sleeps : Pc σ κ ρ → Prop
  | sleeping _ => True
  | _ => False

def Pc.signals : Pc σ κ ρ → Prop
  | signaling _ _ => True
  | _ => False

/-- The call whose method is still to go through the mutex. -/
def Pc.pending? : Pc σ κ ρ → Option κ
  | entering call | testing call | sleeping call | running call _ => some call
  | _ => none

/-- The call whose method went through the mutex, with its result. -/
def Pc.returned? : Pc σ κ ρ → Option (κ × ρ)
  | signaling call result | returning call result => some (call, result)
  | _ => none

/-! ## Sequential histories -/

section Sequential

variable (method : κ → Method σ ρ) (init : σ)

/-- The data after the methods of a log, one after the other. -/
def final (log : List (Record T κ ρ)) : σ :=
  log.foldl (fun data record => ((method record.call).program.exec data).1) init

/-- Each method found its guard true, and returned what it returns alone. -/
def Sequential (log : List (Record T κ ρ)) : Prop :=
  ∀ before record after, log = before ++ record :: after →
    (method record.call).guard (final method init before) = true ∧
    record.result = ((method record.call).program.exec (final method init before)).2.1

@[simp] theorem final_nil : final method init ([] : List (Record T κ ρ)) = init := rfl

@[simp] theorem final_snoc (log : List (Record T κ ρ)) (record : Record T κ ρ) :
    final method init (log ++ [record]) =
      ((method record.call).program.exec (final method init log)).1 := by
  rw [final, List.foldl_concat, final]

variable {method init}

theorem Sequential.nil : Sequential method init ([] : List (Record T κ ρ)) := by
  intro before record after h
  simp at h

theorem Sequential.snoc {log : List (Record T κ ρ)} {record : Record T κ ρ}
    (h : Sequential method init log)
    (hguard : (method record.call).guard (final method init log) = true)
    (hresult : record.result = ((method record.call).program.exec (final method init log)).2.1) :
    Sequential method init (log ++ [record]) := by
  intro before x after hsplit
  exact forall_split_snoc h ⟨hguard, hresult⟩ hsplit

end Sequential

/-! ## What a step does -/

section Moves

variable [DecidableEq T] {method : κ → Method σ ρ} {t : T}

/-- The steps of a thread. -/
inductive Move (method : κ → Method σ ρ) (t : T) (shared : Shared T σ κ ρ) :
    Pc σ κ ρ → Action T κ → Shared T σ κ ρ → Pc σ κ ρ → Prop
  | call (call : κ) : Move method t shared .idle (.call call) shared (.entering call)
  | lock (call : κ) (hfree : shared.mutex = none) :
      Move method t shared (.entering call) .lock { shared with mutex := some t } (.testing call)
  | pass (call : κ) (hguard : (method call).guard shared.data = true) :
      Move method t shared (.testing call) .test shared (.running call (method call).program)
  | sleep (call : κ) (hguard : (method call).guard shared.data = false) :
      Move method t shared (.testing call) .test
        { shared with mutex := none, sleepers := insert t shared.sleepers } (.sleeping call)
  | wake (call : κ) :
      Move method t shared (.sleeping call) .wake
        { shared with sleepers := shared.sleepers.erase t } (.entering call)
  | access (call : κ) (write : σ → σ) (next : σ → Program σ ρ) :
      Move method t shared (.running call (.access write next)) .access
        { shared with data := write shared.data } (.running call (next shared.data))
  | unlock (call : κ) (result : ρ) (signals : Bool) :
      Move method t shared (.running call (.ret result signals)) .unlock
        { shared with mutex := none, log := shared.log ++ [⟨t, call, result⟩] }
        (if signals then .signaling call result else .returning call result)
  | signal (call : κ) (result : ρ) (u : T) (hu : u ∈ shared.sleepers) :
      Move method t shared (.signaling call result) (.signal (some u))
        { shared with sleepers := shared.sleepers.erase u } (.returning call result)
  | signalNobody (call : κ) (result : ρ) (hnone : shared.sleepers = ∅) :
      Move method t shared (.signaling call result) (.signal none) shared (.returning call result)
  | leave (call : κ) (result : ρ) :
      Move method t shared (.returning call result) .leave shared .idle

theorem move_of_advance {shared shared' : Shared T σ κ ρ} {pc pc' : Pc σ κ ρ}
    {action : Action T κ} (h : advance method t shared pc action = some (shared', pc')) :
    Move method t shared pc action shared' pc' := by
  cases pc with
  | idle =>
      cases action with
      | call call =>
          cases h
          exact .call call
      | _ => exact nomatch h
  | entering call =>
      cases action with
      | lock =>
          by_cases hfree : shared.mutex = none
          · cases (if_pos hfree).symm.trans h
            exact .lock call hfree
          · cases (if_neg hfree).symm.trans h
      | _ => exact nomatch h
  | testing call =>
      cases action with
      | test =>
          by_cases hguard : (method call).guard shared.data = true
          · cases (if_pos hguard).symm.trans h
            exact .pass call hguard
          · cases (if_neg hguard).symm.trans h
            exact .sleep call (Bool.eq_false_of_not_eq_true hguard)
      | _ => exact nomatch h
  | sleeping call =>
      cases action with
      | wake =>
          cases h
          exact .wake call
      | _ => exact nomatch h
  | running call rest =>
      cases rest with
      | ret result signals =>
          cases action with
          | unlock =>
              cases h
              exact .unlock call result signals
          | _ => exact nomatch h
      | access write next =>
          cases action with
          | access =>
              cases h
              exact .access call write next
          | _ => exact nomatch h
  | signaling call result =>
      cases action with
      | signal woken =>
          cases woken with
          | some u =>
              by_cases hu : u ∈ shared.sleepers
              · cases (if_pos hu).symm.trans h
                exact .signal call result u hu
              · cases (if_neg hu).symm.trans h
          | none =>
              by_cases hnone : shared.sleepers = ∅
              · cases (if_pos hnone).symm.trans h
                exact .signalNobody call result hnone
              · cases (if_neg hnone).symm.trans h
      | _ => exact nomatch h
  | returning call result =>
      cases action with
      | leave =>
          cases h
          exact .leave call result
      | _ => exact nomatch h

end Moves

/-! ## Methods are atomic -/

section Atomic

variable [DecidableEq T] (method : κ → Method σ ρ) (init : σ)

/-- A thread with the mutex has brought the data to where its method alone would have. -/
def Pc.Agrees (data committed : σ) : Pc σ κ ρ → Prop
  | testing _ => data = committed
  | running call rest => (method call).guard committed = true ∧
      rest.exec data = (method call).program.exec committed
  | _ => True

/-- The data is what the logged methods made of it, up to what the owner of the mutex is
doing. -/
structure Atomic (s : State T σ κ ρ) : Prop where
  owned : Owned Pc.holds s.pcs s.shared.mutex
  sequential : Sequential method init s.shared.log
  settled : s.shared.mutex = none → s.shared.data = final method init s.shared.log
  returned : ∀ t call result, (s.pcs t).returned? = some (call, result) →
    ⟨t, call, result⟩ ∈ s.shared.log
  agrees : ∀ t, (s.pcs t).Agrees method s.shared.data (final method init s.shared.log)

variable {method init} {s s' : State T σ κ ρ} {label : T × Action T κ}

omit [DecidableEq T] in
theorem Pc.agrees_of_not_holds {pc : Pc σ κ ρ} (h : ¬pc.holds) (data committed : σ) :
    pc.Agrees method data committed := by
  cases pc with
  | testing call => exact absurd trivial h
  | running call rest => exact absurd trivial h
  | _ => exact trivial

omit [DecidableEq T] in
theorem atomic_initial (data : σ) : Atomic method data (initial data : State T σ κ ρ) where
  owned _ := ⟨False.elim, nofun⟩
  sequential := .nil
  settled _ := rfl
  returned _ _ _ := nofun
  agrees _ := trivial

/-- What the threads agree on is kept when nobody but the owner of the mutex changes it. -/
theorem agrees_update {pcs : T → Pc σ κ ρ} {t : T} {pc : Pc σ κ ρ} {data committed : σ}
    {data' committed' : σ}
    (h : ∀ u, (pcs u).Agrees method data committed)
    (hothers : (data' = data ∧ committed' = committed) ∨ ∀ u, u ≠ t → ¬(pcs u).holds)
    (hpc : pc.Agrees method data' committed') (u : T) :
    (Function.update pcs t pc u).Agrees method data' committed' := by
  by_cases hu : u = t
  · rw [hu, Function.update_self]
    exact hpc
  · rw [Function.update_of_ne hu]
    rcases hothers with ⟨rfl, rfl⟩ | hothers
    · exact h u
    · exact Pc.agrees_of_not_holds (hothers u hu) _ _

theorem returned_update {pcs : T → Pc σ κ ρ} {t : T} {pc : Pc σ κ ρ}
    {log log' : List (Record T κ ρ)}
    (h : ∀ u call result, (pcs u).returned? = some (call, result) → ⟨u, call, result⟩ ∈ log)
    (hlog : ∀ record ∈ log, record ∈ log')
    (hpc : ∀ call result, pc.returned? = some (call, result) → ⟨t, call, result⟩ ∈ log')
    (u : T) (call : κ) (result : ρ)
    (hu : (Function.update pcs t pc u).returned? = some (call, result)) :
    ⟨u, call, result⟩ ∈ log' := by
  by_cases hut : u = t
  · rw [hut, Function.update_self] at hu
    exact hut ▸ hpc call result hu
  · rw [Function.update_of_ne hut] at hu
    exact hlog _ (h u call result hu)

theorem Atomic.step (hs : Atomic method init s) (hstep : step method s label = some s') :
    Atomic method init s' := by
  refine step_preserves (I := Atomic method init) ?_ hs hstep
  rintro ⟨before, pcs⟩ t action shared pc ⟨howned, hseq, hsettled, hreturned, hagrees⟩ hadvance
  have hmove := move_of_advance hadvance
  have hothers (hholds : (pcs t).holds) (u : T) (hu : u ≠ t) : ¬(pcs u).holds :=
    fun h => hu (howned.unique h hholds)
  have hmine := hagrees t
  have hmyReturn := hreturned t
  dsimp only at hmove howned hseq hsettled hreturned hagrees hmine hmyReturn
  generalize hpc : pcs t = old at hmove hmine hmyReturn
  -- Most steps log nothing.
  have hkeep (pc : Pc σ κ ρ) (h : ∀ call result, pc.returned? = some (call, result) →
      ⟨t, call, result⟩ ∈ before.log) := returned_update hreturned (fun _ h => h) h
  cases hmove with
  | call call =>
      exact ⟨howned.keep (by simp [hpc, Pc.holds]), hseq, hsettled, hkeep _ nofun,
        agrees_update hagrees (.inl ⟨rfl, rfl⟩) trivial⟩
  | lock call hfree =>
      refine ⟨Owned.acquire (hfree ▸ howned) trivial, hseq, nofun, hkeep _ nofun, ?_⟩
      exact agrees_update hagrees (.inl ⟨rfl, rfl⟩) (hsettled hfree)
  | pass call hguard =>
      have hdata : before.data = final method init before.log := hmine
      refine ⟨howned.keep (by simp [hpc, Pc.holds]), hseq, hsettled, hkeep _ nofun, ?_⟩
      refine agrees_update hagrees (.inl ⟨rfl, rfl⟩) ⟨?_, ?_⟩
      · rw [← hdata]
        exact hguard
      · rw [← hdata]
  | sleep call hguard =>
      refine ⟨howned.release (by simp [hpc, Pc.holds]) not_false, hseq, fun _ => hmine,
        hkeep _ nofun, ?_⟩
      exact agrees_update hagrees (.inl ⟨rfl, rfl⟩) trivial
  | wake call =>
      exact ⟨howned.keep (by simp [hpc, Pc.holds]), hseq, hsettled, hkeep _ nofun,
        agrees_update hagrees (.inl ⟨rfl, rfl⟩) trivial⟩
  | access call write next =>
      have hholds : (pcs t).holds := by simp [hpc, Pc.holds]
      have hmutex : before.mutex = some t := (howned t).mp hholds
      refine ⟨howned.keep (by simp [hpc, Pc.holds]), hseq, ?_, hkeep _ nofun, ?_⟩
      · intro hfree
        exact nomatch hmutex.symm.trans hfree
      · exact agrees_update hagrees (.inr (hothers hholds)) hmine
  | unlock call result signals =>
      have hholds : (pcs t).holds := by simp [hpc, Pc.holds]
      obtain ⟨hguard, hexec⟩ := hmine
      have hdone : final method init (before.log ++ [⟨t, call, result⟩]) = before.data := by
        rw [final_snoc, ← hexec, Program.exec]
      have hleft : ¬(if signals then Pc.signaling call result
          else Pc.returning call result : Pc σ κ ρ).holds := by
        cases signals <;> exact not_false
      refine ⟨howned.release hholds hleft, hseq.snoc hguard ?_, fun _ => hdone.symm, ?_, ?_⟩
      · rw [← hexec, Program.exec]
      · refine returned_update hreturned (fun _ h => List.mem_append_left _ h) ?_
        intro other value hother
        have hsame : (call, result) = (other, value) := by
          cases signals <;> exact Option.some.inj hother
        cases hsame
        exact List.mem_concat_self
      · exact agrees_update hagrees (.inr (hothers hholds)) (Pc.agrees_of_not_holds hleft _ _)
  | signal call result u hu =>
      exact ⟨howned.keep (by simp [hpc, Pc.holds]), hseq, hsettled, hkeep _ hmyReturn,
        agrees_update hagrees (.inl ⟨rfl, rfl⟩) trivial⟩
  | signalNobody call result hnone =>
      exact ⟨howned.keep (by simp [hpc, Pc.holds]), hseq, hsettled, hkeep _ hmyReturn,
        agrees_update hagrees (.inl ⟨rfl, rfl⟩) trivial⟩
  | leave call result =>
      exact ⟨howned.keep (by simp [hpc, Pc.holds]), hseq, hsettled, hkeep _ nofun,
        agrees_update hagrees (.inl ⟨rfl, rfl⟩) trivial⟩

end Atomic

/-! ## Specifications -/

section Specification

variable [DecidableEq T] {α : Type*} (method : κ → Method σ ρ) (init : σ)
  (perform : α → κ → α × ρ) (R : σ → α → Prop) (start : α)

/-- What the specification makes of a log. -/
def specified (log : List (Record T κ ρ)) : α :=
  log.foldl (fun a record => (perform a record.call).1) start

omit [DecidableEq T] in
@[simp] theorem specified_snoc (log : List (Record T κ ρ)) (record : Record T κ ρ) :
    specified perform start (log ++ [record]) =
      (perform (specified perform start log) record.call).1 := by
  rw [specified, List.foldl_concat, specified]

/-- The methods return what the specification says, and leave data that it relates. -/
structure Follows (s : State T σ κ ρ) : Prop where
  atomic : Atomic method init s
  related : R (final method init s.shared.log) (specified perform start s.shared.log)
  results : ∀ before record after, s.shared.log = before ++ record :: after →
    record.result = (perform (specified perform start before) record.call).2

variable {method init perform R start} {s s' : State T σ κ ρ} {t : T} {action : Action T κ}

/-- A step begins a call, sends the method of a pending call through the mutex, or does
neither. -/
inductive Effect (method : κ → Method σ ρ) (init : σ) (s : State T σ κ ρ) (t : T)
    (action : Action T κ) (log : List (Record T κ ρ)) (pc : Pc σ κ ρ) : Prop
  | begins (call : κ) (haction : action = .call call) (hlog : log = s.shared.log)
      (hpc : pc.pending? = some call)
  | passes (call : κ) (hcall : (s.pcs t).pending? = some call)
      (hguard : (method call).guard (final method init s.shared.log) = true)
      (hlog : log = s.shared.log ++
        [⟨t, call, ((method call).program.exec (final method init s.shared.log)).2.1⟩])
      (hpc : pc.pending? = none)
  | keeps (hlog : log = s.shared.log) (hpc : pc.pending? = (s.pcs t).pending?)

theorem effect_of_step (hatomic : Atomic method init s)
    (hstep : step method s (t, action) = some s') :
    ∃ pc, s'.pcs = Function.update s.pcs t pc ∧
      Effect method init s t action s'.shared.log pc := by
  obtain ⟨⟨shared, pc⟩, hadvance, rfl⟩ := Option.map_eq_some_iff.mp hstep
  have hmove := move_of_advance hadvance
  have hagrees := hatomic.agrees t
  refine ⟨pc, rfl, ?_⟩
  dsimp only at hmove hagrees ⊢
  generalize hpc : s.pcs t = old at hmove hagrees
  cases hmove with
  | call call => exact .begins call rfl rfl rfl
  | unlock call result signals =>
      obtain ⟨hguard, hexec⟩ := hagrees
      refine .passes call (by rw [hpc]; rfl) hguard ?_ (by cases signals <;> rfl)
      rw [← hexec, Program.exec]
  | _ => exact .keeps rfl (by rw [hpc]; rfl)

omit [DecidableEq T] in
theorem follows_initial (h : R init start) :
    Follows method init perform R start (initial init : State T σ κ ρ) where
  atomic := atomic_initial init
  related := h
  results before record after hlog := by
    simp [initial] at hlog

theorem Follows.step (hs : Follows method init perform R start s)
    (hmethod : ∀ call, (s.pcs t).pending? = some call →
      (method call).guard (final method init s.shared.log) = true →
      R ((method call).program.exec (final method init s.shared.log)).1
          (perform (specified perform start s.shared.log) call).1 ∧
        ((method call).program.exec (final method init s.shared.log)).2.1 =
          (perform (specified perform start s.shared.log) call).2)
    (hstep : Monitor.step method s (t, action) = some s') :
    Follows method init perform R start s' := by
  have hatomic := hs.atomic.step hstep
  obtain ⟨pc, -, heffect⟩ := effect_of_step hs.atomic hstep
  cases heffect with
  | begins call haction hlog hpc =>
      exact ⟨hatomic, by rw [hlog]; exact hs.related, by rw [hlog]; exact hs.results⟩
  | keeps hlog hpc =>
      exact ⟨hatomic, by rw [hlog]; exact hs.related, by rw [hlog]; exact hs.results⟩
  | passes call hcall hguard hlog hpc =>
      obtain ⟨hrelated, hresult⟩ := hmethod call hcall hguard
      refine ⟨hatomic, ?_, ?_⟩
      · rw [hlog, final_snoc, specified_snoc]
        exact hrelated
      · intro before record after hsplit
        exact forall_split_snoc hs.results hresult (hlog ▸ hsplit)

end Specification

/-! ## No lost signal -/

section Watched

variable [DecidableEq T] (method : κ → Method σ ρ) (init : σ) (watcher : T)

/-- The method may have to wait. -/
def Waits (call : κ) : Prop := ∃ data, (method call).guard data = false

/-- Only the watcher calls methods that may have to wait. -/
def OneWatcher (_ : State T σ κ ρ) (label : T × Action T κ) : Prop :=
  ∀ call, label.2 = .call call → Waits method call → label.1 = watcher

/-- If the method makes a guard true on the data, it signals. -/
def SignalsWhenTrue (data : σ) (call : κ) : Prop :=
  ∀ waiting, (method waiting).guard data = false →
    (method waiting).guard ((method call).program.exec data).1 = true →
    ((method call).program.exec data).2.2 = true

/-- While the guard of a sleeper is true, somebody is about to signal. -/
def Awaited (pcs : T → Pc σ κ ρ) (sleepers : Finset T) (committed : σ) : Prop :=
  ∀ t ∈ sleepers, ∃ call, pcs t = .sleeping call ∧ Waits method call ∧
    ((method call).guard committed = false ∨ ∃ u, (pcs u).signals)

/-- Only the watcher waits, and no signal to it is lost. -/
structure Watched (s : State T σ κ ρ) : Prop where
  waits : ∀ t call, (s.pcs t).pending? = some call → Waits method call → t = watcher
  awaited : Awaited method s.pcs s.shared.sleepers (final method init s.shared.log)

variable {method init watcher}

omit [DecidableEq T] in
theorem watched_initial (data : σ) :
    Watched method data watcher (initial data : State T σ κ ρ) where
  waits _ _ := nofun
  awaited t ht := absurd ht (Finset.notMem_empty t)

section Update

variable {pcs : T → Pc σ κ ρ} {t : T} {pc : Pc σ κ ρ} {sleepers sleepers' : Finset T}
  {committed : σ}

omit [DecidableEq T] in
theorem Awaited.ne_of_not_sleeps (h : Awaited method pcs sleepers committed)
    (ht : ¬(pcs t).sleeps) {u : T} (hu : u ∈ sleepers) : u ≠ t := by
  rintro rfl
  obtain ⟨call, hcall, -⟩ := h u hu
  rw [hcall] at ht
  exact ht trivial

theorem signals_update {u : T} (ht : ¬(pcs t).signals) (hu : (pcs u).signals) :
    (Function.update pcs t pc u).signals := by
  have hne : u ≠ t := by
    rintro rfl
    exact ht hu
  rwa [Function.update_of_ne hne]

/-- A thread that does not signal, now or before, changes nothing for the other sleepers. -/
theorem Awaited.update (h : Awaited method pcs sleepers committed) (ht : ¬(pcs t).signals)
    (hsleepers : ∀ u ∈ sleepers', u ≠ t ∧ u ∈ sleepers) :
    Awaited method (Function.update pcs t pc) sleepers' committed := by
  intro u hu
  obtain ⟨hne, hmem⟩ := hsleepers u hu
  obtain ⟨call, hcall, hwaits, hquiet⟩ := h u hmem
  refine ⟨call, by rw [Function.update_of_ne hne, hcall], hwaits, hquiet.imp_right ?_⟩
  rintro ⟨v, hv⟩
  exact ⟨v, signals_update ht hv⟩

theorem waits_update
    (h : ∀ u call, (pcs u).pending? = some call → Waits method call → u = watcher)
    (hpc : ∀ call, pc.pending? = some call → Waits method call → t = watcher) (u : T) (call : κ)
    (hu : (Function.update pcs t pc u).pending? = some call) (hwaits : Waits method call) :
    u = watcher := by
  by_cases hut : u = t
  · rw [hut, Function.update_self] at hu
    exact hut ▸ hpc call hu hwaits
  · rw [Function.update_of_ne hut] at hu
    exact h u call hu hwaits

end Update

theorem Watched.step {s s' : State T σ κ ρ} {label : T × Action T κ}
    (hs : Watched method init watcher s) (hatomic : Atomic method init s)
    (hsignals : ∀ call, (s.pcs label.1).pending? = some call →
      (method call).guard (final method init s.shared.log) = true →
      SignalsWhenTrue method (final method init s.shared.log) call)
    (hone : OneWatcher method watcher s label) (hstep : step method s label = some s') :
    Watched method init watcher s' := by
  obtain ⟨⟨shared, pc⟩, hadvance, rfl⟩ := Option.map_eq_some_iff.mp hstep
  obtain ⟨t, action⟩ := label
  have hmove := move_of_advance hadvance
  have hwaits := hs.waits t
  have hagrees := hatomic.agrees t
  have hawaited := hs.awaited
  dsimp only at hmove hwaits hagrees hone hsignals ⊢
  generalize hpc : s.pcs t = old at hmove hwaits hagrees hsignals
  -- Most steps neither signal nor come from a sleeper.
  have hkeep (hsleep : ¬old.sleeps) (hsignal : ¬old.signals) (pc : Pc σ κ ρ) :
      Awaited method (Function.update s.pcs t pc) s.shared.sleepers
        (final method init s.shared.log) :=
    hawaited.update (hpc ▸ hsignal) fun u hu =>
      ⟨hawaited.ne_of_not_sleeps (hpc ▸ hsleep) hu, hu⟩
  cases hmove with
  | call call =>
      refine ⟨waits_update hs.waits ?_, hkeep not_false not_false _⟩
      rintro _ ⟨⟩
      exact hone call rfl
  | lock call hfree => exact ⟨waits_update hs.waits hwaits, hkeep not_false not_false _⟩
  | pass call hguard => exact ⟨waits_update hs.waits hwaits, hkeep not_false not_false _⟩
  | sleep call hguard =>
      have hdata : s.shared.data = final method init s.shared.log := hagrees
      refine ⟨waits_update hs.waits hwaits, ?_⟩
      intro u hu
      by_cases hut : u = t
      · refine ⟨call, ?_, ⟨_, hguard⟩, .inl (hdata ▸ hguard)⟩
        exact hut ▸ Function.update_self ..
      · exact hkeep not_false not_false _ u ((Finset.mem_insert.mp hu).resolve_left hut)
  | wake call =>
      refine ⟨waits_update hs.waits hwaits, hawaited.update (hpc ▸ not_false) fun u hu => ?_⟩
      exact Finset.mem_erase.mp hu
  | access call write next => exact ⟨waits_update hs.waits hwaits, hkeep not_false not_false _⟩
  | unlock call result signals =>
      obtain ⟨hguard, hexec⟩ := hagrees
      refine ⟨waits_update hs.waits ?_, ?_⟩
      · intro other hother
        cases signals <;> exact nomatch hother
      intro u hu
      obtain ⟨waiting, hwaiting, hmay, hquiet⟩ := hkeep not_false not_false
        (if signals then .signaling call result else .returning call result) u hu
      refine ⟨waiting, hwaiting, hmay, ?_⟩
      rw [final_snoc]
      rcases hquiet with hquiet | hsignaling
      · by_cases htrue : (method waiting).guard
            ((method call).program.exec (final method init s.shared.log)).1 = true
        · have hsignal := hsignals call rfl hguard waiting hquiet htrue
          rw [← hexec, Program.exec] at hsignal
          have hsignal : signals = true := hsignal
          refine .inr ⟨t, ?_⟩
          dsimp only
          rw [Function.update_self, hsignal]
          exact trivial
        · exact .inl (Bool.eq_false_of_not_eq_true htrue)
      · exact .inr hsignaling
  | signal call result u hu =>
      refine ⟨waits_update hs.waits nofun, fun v hv => ?_⟩
      obtain ⟨hne, hmem⟩ := Finset.mem_erase.mp hv
      have hwatches {w : T} (hw : w ∈ s.shared.sleepers) : w = watcher := by
        obtain ⟨waiting, hwaiting, hmay, -⟩ := hawaited w hw
        exact hs.waits w waiting (by rw [hwaiting]; rfl) hmay
      exact absurd ((hwatches hmem).trans (hwatches hu).symm) hne
  | signalNobody call result hnone =>
      refine ⟨waits_update hs.waits nofun, fun v hv => ?_⟩
      rw [hnone] at hv
      exact absurd hv (Finset.notMem_empty v)
  | leave call result =>
      exact ⟨waits_update hs.waits nofun, hkeep not_false not_false _⟩

omit [DecidableEq T] in
/-- When nobody is about to signal, a sleeper has nothing to go on for. -/
theorem Watched.asleep {s : State T σ κ ρ} (hs : Watched method init watcher s)
    (hquiet : ∀ u, ¬(s.pcs u).signals) {t : T} (ht : t ∈ s.shared.sleepers) :
    ∃ call, s.pcs t = .sleeping call ∧
      (method call).guard (final method init s.shared.log) = false := by
  obtain ⟨call, hcall, -, hfalse | ⟨u, hu⟩⟩ := hs.awaited t ht
  · exact ⟨call, hcall, hfalse⟩
  · exact absurd hu (hquiet u)

end Watched

end Support.Monitor
