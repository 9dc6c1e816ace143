import Mathlib.Data.List.Nodup
import Mathlib.Logic.Function.Basic
import Mathlib.Logic.Relation
import Mathlib.Order.Defs.PartialOrder
/-!
# Locks and joins in a fixed order

Threads run calls, one after the other.  A call is a list of actions: it takes and
releases locks, creates threads and joins the workers.  If every call takes its locks in
the order of their ranks, joins below the locks of the workers, and holds nothing that is
not below what it waits for, no threads ever wait for each other in a circle.
-/

namespace Support.LockOrder

variable {T L ρ κ R : Type*}

inductive Action (L ρ : Type*)
  | lock (mutex : L)
  | unlock (mutex : L)
  | spawn (role : ρ)
  | join
  deriving DecidableEq

/-- The lock is held while the body runs. -/
def locked (mutex : L) (body : List (Action L ρ)) : List (Action L ρ) :=
  .lock mutex :: (body ++ [.unlock mutex])

structure Thread (L ρ : Type*) where
  role : ρ
  rest : List (Action L ρ) := []
  done : Bool := false

/-- `workers` are the threads that a join waits for. -/
structure System (T L ρ : Type*) where
  threads : T → Option (Thread L ρ) := fun _ => none
  holder : L → Option T := fun _ => none
  workers : List T := []

/-- What the threads of each role may call, and which threads are workers. -/
structure Rules (L ρ κ : Type*) where
  joined : ρ → Bool
  code : ρ → κ → Option (List (Action L ρ))

/-- A thread starts by itself, begins a call, takes its next action, which may concern
another thread, or ends. -/
inductive Move (T ρ κ : Type*)
  | create (role : ρ)
  | begin (call : κ)
  | next (other : T)
  | exit

section Step

variable [DecidableEq T] [DecidableEq L]

def System.setThread (s : System T L ρ) (t : T) (thread : Thread L ρ) : System T L ρ :=
  { s with threads := Function.update s.threads t (some thread) }

def System.setHolder (s : System T L ρ) (mutex : L) (holder : Option T) : System T L ρ :=
  { s with holder := Function.update s.holder mutex holder }

/-- Thread `t` takes its next action. -/
def advance (rules : Rules L ρ κ) (s : System T L ρ) (t other : T) (thread : Thread L ρ) :
    Option (System T L ρ) :=
  match thread.rest with
  | [] => none
  | .lock mutex :: rest =>
      if (s.holder mutex).isNone then
        some ((s.setThread t { thread with rest }).setHolder mutex (some t))
      else none
  | .unlock mutex :: rest =>
      if s.holder mutex = some t then
        some ((s.setThread t { thread with rest }).setHolder mutex none)
      else none
  | .spawn role :: rest =>
      if (s.threads other).isNone then
        let spawned := (s.setThread t { thread with rest }).setThread other { role }
        some (if rules.joined role then { spawned with workers := other :: s.workers }
          else spawned)
      else none
  | .join :: rest =>
      if s.workers = [] then some (s.setThread t { thread with rest })
      else if other ∈ s.workers ∧ (s.threads other).any Thread.done then
        some { s with workers := s.workers.erase other }
      else none

def step (rules : Rules L ρ κ) (s : System T L ρ) (label : T × Move T ρ κ) :
    Option (System T L ρ) :=
  match s.threads label.1, label.2 with
  | none, .create role =>
      if rules.joined role then none else some (s.setThread label.1 { role })
  | some thread, .begin call =>
      if thread.done ∨ ¬thread.rest.isEmpty then none
      else (rules.code thread.role call).map fun rest =>
        s.setThread label.1 { thread with rest }
  | some thread, .next other => advance rules s label.1 other thread
  | some thread, .exit =>
      if thread.done ∨ ¬thread.rest.isEmpty then none
      else some (s.setThread label.1 { thread with done := true })
  | _, _ => none

end Step

/-- `t` cannot go on until `u` releases a lock or ends. -/
def WaitsFor (s : System T L ρ) (t u : T) : Prop :=
  ∃ thread rest, s.threads t = some thread ∧
    ((∃ mutex, thread.rest = .lock mutex :: rest ∧ s.holder mutex = some u) ∨
      (thread.rest = .join :: rest ∧ u ∈ s.workers ∧
        ∃ worker, s.threads u = some worker ∧ worker.done = false))

/-! ## Calls that keep the order -/

section Ordered

variable [Preorder R] [DecidableEq L] (rank : L → R) (joinRank : R)

/-- With the locks in `held`, the actions only wait for what is above them, and at the
end no lock is held. -/
def Ordered : List L → List (Action L ρ) → Prop
  | held, [] => held = []
  | held, .lock mutex :: rest =>
      (∀ other ∈ held, rank other < rank mutex) ∧ Ordered (mutex :: held) rest
  | held, .unlock mutex :: rest => mutex ∈ held ∧ Ordered (held.erase mutex) rest
  | held, .spawn _ :: rest => Ordered held rest
  | held, .join :: rest => (∀ other ∈ held, rank other < joinRank) ∧ Ordered held rest

/-- Workers take locks above the join only, and never join. -/
def Above (rest : List (Action L ρ)) : Prop :=
  ∀ action ∈ rest, action ≠ .join ∧ ∀ mutex, action = .lock mutex → joinRank < rank mutex

/-- Every call is ordered, and those of workers stay above the join. -/
structure Rules.Ranked (rules : Rules L ρ κ) : Prop where
  ordered : ∀ {role call rest}, rules.code role call = some rest → Ordered rank joinRank [] rest
  above : ∀ {role call rest}, rules.joined role = true → rules.code role call = some rest →
    Above rank joinRank rest

/-- Actions that give back every lock that they take, and that may run with the locks in
`held`. -/
def Balanced (held : List L) (actions : List (Action L ρ)) : Prop :=
  ∀ rest, Ordered rank joinRank held rest → Ordered rank joinRank held (actions ++ rest)

variable {rank joinRank} {held : List L} {xs ys : List (Action L ρ)}

theorem Balanced.ordered (h : Balanced rank joinRank [] xs) : Ordered rank joinRank [] xs := by
  have hxs := h [] rfl
  rwa [List.append_nil] at hxs

theorem Balanced.nil : Balanced rank joinRank held ([] : List (Action L ρ)) :=
  fun _ h => h

theorem Balanced.append (hx : Balanced rank joinRank held xs)
    (hy : Balanced rank joinRank held ys) : Balanced rank joinRank held (xs ++ ys) := by
  intro rest hrest
  rw [List.append_assoc]
  exact hx _ (hy rest hrest)

theorem Balanced.flatten {calls : List (List (Action L ρ))}
    (h : ∀ actions ∈ calls, Balanced rank joinRank held actions) :
    Balanced rank joinRank held calls.flatten := by
  induction calls with
  | nil => exact Balanced.nil
  | cons actions calls ih =>
      rw [List.flatten_cons]
      exact (h actions (List.mem_cons_self ..)).append
        (ih fun other hother => h other (List.mem_cons_of_mem _ hother))

theorem Balanced.locked {mutex : L} (hrank : ∀ other ∈ held, rank other < rank mutex)
    (h : Balanced rank joinRank (mutex :: held) xs) :
    Balanced rank joinRank held (LockOrder.locked mutex xs) := by
  intro rest hrest
  have hscope : LockOrder.locked mutex xs ++ rest =
      .lock mutex :: (xs ++ .unlock mutex :: rest) := by
    simp [LockOrder.locked]
  rw [hscope]
  refine ⟨hrank, h _ ⟨List.mem_cons_self .., ?_⟩⟩
  rw [List.erase_cons_head]
  exact hrest

theorem Balanced.join (hrank : ∀ other ∈ held, rank other < joinRank) :
    Balanced rank joinRank held ([.join] : List (Action L ρ)) :=
  fun _ hrest => ⟨hrank, hrest⟩

theorem Balanced.spawn (role : ρ) : Balanced rank joinRank held [.spawn role] :=
  fun _ hrest => hrest

omit [DecidableEq L] in
theorem Above.append (hx : Above rank joinRank xs) (hy : Above rank joinRank ys) :
    Above rank joinRank (xs ++ ys) :=
  fun action haction => (List.mem_append.mp haction).elim (hx action) (hy action)

omit [DecidableEq L] in
theorem Above.nil : Above rank joinRank ([] : List (Action L ρ)) :=
  fun _ h => absurd h List.not_mem_nil

omit [DecidableEq L] in
theorem Above.locked {mutex : L} (hrank : joinRank < rank mutex) (h : Above rank joinRank xs) :
    Above rank joinRank (LockOrder.locked mutex xs) := by
  intro action haction
  rw [LockOrder.locked, List.mem_cons, List.mem_append, List.mem_singleton] at haction
  rcases haction with rfl | hbody | rfl
  · refine ⟨by simp, fun other hother => ?_⟩
    rw [← Action.lock.inj hother]
    exact hrank
  · exact h action hbody
  · simp

omit [DecidableEq L] in
theorem Above.tail {action : Action L ρ} (h : Above rank joinRank (action :: xs)) :
    Above rank joinRank xs :=
  fun other hother => h other (List.mem_cons_of_mem _ hother)

end Ordered

/-! ## No circle of waiting threads -/

section Sound

variable [Preorder R] [DecidableEq T] [DecidableEq L] {rank : L → R} {joinRank : R}
  {rules : Rules L ρ κ} {s s' : System T L ρ}

variable (rank joinRank rules) in
/-- Every thread keeps to the order with the locks that it holds, and the threads that a
join waits for are workers. -/
structure Sound (s : System T L ρ) : Prop where
  threads : ∀ t thread, s.threads t = some thread → ∃ held : List L, held.Nodup ∧
    (∀ mutex, s.holder mutex = some t ↔ mutex ∈ held) ∧ Ordered rank joinRank held thread.rest
  absent : ∀ t, s.threads t = none → ∀ mutex, s.holder mutex ≠ some t
  workers : ∀ u ∈ s.workers, ∃ worker, s.threads u = some worker ∧
    rules.joined worker.role = true
  above : ∀ t thread, s.threads t = some thread → rules.joined thread.role = true →
    Above rank joinRank thread.rest

omit [DecidableEq T] in
theorem Sound.init : Sound rank joinRank rules ({} : System T L ρ) where
  threads t thread h := by simp at h
  absent t _ mutex := by simp
  workers u h := by simp at h
  above t thread h := by simp at h

omit [DecidableEq L] in
theorem setThread_other (thread : Thread L ρ) {t u : T} (hut : u ≠ t) :
    (s.setThread t thread).threads u = s.threads u :=
  Function.update_of_ne hut ..

omit [DecidableEq L] in
theorem update_eq_some {f : T → Option (Thread L ρ)} {t u : T} {next thread : Thread L ρ} :
    Function.update f t (some next) u = some thread ↔
      u = t ∧ next = thread ∨ u ≠ t ∧ f u = some thread := by
  by_cases hut : u = t
  · simp [hut]
  · simp [hut]

omit [DecidableEq L] in
theorem update_eq_none {f : T → Option (Thread L ρ)} {t u : T} {next : Thread L ρ}
    (h : Function.update f t (some next) u = none) : u ≠ t ∧ f u = none := by
  by_cases hut : u = t
  · simp [hut] at h
  · exact ⟨hut, by simpa [hut] using h⟩

/-- A thread goes on, perhaps with other locks. -/
theorem Sound.set (h : Sound rank joinRank rules s) {t : T} {thread next : Thread L ρ}
    (ht : s.threads t = some thread) (hrole : next.role = thread.role)
    (habove : rules.joined thread.role = true → Above rank joinRank next.rest)
    {holder : L → Option T} {held : List L} (hnodup : held.Nodup)
    (hheld : ∀ mutex, holder mutex = some t ↔ mutex ∈ held)
    (hordered : Ordered rank joinRank held next.rest)
    (hother : ∀ u, u ≠ t → ∀ mutex, holder mutex = some u ↔ s.holder mutex = some u) :
    Sound rank joinRank rules
      { s with threads := Function.update s.threads t (some next), holder } where
  threads u other hu := by
    rcases update_eq_some.mp hu with ⟨rfl, rfl⟩ | ⟨hut, hu⟩
    · exact ⟨held, hnodup, hheld, hordered⟩
    · obtain ⟨locks, hlocks, hholds, hrest⟩ := h.threads u other hu
      exact ⟨locks, hlocks, fun mutex => (hother u hut mutex).trans (hholds mutex), hrest⟩
  absent u hu mutex hholder := by
    obtain ⟨hut, hnone⟩ := update_eq_none hu
    exact h.absent u hnone mutex ((hother u hut mutex).mp hholder)
  workers u hu := by
    obtain ⟨worker, hworker, hjoined⟩ := h.workers u hu
    by_cases hut : u = t
    · have hsame : thread = worker := Option.some.inj (ht.symm.trans (hut ▸ hworker))
      exact ⟨next, update_eq_some.mpr (Or.inl ⟨hut, rfl⟩), by rw [hrole, hsame]; exact hjoined⟩
    · exact ⟨worker, update_eq_some.mpr (Or.inr ⟨hut, hworker⟩), hjoined⟩
  above u other hu hjoined := by
    rcases update_eq_some.mp hu with ⟨rfl, rfl⟩ | ⟨-, hu⟩
    · exact habove (hrole ▸ hjoined)
    · exact h.above u other hu hjoined

/-- A new thread has nothing to do yet. -/
theorem Sound.add (h : Sound rank joinRank rules s) {t : T} (ht : s.threads t = none) {role : ρ}
    {workers : List T}
    (hworkers : ∀ u ∈ workers, u ∈ s.workers ∨ u = t ∧ rules.joined role = true) :
    Sound rank joinRank rules
      { s with threads := Function.update s.threads t (some { role }), workers } where
  threads u other hu := by
    rcases update_eq_some.mp hu with ⟨rfl, rfl⟩ | ⟨-, hu⟩
    · refine ⟨[], List.nodup_nil, fun mutex => ?_, rfl⟩
      exact iff_of_false (h.absent u ht mutex) List.not_mem_nil
    · exact h.threads u other hu
  absent u hu mutex := h.absent u (update_eq_none hu).2 mutex
  workers u hu := by
    rcases hworkers u hu with hold | ⟨hut, hjoined⟩
    · obtain ⟨worker, hworker, hjoined⟩ := h.workers u hold
      have hut : u ≠ t := by
        rintro rfl
        exact Option.some_ne_none _ (hworker.symm.trans ht)
      exact ⟨worker, update_eq_some.mpr (Or.inr ⟨hut, hworker⟩), hjoined⟩
    · exact ⟨{ role }, update_eq_some.mpr (Or.inl ⟨hut, rfl⟩), hjoined⟩
  above u other hu hjoined := by
    rcases update_eq_some.mp hu with ⟨rfl, rfl⟩ | ⟨-, hu⟩
    · exact Above.nil
    · exact h.above u other hu hjoined

/-- The locks of a thread do not change while it takes an action that is about none. -/
theorem Sound.keep (h : Sound rank joinRank rules s) {t : T} {thread next : Thread L ρ}
    (ht : s.threads t = some thread) (hrole : next.role = thread.role)
    (habove : rules.joined thread.role = true → Above rank joinRank next.rest)
    (hordered : ∀ held, Ordered rank joinRank held thread.rest →
      Ordered rank joinRank held next.rest) :
    Sound rank joinRank rules (s.setThread t next) := by
  obtain ⟨held, hnodup, hheld, hrest⟩ := h.threads t thread ht
  exact h.set ht hrole habove hnodup hheld (hordered held hrest) fun _ _ _ => Iff.rfl

theorem Sound.advance (h : Sound rank joinRank rules s) {t other : T} {thread : Thread L ρ}
    (ht : s.threads t = some thread) (hstep : advance rules s t other thread = some s') :
    Sound rank joinRank rules s' := by
  obtain ⟨held, hnodup, hheld, hordered⟩ := h.threads t thread ht
  have habove := h.above t thread ht
  unfold LockOrder.advance at hstep
  split at hstep
  · simp at hstep
  · next mutex rest hrest =>
      have hrole : ({ thread with rest } : Thread L ρ).role = thread.role := rfl
      rw [hrest] at hordered habove
      split_ifs at hstep with hfree
      rw [← Option.some.inj hstep]
      have hnone : s.holder mutex = none := Option.isNone_iff_eq_none.mp hfree
      have hnew : mutex ∉ held := fun hmem => by
        rw [(hheld mutex).mpr hmem] at hnone
        exact Option.some_ne_none _ hnone
      refine h.set ht hrole (fun hjoined => (habove hjoined).tail)
        (List.nodup_cons.mpr ⟨hnew, hnodup⟩) (fun lock => ?_) hordered.2 fun u hut lock => ?_
      · by_cases hlock : lock = mutex
        · simp [hlock]
        · simp only [System.setThread, Function.update_of_ne hlock, List.mem_cons, hlock, false_or]
          exact hheld lock
      · by_cases hlock : lock = mutex
        · simp [hlock, System.setThread, hnone, Ne.symm hut]
        · simp only [System.setThread, Function.update_of_ne hlock]
  · next mutex rest hrest =>
      have hrole : ({ thread with rest } : Thread L ρ).role = thread.role := rfl
      rw [hrest] at hordered habove
      split_ifs at hstep with hholder
      rw [← Option.some.inj hstep]
      refine h.set ht hrole (fun hjoined => (habove hjoined).tail) (hnodup.erase mutex)
        (fun lock => ?_) hordered.2 fun u hut lock => ?_
      · rw [hnodup.mem_erase_iff]
        by_cases hlock : lock = mutex
        · simp [hlock]
        · simp only [System.setThread, Function.update_of_ne hlock, hheld lock, ne_eq, hlock,
            not_false_eq_true, true_and]
      · by_cases hlock : lock = mutex
        · simp [hlock, System.setThread, hholder, Ne.symm hut]
        · simp only [System.setThread, Function.update_of_ne hlock]
  · next role rest hrest =>
      rw [hrest] at hordered habove
      split_ifs at hstep with hfree hjoined
      all_goals
        have hkept := h.keep ht (by rfl : ({ thread with rest } : Thread L ρ).role = thread.role)
          (fun hworker => (habove hworker).tail) fun locks hlocks => by
            rw [hrest] at hlocks
            exact hlocks
        have habsent : (s.setThread t { thread with rest }).threads other = none := by
          have hnone := Option.isNone_iff_eq_none.mp hfree
          have hother : other ≠ t := fun heq => by simp [heq, ht] at hnone
          exact (setThread_other _ hother).trans hnone
        rw [← Option.some.inj hstep]
      · exact hkept.add habsent fun u hu => by
          rcases List.mem_cons.mp hu with rfl | hu
          · exact Or.inr ⟨rfl, hjoined⟩
          · exact Or.inl hu
      · exact hkept.add habsent fun u hu => Or.inl hu
  · next rest hrest =>
      have hrole : ({ thread with rest } : Thread L ρ).role = thread.role := rfl
      rw [hrest] at hordered habove
      split_ifs at hstep with hempty hdone
      · rw [← Option.some.inj hstep]
        exact h.set ht hrole (fun hjoined => (habove hjoined).tail) hnodup hheld hordered.2
          fun _ _ _ => Iff.rfl
      · rw [← Option.some.inj hstep]
        exact ⟨h.threads, h.absent, fun u hu => h.workers u (List.mem_of_mem_erase hu), h.above⟩

theorem Sound.step (hrules : rules.Ranked rank joinRank) (h : Sound rank joinRank rules s)
    {label : T × Move T ρ κ} (hstep : step rules s label = some s') :
    Sound rank joinRank rules s' := by
  obtain ⟨t, move⟩ := label
  unfold LockOrder.step at hstep
  split at hstep
  · next role hnone _ =>
      split_ifs at hstep
      rw [← Option.some.inj hstep]
      exact h.add hnone fun u hu => Or.inl hu
  · next thread call hthread _ =>
      split_ifs at hstep with hbusy
      obtain ⟨rest, hcode, rfl⟩ := Option.map_eq_some_iff.mp hstep
      have hidle : thread.rest = [] := by
        rw [not_or, not_not, List.isEmpty_iff] at hbusy
        exact hbusy.2
      refine h.keep hthread rfl (fun hjoined => hrules.above hjoined hcode) fun held hheld => ?_
      rw [hidle] at hheld
      rw [show held = [] from hheld]
      exact hrules.ordered hcode
  · next thread other hthread _ => exact h.advance hthread hstep
  · next thread hthread _ =>
      split_ifs at hstep
      rw [← Option.some.inj hstep]
      exact h.keep hthread rfl (h.above t thread hthread) fun _ hheld => hheld
  · simp at hstep

/-- The rank of what a thread waits for. -/
def waitRank (rank : L → R) (joinRank : R) (thread : Thread L ρ) : R :=
  match thread.rest with
  | .lock mutex :: _ => rank mutex
  | _ => joinRank

omit [DecidableEq T] in
/-- Whoever is waited for waits for something higher, if at all. -/
theorem Sound.waitRank_lt (h : Sound rank joinRank rules s) {t u v : T}
    {thread other : Thread L ρ} (ht : s.threads t = some thread) (hu : s.threads u = some other)
    (htu : WaitsFor s t u) (huv : WaitsFor s u v) :
    waitRank rank joinRank thread < waitRank rank joinRank other := by
  obtain ⟨_, restT, ht', hwaitT⟩ := htu
  obtain ⟨_, restU, hu', hwaitU⟩ := huv
  obtain rfl := Option.some.inj (ht'.symm.trans ht)
  obtain rfl := Option.some.inj (hu'.symm.trans hu)
  obtain ⟨held, -, hheld, hordered⟩ := h.threads u _ hu
  rcases hwaitT with ⟨mutex, hrestT, hholder⟩ | ⟨hrestT, hworker, -⟩
  · have hmem := (hheld mutex).mp hholder
    rcases hwaitU with ⟨next, hrestU, -⟩ | ⟨hrestU, -⟩
    · rw [hrestU] at hordered
      simp only [waitRank, hrestT, hrestU]
      exact hordered.1 mutex hmem
    · rw [hrestU] at hordered
      simp only [waitRank, hrestT, hrestU]
      exact hordered.1 mutex hmem
  · obtain ⟨worker, hworker, hjoined⟩ := h.workers u hworker
    obtain rfl := Option.some.inj (hworker.symm.trans hu)
    have habove := h.above u _ hu hjoined
    rcases hwaitU with ⟨next, hrestU, -⟩ | ⟨hrestU, -⟩
    · simp only [waitRank, hrestT, hrestU]
      rw [hrestU] at habove
      exact (habove _ (List.mem_cons_self ..)).2 next rfl
    · rw [hrestU] at habove
      exact absurd rfl (habove _ (List.mem_cons_self ..)).1

omit [DecidableEq T] in
/-- The ranks grow along every chain of waiting threads. -/
theorem Sound.chain (h : Sound rank joinRank rules s) {t u v : T}
    (htu : Relation.TransGen (WaitsFor s) t u) (huv : WaitsFor s u v) :
    ∃ thread other, s.threads t = some thread ∧ s.threads u = some other ∧
      waitRank rank joinRank thread < waitRank rank joinRank other := by
  induction htu generalizing v with
  | single htu =>
      obtain ⟨thread, _, ht, -⟩ := id htu
      obtain ⟨other, _, hu, -⟩ := id huv
      exact ⟨thread, other, ht, hu, h.waitRank_lt ht hu htu huv⟩
  | tail _ hwait ih =>
      obtain ⟨thread, middle, ht, hmiddle, hlt⟩ := ih hwait
      obtain ⟨other, _, hu, -⟩ := id huv
      exact ⟨thread, other, ht, hu, lt_trans hlt (h.waitRank_lt hmiddle hu hwait huv)⟩

omit [DecidableEq T] in
theorem Sound.acyclic (h : Sound rank joinRank rules s) (t : T) :
    ¬Relation.TransGen (WaitsFor s) t t := by
  intro hcycle
  obtain ⟨u, htu, -⟩ := Relation.TransGen.head'_iff.mp hcycle
  obtain ⟨thread, other, ht, hother, hlt⟩ := h.chain hcycle htu
  rw [Option.some.inj (ht.symm.trans hother)] at hlt
  exact lt_irrefl _ hlt

end Sound

end Support.LockOrder
