import MoonlightScarlet.Core.Proofs.LinkedBlockingQueue
/-!
# Runs of the queue

However the threads interleave, their calls return what the list says.  What was accepted
is taken off once and in order, a drained queue has handed out everything, and the one
thread that waits does not miss the signal for what it waits for.
-/

namespace MoonlightScarlet.Core.LinkedBlockingQueue

open Support Support.Monitor Support.Runs

/-! ## Logs -/

abbrev Log (T P D : Type) := List (Record T (Call P D) (Result P D))

variable {T P D : Type}

abbrev contentsAfter (bound : Nat) (log : Log T P D) : Contents P D :=
  specified Contents.perform { bound } log

/-- The element that a call put on the queue. -/
def accepted : Call P D → Result P D → List D
  | .offer data _, .code .success => [data]
  | _, _ => []

def elementOf : Result P D → List D
  | .element data => [data]
  | _ => []

/-- The elements that a call took off a queue with these contents. -/
def outgoing (contents : Contents P D) : Call P D → Result P D → List D
  | .poll, result => elementOf result
  | .wait, result => elementOf result
  | .flush, _ => contents.elements.map Prod.snd
  | _, _ => []

def acceptedIn (log : Log T P D) : List D :=
  log.flatMap fun record => accepted record.call record.result

/-- What was taken off the queue, in this order. -/
def removedIn (bound : Nat) (log : Log T P D) : List D :=
  (log.foldl (fun (state : Contents P D × List D) record =>
    ((state.1.perform record.call).1,
      state.2 ++ outgoing state.1 record.call record.result)) ({ bound }, [])).2

theorem removedIn_snoc (log : Log T P D) (record : Record T (Call P D) (Result P D)) :
    removedIn bound (log ++ [record]) = removedIn bound log ++
      outgoing (contentsAfter bound log) record.call record.result := by
  have hcontents (log : Log T P D) :
      (log.foldl (fun (state : Contents P D × List D) record =>
        ((state.1.perform record.call).1,
          state.2 ++ outgoing state.1 record.call record.result)) ({ bound }, [])).1 =
        contentsAfter bound log := by
    induction log using List.reverseRecOn with
    | nil => rfl
    | append_singleton log record ih =>
        rw [List.foldl_concat, contentsAfter, specified_snoc]
        exact congrArg (fun contents => (Contents.perform contents record.call).1) ih
  rw [removedIn, List.foldl_concat, hcontents]
  rfl

theorem found_false (contents : Contents P D) :
    (contents.found false).1 = contents := by
  unfold Contents.found
  cases contents.elements <;> rfl

theorem found_true (contents : Contents P D) :
    contents.elements.map Prod.snd = elementOf (contents.found true).2 ++
      (contents.found true).1.elements.map Prod.snd := by
  unfold Contents.found
  cases helements : contents.elements with
  | nil => simp [elementOf, helements]
  | cons element rest => rfl

/-- What a call puts on the queue goes behind, and what it takes off comes from the front. -/
theorem perform_balance (contents : Contents P D) (call : Call P D) :
    contents.elements.map Prod.snd ++ accepted call (contents.perform call).2 =
      outgoing contents call (contents.perform call).2 ++
        (contents.perform call).1.elements.map Prod.snd := by
  cases call with
  | offer data entry =>
      simp only [Contents.perform]
      split_ifs <;> simp [accepted, outgoing]
  | peek =>
      simp only [Contents.perform, accepted, outgoing, List.append_nil, List.nil_append]
      split_ifs
      · rfl
      all_goals rw [found_false]
  | poll =>
      simp only [Contents.perform, accepted, outgoing, List.append_nil]
      split_ifs
      · rfl
      all_goals exact found_true contents
  | wait =>
      simp only [Contents.perform, accepted, outgoing, List.append_nil]
      split_ifs
      · rfl
      · rfl
      · exact found_true contents
  | _ => simp [Contents.perform, accepted, outgoing]

section Logs

variable {bound : Nat} {log : Log T P D}

/-- The results of a log are those of the list. -/
def Returns (bound : Nat) (log : Log T P D) : Prop :=
  ∀ before record after, log = before ++ record :: after →
    record.result = ((contentsAfter bound before).perform record.call).2

/-- A property of the contents that every call keeps, by induction on the log. -/
theorem Returns.induction (h : Returns bound log) {I : Log T P D → Contents P D → Prop}
    (hnil : I [] { bound })
    (hsnoc : ∀ log record contents, I log contents →
      record.result = (contents.perform record.call).2 →
      contents = contentsAfter bound log →
      I (log ++ [record]) (contents.perform record.call).1) :
    I log (contentsAfter bound log) := by
  induction log using List.reverseRecOn with
  | nil => exact hnil
  | append_singleton log record ih =>
      have hlog : Returns bound log := by
        intro before x after hsplit
        exact h before x (after ++ [record]) (by rw [hsplit]; simp)
      rw [contentsAfter, specified_snoc]
      exact hsnoc log record _ (ih hlog) (h log record [] rfl) rfl

/-- Everything that was accepted was taken off in this order or is still there. -/
theorem Returns.balance (h : Returns bound log) :
    acceptedIn log = removedIn bound log ++ (contentsAfter bound log).elements.map Prod.snd := by
  refine h.induction (I := fun log contents =>
    acceptedIn log = removedIn bound log ++ contents.elements.map Prod.snd) rfl ?_
  rintro log record _ ih hresult rfl
  have hbalance := perform_balance (contentsAfter bound log) record.call
  rw [← hresult] at hbalance
  rw [acceptedIn, List.flatMap_append, List.flatMap_singleton, removedIn_snoc, ← acceptedIn, ih,
    List.append_assoc, hbalance, List.append_assoc]

theorem perform_bound (contents : Contents P D) (call : Call P D) :
    (contents.perform call).1.bound = contents.bound := by
  have hfound (take : Bool) : (contents.found take).1.bound = contents.bound := by
    unfold Contents.found
    cases contents.elements <;> cases take <;> rfl
  cases call with
  | offer data entry => simp only [Contents.perform]; split_ifs <;> rfl
  | peek => simp only [Contents.perform]; split_ifs <;> first | rfl | exact hfound _
  | poll => simp only [Contents.perform]; split_ifs <;> first | rfl | exact hfound _
  | wait => simp only [Contents.perform]; split_ifs <;> first | rfl | exact hfound _
  | _ => rfl

theorem Returns.bound_eq (h : Returns bound log) : (contentsAfter bound log).bound = bound :=
  h.induction (I := fun _ contents => contents.bound = bound) rfl
    fun _ _ _ ih _ _ => (perform_bound ..).trans ih

/-- A call found a queue that is drained. -/
def FoundDrained (record : Record T (Call P D) (Result P D)) : Prop :=
  (record.call = .wait ∨ record.call = .poll ∨ record.call = .peek) ∧
    record.result = .code .interrupted

theorem perform_shutdown {contents : Contents P D} {call : Call P D}
    (h : contents.shutdown = false) (hcall : call ≠ .signalShutdown) :
    (contents.perform call).1.shutdown = false := by
  have hfound (take : Bool) :
      (contents.found take).1.shutdown = false := by
    unfold Contents.found
    cases contents.elements <;> cases take <;> exact h
  cases call with
  | signalShutdown => exact absurd rfl hcall
  | offer data entry => simp only [Contents.perform]; split_ifs <;> exact h
  | peek => simp only [Contents.perform]; split_ifs <;> first | exact h | exact hfound _
  | poll => simp only [Contents.perform]; split_ifs <;> first | exact h | exact hfound _
  | wait => simp only [Contents.perform]; split_ifs <;> first | exact h | exact hfound _
  | _ => exact h

/-- A drained queue stays so. -/
theorem perform_drained {contents : Contents P D} (call : Call P D)
    (h : contents.draining = true ∧ contents.elements = []) :
    (contents.perform call).1.draining = true ∧ (contents.perform call).1.elements = [] := by
  have hfound (take : Bool) :
      (contents.found take).1 = contents := by
    unfold Contents.found
    rw [h.2]
  cases call with
  | offer data entry => simpa [Contents.perform, h.1] using h
  | peek => simp only [Contents.perform]; split_ifs <;> simpa [hfound] using h
  | poll => simp only [Contents.perform]; split_ifs <;> simpa [hfound] using h
  | wait => simp only [Contents.perform]; split_ifs <;> simpa [hfound] using h
  | flush => exact ⟨h.1, rfl⟩
  | signalShutdown => exact h
  | signalDrain => exact ⟨rfl, h.2⟩
  | signalUserWake => exact h

theorem drained_of_found {contents : Contents P D} {record : Record T (Call P D) (Result P D)}
    (hshutdown : contents.shutdown = false)
    (hresult : record.result = (contents.perform record.call).2) (h : FoundDrained record) :
    contents.draining = true ∧ contents.elements = [] := by
  obtain ⟨hcall, hinterrupted⟩ := h
  have hfound {take : Bool} (h : (contents.found take).2 = .code .interrupted) :
      contents.draining = true ∧ contents.elements = [] := by
    unfold Contents.found at h
    cases helements : contents.elements with
    | nil =>
        cases hdraining : contents.draining with
        | true => exact ⟨rfl, rfl⟩
        | false => simp [helements, hdraining] at h
    | cons element rest => simp [helements] at h
  rw [hinterrupted] at hresult
  rcases hcall with hcall | hcall | hcall <;> rw [hcall, Contents.perform, hshutdown] at hresult
  · cases hwake : contents.pendingUserWake with
    | true => simp [hwake] at hresult
    | false =>
        simp only [hwake, Bool.false_eq_true, if_false] at hresult
        exact hfound hresult.symm
  · exact hfound hresult.symm
  · exact hfound hresult.symm

/-- Once a call found the queue drained, it has handed out what it accepted, and takes no
more. -/
theorem Returns.drained (h : Returns bound log)
    (hshutdown : ∀ record ∈ log, record.call ≠ .signalShutdown)
    (hfound : ∃ record ∈ log, FoundDrained record) :
    (contentsAfter bound log).draining = true ∧ (contentsAfter bound log).elements = [] := by
  have hdrained := h.induction (I := fun log contents =>
    (∀ record ∈ log, record.call ≠ .signalShutdown) → contents.shutdown = false ∧
      ((∃ record ∈ log, FoundDrained record) →
        contents.draining = true ∧ contents.elements = [])) ?_ ?_
  · exact (hdrained hshutdown).2 hfound
  · intro _
    exact ⟨rfl, fun ⟨record, hmem, _⟩ => absurd hmem List.not_mem_nil⟩
  · intro log record contents ih hresult _ hcalls
    obtain ⟨hopen, hdrained⟩ := ih fun other hother => hcalls other (List.mem_append_left _ hother)
    refine ⟨perform_shutdown hopen (hcalls record List.mem_concat_self), ?_⟩
    rintro ⟨other, hother, hfound⟩
    apply perform_drained
    rcases List.mem_append.mp hother with hold | hnew
    · exact hdrained ⟨other, hold, hfound⟩
    · rw [List.mem_singleton.mp hnew] at hfound
      exact drained_of_found hopen hresult hfound

theorem perform_wake {contents : Contents P D} {call : Call P D}
    (h : contents.pendingUserWake = true ∨ call = .signalUserWake) :
    (contents.perform call).1.pendingUserWake = true ∨
      (contents.perform call).2 = .code .userWake := by
  have hfound (take : Bool) :
      (contents.found take).1.pendingUserWake = contents.pendingUserWake := by
    unfold Contents.found
    cases contents.elements <;> cases take <;> rfl
  cases call with
  | signalUserWake => exact .inl rfl
  | offer data entry =>
      have hpending := h.resolve_right (by simp)
      simp only [Contents.perform]
      split_ifs <;> exact .inl hpending
  | peek =>
      have hpending := h.resolve_right (by simp)
      simp only [Contents.perform]
      split_ifs
      · exact .inl hpending
      · exact .inl ((hfound false).trans hpending)
  | poll =>
      have hpending := h.resolve_right (by simp)
      simp only [Contents.perform]
      split_ifs
      · exact .inl hpending
      · exact .inl ((hfound true).trans hpending)
  | wait =>
      have hpending := h.resolve_right (by simp)
      simp only [Contents.perform]
      split_ifs
      · exact .inl hpending
      · exact .inr rfl
  | _ => exact .inl (h.resolve_right (by simp))

/-- A user wake stays pending until a call returns `LBQ_USER_WAKE`. -/
theorem Returns.wake (h : Returns bound log) {before after : Log T P D}
    {record : Record T (Call P D) (Result P D)} (hlog : log = before ++ record :: after)
    (hrecord : record.call = .signalUserWake) :
    (∃ other ∈ after, other.result = .code .userWake) ∨
      (contentsAfter bound log).pendingUserWake = true := by
  refine h.induction (I := fun log contents => ∀ before record after,
    log = before ++ record :: after → record.call = .signalUserWake →
      (∃ other ∈ after, other.result = .code .userWake) ∨ contents.pendingUserWake = true)
    ?_ ?_ before record after hlog hrecord
  · intro before record after hlog
    simp at hlog
  · intro log last contents ih hresult _ before record after hlog hrecord
    rcases List.eq_nil_or_concat after with rfl | ⟨init, final, rfl⟩
    · obtain ⟨-, hlast⟩ := List.append_inj' hlog rfl
      cases hlast
      rw [hrecord]
      exact .inr rfl
    · rw [List.concat_eq_append, ← List.cons_append, ← List.append_assoc] at hlog
      obtain ⟨hbefore, hlast⟩ := List.append_inj' hlog rfl
      cases hlast
      rcases ih before record init hbefore hrecord with ⟨other, hother, hwake⟩ | hpending
      · exact .inl ⟨other, by simp [hother], hwake⟩
      · rcases perform_wake (.inl hpending) with hstill | hwake
        · exact .inr hstill
        · exact .inl ⟨last, by simp, hresult.trans hwake⟩

end Logs

/-! ## Runs of the threads -/

section Runs

variable [DecidableEq T] [DecidableEq P] {bound : Nat} {memory : P → Entry P D}

abbrev QueueState (T P D : Type) := State T (Queue P D) (Call P D) (Result P D)

/-- An entry is offered when it is not on the queue and nobody else is offering it. -/
def OffersOwn (bound : Nat) (s : QueueState T P D)
    (label : T × Action T (Call P D)) : Prop :=
  ∀ data entry, label.2 = .call (.offer data entry) →
    entry ∉ (contentsAfter bound s.shared.log).elements.map Prod.fst ∧
    ∀ u data', (s.pcs u).pending? ≠ some (.offer data' entry)

/-- The queue follows its contents, and the entries that are being offered are apart from
it and from each other. -/
structure Faithful (bound : Nat) (memory : P → Entry P D) (s : QueueState T P D) : Prop where
  follows : Follows method (initializeLinkedBlockingQueue bound memory) Contents.perform
    Represents { bound } s
  fresh : ∀ t data entry, (s.pcs t).pending? = some (.offer data entry) →
    entry ∉ (contentsAfter bound s.shared.log).elements.map Prod.fst
  alone : ∀ t u data data' entry, (s.pcs t).pending? = some (.offer data entry) →
    (s.pcs u).pending? = some (.offer data' entry) → t = u

omit [DecidableEq P] in
/-- Only an accepted offer puts an entry on the queue. -/
theorem mem_elements_perform {contents : Contents P D} {call : Call P D} {p : P}
    (h : p ∈ (contents.perform call).1.elements.map Prod.fst) :
    p ∈ contents.elements.map Prod.fst ∨ ∃ data, call = .offer data p := by
  have htail {take : Bool}
      (h : p ∈ (contents.found take).1.elements.map Prod.fst) :
      p ∈ contents.elements.map Prod.fst := by
    unfold Contents.found at h
    cases helements : contents.elements with
    | nil => simp [helements] at h
    | cons element rest =>
        rw [helements] at h
        cases take with
        | true => exact List.mem_cons_of_mem _ h
        | false => simpa [helements] using h
  cases call with
  | offer data entry =>
      simp only [Contents.perform] at h
      split_ifs at h
      · exact .inl h
      · exact .inl h
      · rw [List.map_append, List.mem_append] at h
        refine h.imp_right fun hentry => ⟨data, ?_⟩
        rw [List.mem_singleton.mp hentry]
  | peek =>
      simp only [Contents.perform] at h
      split_ifs at h
      · exact .inl h
      all_goals exact .inl (htail h)
  | poll =>
      simp only [Contents.perform] at h
      split_ifs at h
      · exact .inl h
      all_goals exact .inl (htail h)
  | wait =>
      simp only [Contents.perform] at h
      split_ifs at h
      · exact .inl h
      · exact .inl h
      · exact .inl (htail h)
  | flush => exact absurd h List.not_mem_nil
  | _ => exact .inl h

omit [DecidableEq T] in
theorem faithful_initial : Faithful bound memory
    (initial (initializeLinkedBlockingQueue bound memory) : QueueState T P D) where
  follows := follows_initial
    ⟨.nil, nofun, rfl, ⟨rfl, Nat.zero_le _⟩, ⟨rfl, rfl, rfl⟩, rfl⟩
  fresh _ _ _ := nofun
  alone _ _ _ _ _ := nofun

omit [DecidableEq T] in
/-- The call of a thread that is about to pass the mutex is proper. -/
theorem Faithful.proper {s : QueueState T P D} (hs : Faithful bound memory s) {t : T}
    {call : Call P D} (hcall : (s.pcs t).pending? = some call)
    (hguard : (method call).guard (final method (initializeLinkedBlockingQueue bound memory)
      s.shared.log) = true) : Proper (contentsAfter bound s.shared.log) call := by
  cases call with
  | offer data entry => exact hs.fresh t data entry hcall
  | wait => exact (waitGuard_eq hs.follows.related).symm.trans hguard
  | _ => exact trivial

theorem Faithful.step {s s' : QueueState T P D} {label : T × Action T (Call P D)}
    (hs : Faithful bound memory s) (hown : OffersOwn bound s label)
    (hstep : Monitor.step method s label = some s') : Faithful bound memory s' := by
  obtain ⟨t, action⟩ := label
  have hfollows : Follows method (initializeLinkedBlockingQueue bound memory) Contents.perform
      Represents { bound } s' := by
    refine hs.follows.step (fun call hcall hguard => ?_) hstep
    have hconforms := method_conforms hs.follows.related (hs.proper hcall hguard)
    exact ⟨hconforms.represents, hconforms.result⟩
  obtain ⟨pc, hpcs, heffect⟩ := effect_of_step hs.follows.atomic hstep
  have hother {u : T} (hu : u ≠ t) : s'.pcs u = s.pcs u := by
    rw [hpcs, Function.update_of_ne hu]
  have hself : s'.pcs t = pc := by rw [hpcs, Function.update_self]
  cases heffect with
  | begins call haction hlog hpc =>
      refine ⟨hfollows, fun u data entry hu => ?_, fun u v data data' entry hu hv => ?_⟩
      · rw [hlog]
        by_cases hut : u = t
        · rw [hut, hself, hpc] at hu
          exact (hown data entry (haction.trans (congrArg _ (Option.some.inj hu)))).1
        · exact hs.fresh u data entry (hother hut ▸ hu)
      · by_cases hut : u = t
        · by_cases hvt : v = t
          · rw [hut, hvt]
          · rw [hut, hself, hpc] at hu
            rw [hother hvt] at hv
            exact absurd hv
              ((hown data entry (haction.trans (congrArg _ (Option.some.inj hu)))).2 v data')
        · rw [hother hut] at hu
          by_cases hvt : v = t
          · rw [hvt, hself, hpc] at hv
            exact absurd hu
              ((hown data' entry (haction.trans (congrArg _ (Option.some.inj hv)))).2 u data)
          · rw [hother hvt] at hv
            exact hs.alone u v data data' entry hu hv
  | keeps hlog hpc =>
      have hsame (u : T) : (s'.pcs u).pending? = (s.pcs u).pending? := by
        by_cases hut : u = t
        · rw [hut, hself, hpc]
        · rw [hother hut]
      refine ⟨hfollows, fun u data entry hu => ?_, fun u v data data' entry hu hv => ?_⟩
      · rw [hlog]
        exact hs.fresh u data entry (hsame u ▸ hu)
      · exact hs.alone u v data data' entry (hsame u ▸ hu) (hsame v ▸ hv)
  | passes call hcall hguard hlog hpc =>
      have hpending {u : T} {other : Call P D} (hu : (s'.pcs u).pending? = some other) :
          u ≠ t ∧ (s.pcs u).pending? = some other := by
        have hut : u ≠ t := by
          rintro rfl
          rw [hself, hpc] at hu
          cases hu
        exact ⟨hut, hother hut ▸ hu⟩
      refine ⟨hfollows, fun u data entry hu hmem => ?_, fun u v data data' entry hu hv => ?_⟩
      · obtain ⟨hut, hu⟩ := hpending hu
        rw [hlog, contentsAfter, specified_snoc] at hmem
        rcases mem_elements_perform hmem with hold | ⟨data', rfl⟩
        · exact hs.fresh u data entry hu hold
        · exact hut (hs.alone u t data data' entry hu hcall)
      · exact hs.alone u v data data' entry (hpending hu).2 (hpending hv).2

theorem faithful_of_run {s : QueueState T P D} {labels : List (T × Action T (Call P D))}
    (hrun : run (Monitor.step method) (initial (initializeLinkedBlockingQueue bound memory))
      labels = some s)
    (hown : Meets (Monitor.step method) (OffersOwn bound)
      (initial (initializeLinkedBlockingQueue bound memory)) labels) :
    Faithful bound memory s :=
  invariant_of_meets (I := Faithful bound memory)
    (fun _ _ _ hs howns hstep => hs.step howns hstep) faithful_initial hown hrun

/-! ## The waiting thread -/

omit [DecidableEq T] in
theorem eq_wait_of_guard {call : Call P D} {queue : Queue P D}
    (h : (method call).guard queue = false) : call = .wait := by
  cases call with
  | wait => rfl
  | _ => exact nomatch h

omit [DecidableEq T] [DecidableEq P] in
theorem ready_eq_false {contents : Contents P D} :
    contents.ready = false ↔ contents.elements = [] ∧ contents.draining = false ∧
      contents.shutdown = false ∧ contents.pendingUserWake = false := by
  rw [Contents.ready]
  cases contents.elements <;> simp [and_assoc]

omit [DecidableEq T] [DecidableEq P] in
/-- What makes an unready queue ready signals. -/
theorem signals_of_ready {contents : Contents P D} {call : Call P D}
    (hbefore : contents.ready = false) (hafter : (contents.perform call).1.ready = true) :
    contents.signals call = true := by
  obtain ⟨helements, hdraining, hshutdown, hwake⟩ := ready_eq_false.mp hbefore
  have hunready {other : Contents P D} (h : (contents.perform call).1 = other)
      (hother : other.ready = false) : contents.signals call = true := by
    rw [h, hother] at hafter
    cases hafter
  cases call with
  | offer data entry =>
      by_cases hbound : contents.bound = 0
      · refine hunready ?_ hbefore
        simp [Contents.perform, helements, hdraining, hshutdown, hbound]
      · simp [Contents.signals, helements, hdraining, hshutdown, hbound]
  | peek =>
      refine hunready ?_ hbefore
      simp [Contents.perform, Contents.found, helements, hshutdown]
  | poll =>
      refine hunready ?_ hbefore
      simp [Contents.perform, Contents.found, helements, hshutdown]
  | wait =>
      refine hunready ?_ hbefore
      simp [Contents.perform, Contents.found, helements, hshutdown, hwake]
  | flush =>
      refine hunready rfl ?_
      exact ready_eq_false.mpr ⟨rfl, hdraining, hshutdown, hwake⟩
  | _ => rfl

omit [DecidableEq T] in
theorem Faithful.signals {s : QueueState T P D} (hs : Faithful bound memory s) {t : T}
    {call : Call P D} (hcall : (s.pcs t).pending? = some call)
    (hguard : (method call).guard (final method (initializeLinkedBlockingQueue bound memory)
      s.shared.log) = true) :
    SignalsWhenTrue method (final method (initializeLinkedBlockingQueue bound memory)
      s.shared.log) call := by
  intro waiting hbefore hafter
  have hconforms := method_conforms hs.follows.related (hs.proper hcall hguard)
  obtain rfl := eq_wait_of_guard hbefore
  rw [hconforms.signals]
  exact signals_of_ready ((waitGuard_eq hs.follows.related).symm.trans hbefore)
    ((waitGuard_eq hconforms.represents).symm.trans hafter)

/-- Offers own their entries, and only the consumer waits. -/
def OneConsumer (bound : Nat) (consumer : T) (s : QueueState T P D)
    (label : T × Action T (Call P D)) : Prop :=
  OffersOwn bound s label ∧ (label.2 = .call .wait → label.1 = consumer)

theorem watched_of_run {consumer : T} {s : QueueState T P D}
    {labels : List (T × Action T (Call P D))}
    (hrun : run (Monitor.step method) (initial (initializeLinkedBlockingQueue bound memory))
      labels = some s)
    (hown : Meets (Monitor.step method) (OneConsumer bound consumer)
      (initial (initializeLinkedBlockingQueue bound memory)) labels) :
    Faithful bound memory s ∧
      Watched method (initializeLinkedBlockingQueue bound memory) consumer s := by
  refine invariant_of_meets (I := fun s => Faithful bound memory s ∧
    Watched method (initializeLinkedBlockingQueue bound memory) consumer s)
    ?_ ⟨faithful_initial, watched_initial _⟩ hown hrun
  rintro s label s' ⟨hs, hwatched⟩ ⟨howns, hwait⟩ hstep
  refine ⟨hs.step howns hstep, hwatched.step hs.follows.atomic (fun _ => hs.signals) ?_ hstep⟩
  rintro call haction ⟨queue, hguard⟩
  exact hwait (haction.trans (congrArg _ (eq_wait_of_guard hguard)))

/-! ## The results -/

/-- However any number of threads interleave, their calls take effect one after the other,
and return what a list with the elements returns: each accepted element is taken off once,
in order, and the list never exceeds the bound. -/
theorem queue_first_in_first_out {s : QueueState T P D}
    {labels : List (T × Action T (Call P D))}
    (hrun : run (Monitor.step method) (initial (initializeLinkedBlockingQueue bound memory))
      labels = some s)
    (hown : Meets (Monitor.step method) (OffersOwn bound)
      (initial (initializeLinkedBlockingQueue bound memory)) labels) :
    Threads.Owned Pc.holds s.pcs s.shared.mutex ∧
    (s.shared.mutex = none → Represents s.shared.data (contentsAfter bound s.shared.log)) ∧
    (∀ t call result, (s.pcs t).returned? = some (call, result) →
      ⟨t, call, result⟩ ∈ s.shared.log) ∧
    Returns bound s.shared.log ∧
    acceptedIn s.shared.log = removedIn bound s.shared.log ++
      (contentsAfter bound s.shared.log).elements.map Prod.snd ∧
    (contentsAfter bound s.shared.log).elements.length ≤ bound := by
  have hs := faithful_of_run hrun hown
  have hreturns : Returns bound s.shared.log := hs.follows.results
  refine ⟨hs.follows.atomic.owned, ?_, hs.follows.atomic.returned, hreturns, hreturns.balance, ?_⟩
  · intro hfree
    rw [hs.follows.atomic.settled hfree]
    exact hs.follows.related
  · exact hs.follows.related.bound.2.trans_eq hreturns.bound_eq

/-- A queue that only one thread waits on loses no signal: while that thread sleeps and
nobody is about to signal, there is nothing on the queue and no flag is set.  Nor does it
lose a wake of the user: one that is not answered yet is pending. -/
theorem queue_wakes_consumer {consumer : T} {s : QueueState T P D}
    {labels : List (T × Action T (Call P D))}
    (hrun : run (Monitor.step method) (initial (initializeLinkedBlockingQueue bound memory))
      labels = some s)
    (hown : Meets (Monitor.step method) (OneConsumer bound consumer)
      (initial (initializeLinkedBlockingQueue bound memory)) labels) :
    ((∀ t, ¬(s.pcs t).signals) → consumer ∈ s.shared.sleepers →
      (contentsAfter bound s.shared.log).ready = false) ∧
    (∀ t ∈ s.shared.sleepers, t = consumer) ∧
    ∀ before record after, s.shared.log = before ++ record :: after →
      record.call = .signalUserWake → (∃ other ∈ after, other.result = .code .userWake) ∨
        (contentsAfter bound s.shared.log).pendingUserWake = true := by
  obtain ⟨hs, hwatched⟩ := watched_of_run hrun hown
  have hreturns : Returns bound s.shared.log := hs.follows.results
  refine ⟨fun hquiet hasleep => ?_, fun t ht => ?_, fun before record after => hreturns.wake⟩
  · obtain ⟨call, -, hguard⟩ := hwatched.asleep hquiet hasleep
    obtain rfl := eq_wait_of_guard hguard
    exact (waitGuard_eq hs.follows.related).symm.trans hguard
  · obtain ⟨call, hcall, hwaits, -⟩ := hwatched.awaited t ht
    exact hwatched.waits t call (by rw [hcall]; rfl) hwaits

/-- When a call found the queue drained and nobody shut it down, everything that was
accepted has been taken off, and no more is accepted. -/
theorem queue_drains_completely {s : QueueState T P D}
    {labels : List (T × Action T (Call P D))}
    (hrun : run (Monitor.step method) (initial (initializeLinkedBlockingQueue bound memory))
      labels = some s)
    (hown : Meets (Monitor.step method) (OffersOwn bound)
      (initial (initializeLinkedBlockingQueue bound memory)) labels)
    (hshutdown : ∀ record ∈ s.shared.log, record.call ≠ .signalShutdown)
    (hfound : ∃ record ∈ s.shared.log, FoundDrained record) :
    acceptedIn s.shared.log = removedIn bound s.shared.log ∧
    ∀ data entry, ((contentsAfter bound s.shared.log).perform (.offer data entry)).2 =
      .code .interrupted := by
  have hreturns : Returns bound s.shared.log := (faithful_of_run hrun hown).follows.results
  obtain ⟨hdraining, hempty⟩ := hreturns.drained hshutdown hfound
  have hbalance := hreturns.balance
  rw [hempty, List.map_nil, List.append_nil] at hbalance
  refine ⟨hbalance, fun data entry => ?_⟩
  simp [Contents.perform, hdraining]

end Runs

/-! ## A producer and a consumer -/

section Sample

abbrev SampleLabel := Bool × Action Bool (Call Bool Nat)

def sampleMemory : Bool → Entry Bool Nat := fun _ => ⟨none, none, 0⟩

/-- A call goes through the mutex with some accesses. -/
def through (t : Bool) (accesses : Nat) (after : List SampleLabel) : List SampleLabel :=
  (t, .lock) :: (t, .test) :: List.replicate accesses (t, .access) ++
    (t, .unlock) :: after ++ [(t, .leave)]

/-- The consumer sleeps on the empty queue. -/
def sampleSleep : List SampleLabel := [(true, .call .wait), (true, .lock), (true, .test)]

/-- An offer wakes the consumer, which takes the element; then the queue is drained. -/
def sampleDrain : List SampleLabel :=
  through false 12 [(false, .signal (some true))] ++ (true, .wake) :: through true 11 [] ++
    (false, .call .signalDrain) :: through false 1 [(false, .signal none)] ++
      (true, .call .wait) :: through true 3 []

def isOffer : SampleLabel → Bool
  | (_, .call (.offer _ _)) => true
  | _ => false

theorem offersOwn_of_no_offer {labels : List SampleLabel} (h : ∀ label ∈ labels, ¬isOffer label)
    (s : QueueState Bool Bool Nat) : Meets (Monitor.step method) (OffersOwn 2) s labels := by
  refine (Meets.of_forall h s).mono ?_
  rintro _ ⟨t, _⟩ hlabel data entry ⟨⟩
  exact absurd rfl hlabel

/-- The run with the offer under way from the start. -/
def sampleRun : List SampleLabel :=
  (false, .call (.offer 7 true)) :: (sampleSleep ++ sampleDrain)

theorem sampleRun_owns : Meets (Monitor.step method) (OffersOwn 2)
    (initial (initializeLinkedBlockingQueue 2 sampleMemory)) sampleRun := by
  intro s hs
  refine ⟨?_, offersOwn_of_no_offer (by decide) s⟩
  rintro data entry ⟨⟩
  exact ⟨List.not_mem_nil, fun u data' => nofun⟩

theorem queue_first_in_first_out_sample :
    ∃ s, run (Monitor.step method) (initial (initializeLinkedBlockingQueue 2 sampleMemory))
      sampleRun = some s ∧
      acceptedIn s.shared.log = removedIn 2 s.shared.log ++
        (contentsAfter 2 s.shared.log).elements.map Prod.snd := by
  refine ⟨_, rfl, ?_⟩
  exact (queue_first_in_first_out rfl sampleRun_owns).2.2.2.2.1

def sampleLog : Log Bool Bool Nat :=
  [⟨false, .offer 7 true, .code .success⟩, ⟨true, .wait, .element 7⟩,
    ⟨false, .signalDrain, .done⟩, ⟨true, .wait, .code .interrupted⟩]

theorem queue_drains_completely_sample :
    ∃ s, run (Monitor.step method) (initial (initializeLinkedBlockingQueue 2 sampleMemory))
      sampleRun = some s ∧ acceptedIn s.shared.log = removedIn 2 s.shared.log := by
  obtain ⟨s, hrun, hlog⟩ : ∃ s, run (Monitor.step method)
      (initial (initializeLinkedBlockingQueue 2 sampleMemory)) sampleRun = some s ∧
        s.shared.log = sampleLog := ⟨_, rfl, rfl⟩
  refine ⟨s, hrun, (queue_drains_completely hrun sampleRun_owns ?_ ?_).1⟩
  · rw [hlog]
    simp [sampleLog]
  · rw [hlog]
    exact ⟨⟨true, .wait, .code .interrupted⟩, by simp [sampleLog], .inl rfl, rfl⟩

theorem queue_wakes_consumer_sample :
    ∃ s, run (Monitor.step method) (initial (initializeLinkedBlockingQueue 2 sampleMemory))
      sampleSleep = some s ∧ (contentsAfter 2 s.shared.log).ready = false := by
  obtain ⟨s, hrun, hquiet, hasleep⟩ : ∃ s, run (Monitor.step method)
      (initial (initializeLinkedBlockingQueue 2 sampleMemory)) sampleSleep = some s ∧
        (∀ t, ¬(s.pcs t).signals) ∧ true ∈ s.shared.sleepers :=
    ⟨_, rfl, by rintro (_ | _) <;> exact not_false, by decide⟩
  have hown : Meets (Monitor.step method) (OneConsumer 2 true)
      (initial (initializeLinkedBlockingQueue 2 sampleMemory)) sampleSleep := by
    refine (Meets.of_forall (C := fun label => ¬isOffer label ∧ label.1 = true) ?_ _).mono ?_
    · decide
    · rintro _ ⟨t, _⟩ ⟨hoffer, hthread⟩
      refine ⟨?_, fun _ => hthread⟩
      rintro data entry ⟨⟩
      exact absurd rfl hoffer
  exact ⟨s, hrun, (queue_wakes_consumer hrun hown).1 hquiet hasleep⟩

end Sample

end MoonlightScarlet.Core.LinkedBlockingQueue
