import MoonlightScarlet.Core.LinkedBlockingQueue
/-!
# The queue is first in, first out

The linked entries stand for a list of elements.  Each method does to the list what its
call is for, so that every run of the threads takes the elements off in the order in which
they were put on, each of them once.
-/

namespace MoonlightScarlet.Core.LinkedBlockingQueue

open Support.Monitor Support.Links

/-! ## What the queue is for -/

/-- The elements with the entries that carry them, the bound and the flags. -/
structure Contents (P D : Type) where
  elements : List (P × D) := []
  bound : Nat
  shutdown : Bool := false
  draining : Bool := false
  pendingUserWake : Bool := false

variable {P D : Type}

namespace Contents

variable (contents : Contents P D)

/-- The element that `Peek`, `Poll` or `Wait` finds, or the code it returns. -/
def found (take : Bool) : Contents P D × Result P D :=
  match contents.elements with
  | [] => (contents, .code (if contents.draining then .interrupted else .noElement))
  | (_, data) :: rest =>
      (if take then { contents with elements := rest } else contents, .element data)

/-- What a call does to the list, and what it returns. -/
def perform : Call P D → Contents P D × Result P D
  | .offer data entry =>
      if contents.shutdown || contents.draining then (contents, .code .interrupted)
      else if contents.elements.length = contents.bound then (contents, .code .boundExceeded)
      else ({ contents with elements := contents.elements ++ [(entry, data)] }, .code .success)
  | .peek =>
      if contents.shutdown then (contents, .code .interrupted)
      else contents.found false
  | .poll =>
      if contents.shutdown then (contents, .code .interrupted)
      else contents.found true
  | .wait =>
      if contents.shutdown then (contents, .code .interrupted)
      else if contents.pendingUserWake then
        ({ contents with pendingUserWake := false }, .code .userWake)
      else contents.found true
  | .flush =>
      ({ contents with elements := [] }, .entries (contents.elements.head?.map Prod.fst))
  | .signalShutdown => ({ contents with shutdown := true }, .done)
  | .signalDrain => ({ contents with draining := true }, .done)
  | .signalUserWake => ({ contents with pendingUserWake := true }, .done)

/-- There is something to wait for no longer. -/
def ready : Bool :=
  !contents.elements.isEmpty || contents.draining || contents.shutdown || contents.pendingUserWake

/-- The call signals: it puts an element on an empty queue or sets a flag. -/
def signals : Call P D → Bool
  | .offer _ _ =>
      contents.elements.isEmpty && !contents.shutdown && !contents.draining &&
        decide (contents.bound ≠ 0)
  | .peek | .poll | .wait | .flush => false
  | .signalShutdown | .signalDrain | .signalUserWake => true

end Contents

/-- The queue stands for the contents, and nothing went wrong so far. -/
structure Represents (queue : Queue P D) (contents : Contents P D) : Prop where
  linked : Linked (fun p => (queue.memory p).flink) (fun p => (queue.memory p).blink)
    queue.head queue.tail (contents.elements.map Prod.fst)
  data : ∀ element ∈ contents.elements, (queue.memory element.1).data = element.2
  size : queue.currentSize = contents.elements.length
  bound : queue.sizeBound = contents.bound ∧ contents.elements.length ≤ contents.bound
  flags : queue.shutdown = contents.shutdown ∧ queue.draining = contents.draining ∧
    queue.pendingUserWake = contents.pendingUserWake
  sound : queue.violated = false

/-! ## Running a method -/

section Exec

variable (queue : Queue P D)

@[simp] theorem exec_read {α : Type} (value : Queue P D → α) (next : α → QueueProgram P D) :
    (read value next).exec queue = (next (value queue)).exec queue := rfl

@[simp] theorem exec_write (change : Queue P D → Queue P D) (next : QueueProgram P D) :
    (write change next).exec queue = next.exec (change queue) := rfl

@[simp] theorem exec_ret (result : Result P D) (signals : Bool) :
    (Program.ret result signals).exec queue = (queue, result, signals) := rfl

/-- An assertion that holds has no effect. -/
theorem exec_assert {condition : Queue P D → Bool} (next : QueueProgram P D)
    (h : condition queue = true) : (assert condition next).exec queue = next.exec queue := by
  have hsame : { queue with violated := queue.violated || !condition queue } = queue := by
    rw [h, Bool.not_true, Bool.or_false]
  rw [assert, exec_write, hsame]

variable [DecidableEq P]

theorem flink_setEntry (entry : P) (change : Entry P D → Entry P D) :
    (fun p => ((queue.setEntry entry change).memory p).flink) =
      Function.update (fun p => (queue.memory p).flink) entry
        (change (queue.memory entry)).flink :=
  (Function.comp_update Entry.flink queue.memory entry _)

theorem blink_setEntry (entry : P) (change : Entry P D → Entry P D) :
    (fun p => ((queue.setEntry entry change).memory p).blink) =
      Function.update (fun p => (queue.memory p).blink) entry
        (change (queue.memory entry)).blink :=
  (Function.comp_update Entry.blink queue.memory entry _)

@[simp] theorem tail_setEntry (entry : P) (change : Entry P D → Entry P D) :
    (queue.setEntry entry change).tail = queue.tail := rfl

@[simp] theorem memory_setEntry_self (entry : P) (change : Entry P D → Entry P D) :
    (queue.setEntry entry change).memory entry = change (queue.memory entry) :=
  Function.update_self ..

theorem memory_setEntry_of_ne {entry p : P} (h : p ≠ entry) (change : Entry P D → Entry P D) :
    (queue.setEntry entry change).memory p = queue.memory p :=
  Function.update_of_ne h ..

end Exec

section Represents

variable {queue : Queue P D} {contents : Contents P D}

theorem Represents.head_isNone (h : Represents queue contents) :
    queue.head.isNone = contents.elements.isEmpty := by
  rw [h.linked.head_eq]
  cases contents.elements <;> rfl

theorem Represents.head_eq (h : Represents queue contents) :
    queue.head = contents.elements.head?.map Prod.fst := by
  rw [h.linked.head_eq, List.head?_map]

variable [DecidableEq P]

/-- An entry of the caller may be changed at will. -/
theorem Represents.setEntry (h : Represents queue contents) {entry : P}
    (hentry : entry ∉ contents.elements.map Prod.fst) (change : Entry P D → Entry P D) :
    Represents (queue.setEntry entry change) contents := by
  have hne {p : P} (hp : p ∈ contents.elements.map Prod.fst) : p ≠ entry := by
    rintro rfl
    exact hentry hp
  refine ⟨⟨h.linked.nodup, ?_, ?_, h.linked.last⟩, ?_, h.size, h.bound, h.flags, h.sound⟩
  · exact h.linked.forward.congr fun p hp => by rw [memory_setEntry_of_ne queue (hne hp)]
  · exact h.linked.backward.congr fun p hp => by rw [memory_setEntry_of_ne queue (hne hp)]
  · intro element helement
    rw [memory_setEntry_of_ne queue (hne (List.mem_map_of_mem helement))]
    exact h.data element helement

end Represents

/-- A run of a method does what its call is for. -/
structure Conforms (contents : Contents P D) (call : Call P D)
    (out : Queue P D × Result P D × Bool) : Prop where
  represents : Represents out.1 (contents.perform call).1
  result : out.2.1 = (contents.perform call).2
  signals : out.2.2 = contents.signals call

theorem Conforms.of {queue : Queue P D} {contents contents' : Contents P D} {call : Call P D}
    {result : Result P D} {signals : Bool}
    (hperform : contents.perform call = (contents', result))
    (hsignals : contents.signals call = signals) (h : Represents queue contents') :
    Conforms contents call (queue, result, signals) :=
  ⟨by rw [hperform]; exact h, by rw [hperform], hsignals.symm⟩

section Methods

variable [DecidableEq P] {queue : Queue P D} {contents : Contents P D}

/-- The entry behind the others, with the two counters. -/
theorem linkEntry_represents (h : Represents queue contents) {entry : P}
    (hentry : entry ∉ contents.elements.map Prod.fst)
    (hend : (queue.memory entry).flink = none)
    (hroom : contents.elements.length < contents.bound) :
    ∃ linked : Queue P D,
      (∀ next, (linkEntry entry contents.elements.isEmpty next).exec queue = next.exec linked) ∧
      Represents { linked with
        currentSize := linked.currentSize + 1
        lifetimeSize := linked.lifetimeSize + 1 }
        { contents with
          elements := contents.elements ++ [(entry, (queue.memory entry).data)] } := by
  cases helements : contents.elements with
  | nil =>
      have hempty : queue.head = none := by rw [h.head_eq, helements]; rfl
      have htail : queue.tail = none := h.linked.tail_eq_none hempty
      have hsize : queue.currentSize = 0 := by rw [h.size, helements]; rfl
      let linked := { queue with head := some entry, tail := some entry }.setEntry entry
        fun e => { e with blink := none }
      refine ⟨linked, fun next => ?_, ?_⟩
      · rw [linkEntry, List.isEmpty_nil, if_pos rfl, exec_assert _ _ (by simp [hsize]),
          exec_assert _ _ (by simp [htail]), exec_write, exec_write, exec_write]
      · refine ⟨?_, ?_, by simp [linked, Queue.setEntry, hsize], ⟨h.bound.1, ?_⟩, h.flags, h.sound⟩
        · have hflink : Function.update (fun p => (queue.memory p).flink) entry
              (queue.memory entry).flink = fun p => (queue.memory p).flink :=
            Function.update_eq_self entry _
          simp only [linked, flink_setEntry, blink_setEntry, hflink]
          exact Linked.first hend
        · intro element helement
          rw [List.mem_singleton.mp helement]
          simp [linked]
        · rw [helements] at hroom
          exact hroom
  | cons first rest =>
      obtain ⟨last, hlast⟩ : ∃ last, (contents.elements.map Prod.fst).getLast? = some last :=
        ⟨_, List.getLast?_eq_some_getLast (by simp [helements])⟩
      have htail : queue.tail = some last := h.linked.last.trans hlast
      have hne : entry ≠ last := by
        rintro rfl
        exact hentry (List.mem_of_getLast? hlast)
      let linked := { (queue.setEntry last fun e => { e with flink := some entry }).setEntry entry
        fun e => { e with blink := some last } with tail := some entry }
      refine ⟨linked, fun next => ?_, ?_⟩
      · have hsize : 1 ≤ queue.currentSize := by rw [h.size, helements]; simp
        have hhead : queue.head.isSome = true := by rw [h.head_eq, helements]; rfl
        rw [linkEntry, List.isEmpty_cons, if_neg (by simp), exec_assert _ _ (by simp [hsize]),
          exec_assert _ _ (by simp [hhead]), exec_write, exec_write, exec_write]
        simp only [htail, Queue.follow, tail_setEntry]
        rfl
      · rw [← helements]
        refine ⟨?_, ?_, by simp [linked, Queue.setEntry, h.size], ⟨h.bound.1, ?_⟩, h.flags, h.sound⟩
        · have hlinked := h.linked
          rw [htail] at hlinked
          have hsnoc := hlinked.snoc hentry hend
          have hflink : (fun p => (linked.memory p).flink) =
              Function.update (fun p => (queue.memory p).flink) last (some entry) := by
            funext p
            simp only [linked, Queue.setEntry, Function.update_apply]
            split_ifs <;> simp_all
          have hblink : (fun p => (linked.memory p).blink) =
              Function.update (fun p => (queue.memory p).blink) entry (some last) := by
            funext p
            simp only [linked, Queue.setEntry, Function.update_apply]
            split_ifs <;> simp_all
          rw [← hflink, ← hblink] at hsnoc
          rw [List.map_append]
          exact hsnoc
        · intro element helement
          have hdata (p : P) : (linked.memory p).data = (queue.memory p).data := by
            simp only [linked, Queue.setEntry, Function.update_apply]
            split_ifs <;> simp_all
          rw [hdata]
          rcases List.mem_append.mp helement with hmem | hmem
          · exact h.data element hmem
          · rw [List.mem_singleton.mp hmem]
        · rw [List.length_append]
          exact hroom

theorem offer_conforms (h : Represents queue contents) {data : D} {entry : P}
    (hentry : entry ∉ contents.elements.map Prod.fst) :
    Conforms contents (.offer data entry) ((offerQueueItem data entry).exec queue) := by
  let written := (queue.setEntry entry fun e => { e with flink := none }).setEntry entry
    fun e => { e with data }
  have hwritten : Represents written contents := (h.setEntry hentry _).setEntry hentry _
  have hstopped : (written.shutdown || written.draining) =
      (contents.shutdown || contents.draining) := by
    rw [hwritten.flags.1, hwritten.flags.2.1]
  have hfull : (written.currentSize == written.sizeBound) =
      decide (contents.elements.length = contents.bound) := by
    rw [hwritten.size, hwritten.bound.1]
    rfl
  rw [offerQueueItem, exec_write, exec_write, exec_read]
  change Conforms contents (.offer data entry) (Program.exec _ written)
  rw [hstopped]
  by_cases hstop : (contents.shutdown || contents.draining) = true
  · rw [if_pos hstop, returnCode, exec_ret]
    refine .of (by rw [Contents.perform, if_pos hstop]) ?_ hwritten
    rw [Contents.signals]
    cases hshutdown : contents.shutdown <;> simp_all
  rw [if_neg hstop, exec_read, hfull]
  by_cases hbound : contents.elements.length = contents.bound
  · rw [decide_eq_true hbound, if_pos rfl, returnCode, exec_ret]
    refine .of (by rw [Contents.perform, if_neg hstop, if_pos hbound]) ?_ hwritten
    rw [Contents.signals, ← hbound]
    cases contents.elements <;> simp
  rw [decide_eq_false hbound, if_neg (by simp), exec_read, hwritten.head_isNone]
  have hroom : contents.elements.length < contents.bound :=
    Nat.lt_of_le_of_ne hwritten.bound.2 hbound
  obtain ⟨linked, hexec, hlinked⟩ :=
    linkEntry_represents hwritten hentry (by simp [written]) hroom
  rw [hexec, exec_write, exec_write, exec_ret]
  refine .of (by rw [Contents.perform, if_neg hstop, if_neg hbound]) ?_ ?_
  · rw [Contents.signals]
    have hbound : contents.bound ≠ 0 := Nat.ne_of_gt (Nat.zero_lt_of_lt hroom)
    simp_all
  · simpa [written] using hlinked

omit [DecidableEq P] in
theorem exec_checkElement (h : Represents queue contents) (next : QueueProgram P D) :
    (checkElement next).exec queue =
      if contents.shutdown then (queue, .code .interrupted, false)
      else if contents.elements.isEmpty then
        (queue, .code (if contents.draining then .interrupted else .noElement), false)
      else next.exec queue := by
  rw [checkElement, exec_read, h.flags.1]
  cases contents.shutdown with
  | true => rfl
  | false =>
      simp only [Bool.false_eq_true, if_false, exec_read, h.head_isNone]
      cases contents.elements.isEmpty with
      | true =>
          rw [if_pos rfl, exec_read, h.flags.2.1]
          cases contents.draining <;> rfl
      | false => rfl

omit [DecidableEq P] in
theorem exec_returnData (p : P) :
    (returnData (some p) : QueueProgram P D).exec queue =
      (queue, .element (queue.memory p).data, false) := rfl

/-- The links and the counter after the first entry is taken off. -/
theorem takeElement_represents (h : Represents queue contents) {p : P} {data : D}
    {rest : List (P × D)} (helements : contents.elements = (p, data) :: rest) :
    ∃ taken, (takeElement : QueueProgram P D).exec queue = (taken, .element data, false) ∧
      Represents taken { contents with elements := rest } := by
  have hhead : queue.head = some p := by rw [h.head_eq, helements]; rfl
  obtain rfl : (queue.memory p).data = data := h.data (p, data) (by simp [helements])
  have hsize : queue.currentSize - 1 = rest.length := by
    rw [h.size, helements, List.length_cons, Nat.add_sub_cancel]
  have hbound : rest.length ≤ contents.bound := by
    have hle := h.bound.2
    rw [helements, List.length_cons] at hle
    exact Nat.le_of_succ_le hle
  have hlinked := h.linked
  rw [helements] at hlinked
  let popped := { queue with
    head := (queue.memory p).flink, currentSize := queue.currentSize - 1 }
  rw [takeElement, exec_read, hhead, exec_write, exec_write, exec_read]
  change ∃ taken, (if popped.head.isNone then _ else _ : QueueProgram P D).exec popped = _ ∧ _
  cases rest with
  | nil =>
      have hnext : popped.head = none := hlinked.forward.2
      rw [hnext, Option.isNone_none, if_pos rfl, exec_assert _ _ (by simp [popped, hsize]),
        exec_write, exec_returnData]
      refine ⟨_, rfl, ⟨?_, ?_, hsize, ⟨h.bound.1, hbound⟩, h.flags, h.sound⟩⟩
      · rw [hnext]
        exact .nil
      · exact fun element helement => nomatch helement
  | cons second rest =>
      obtain ⟨q, secondData⟩ := second
      have hnext : popped.head = some q := hlinked.forward.2.1
      have hnodup := hlinked.nodup
      simp only [List.map_cons, List.nodup_cons, List.mem_cons, not_or] at hnodup
      rw [hnext, if_neg (by simp), exec_assert _ _ (by simp [popped, hsize]), exec_write, hnext,
        Queue.follow, exec_returnData, memory_setEntry_of_ne _ hnodup.1.1]
      refine ⟨_, rfl, ⟨?_, ?_, hsize, ⟨h.bound.1, hbound⟩, h.flags, h.sound⟩⟩
      · have hflink : Function.update (fun p => (popped.memory p).flink) q
            (popped.memory q).flink = fun p => (popped.memory p).flink :=
          Function.update_eq_self q _
        rw [flink_setEntry, blink_setEntry, hflink]
        exact hnext ▸ hlinked.pop
      · intro element helement
        have hmem : element ∈ contents.elements := by
          rw [helements]
          exact List.mem_cons_of_mem _ helement
        rw [← h.data element hmem]
        by_cases hq : element.1 = q
        · rw [hq, memory_setEntry_self]
        · rw [memory_setEntry_of_ne _ hq]

omit [DecidableEq P] in
theorem peek_conforms (h : Represents queue contents) :
    Conforms contents .peek ((peekQueueElement : QueueProgram P D).exec queue) := by
  rw [peekQueueElement, exec_checkElement h]
  cases hshutdown : contents.shutdown with
  | true => exact .of (by rw [Contents.perform, hshutdown]; rfl) rfl h
  | false =>
      cases helements : contents.elements with
      | nil =>
          refine .of ?_ rfl h
          rw [Contents.perform, hshutdown, Contents.found, helements]
          rfl
      | cons element rest =>
          obtain ⟨p, data⟩ := element
          have hhead : queue.head = some p := by rw [h.head_eq, helements]; rfl
          have hdata : (queue.memory p).data = data := h.data (p, data) (by simp [helements])
          rw [if_neg (by simp), List.isEmpty_cons, if_neg (by simp), exec_read, hhead,
            exec_returnData, hdata]
          refine .of ?_ rfl h
          rw [Contents.perform, hshutdown, Contents.found, helements]
          rfl

theorem poll_conforms (h : Represents queue contents) :
    Conforms contents .poll ((pollQueueElement : QueueProgram P D).exec queue) := by
  rw [pollQueueElement, exec_checkElement h]
  cases hshutdown : contents.shutdown with
  | true => exact .of (by rw [Contents.perform, hshutdown]; rfl) rfl h
  | false =>
      cases helements : contents.elements with
      | nil =>
          refine .of ?_ rfl h
          rw [Contents.perform, hshutdown, Contents.found, helements]
          rfl
      | cons element rest =>
          obtain ⟨p, data⟩ := element
          obtain ⟨taken, hexec, htaken⟩ := takeElement_represents h helements
          rw [if_neg (by simp), List.isEmpty_cons, if_neg (by simp), hexec]
          refine .of ?_ rfl htaken
          simp [Contents.perform, Contents.found, hshutdown, helements]

omit [DecidableEq P] in
theorem waitGuard_eq (h : Represents queue contents) : waitGuard queue = contents.ready := by
  rw [waitGuard, Contents.ready, h.head_isNone, h.flags.1, h.flags.2.1, h.flags.2.2]
  cases contents.elements.isEmpty <;> cases contents.draining <;> cases contents.shutdown <;>
    cases contents.pendingUserWake <;> rfl

theorem wait_conforms (h : Represents queue contents) (hready : contents.ready = true) :
    Conforms contents .wait ((waitForQueueElement : QueueProgram P D).exec queue) := by
  rw [waitForQueueElement, exec_read, h.flags.1]
  cases hshutdown : contents.shutdown with
  | true => exact .of (by rw [Contents.perform, hshutdown]; rfl) rfl h
  | false =>
      rw [if_neg (by simp), exec_read, h.flags.2.2]
      cases hwake : contents.pendingUserWake with
      | true =>
          have hcleared : Represents { queue with pendingUserWake := false }
              { contents with pendingUserWake := false } :=
            ⟨h.linked, h.data, h.size, h.bound, ⟨h.flags.1, h.flags.2.1, rfl⟩, h.sound⟩
          rw [if_pos rfl, exec_write]
          refine .of ?_ rfl hcleared
          simp [Contents.perform, hshutdown, hwake]
      | false =>
          rw [if_neg (by simp), exec_read, h.flags.2.1, h.head_isNone]
          cases helements : contents.elements with
          | nil =>
              have hdraining : contents.draining = true := by
                simpa [Contents.ready, helements, hshutdown, hwake] using hready
              rw [hdraining]
              refine .of ?_ rfl h
              simp [Contents.perform, Contents.found, hshutdown, hwake, helements, hdraining]
          | cons element rest =>
              obtain ⟨p, data⟩ := element
              obtain ⟨taken, hexec, htaken⟩ := takeElement_represents h helements
              have hhead : queue.head.isSome = true := by rw [h.head_eq, helements]; rfl
              rw [List.isEmpty_cons, Bool.and_false, if_neg (by simp), exec_assert _ _ hhead,
                hexec]
              refine .of ?_ rfl htaken
              simp [Contents.perform, Contents.found, hshutdown, hwake, helements]

omit [DecidableEq P] in
theorem flush_conforms (h : Represents queue contents) :
    Conforms contents .flush ((flushQueueItems : QueueProgram P D).exec queue) := by
  rw [flushQueueItems, exec_read]
  have hperform : contents.perform .flush =
      ({ contents with elements := [] }, .entries queue.head) := by
    rw [Contents.perform, h.head_eq]
  cases hhead : queue.head with
  | some p =>
      have hflushed : Represents { queue with head := none, tail := none, currentSize := 0 }
          { contents with elements := [] } :=
        ⟨.nil, nofun, rfl, ⟨h.bound.1, Nat.zero_le _⟩, h.flags, h.sound⟩
      rw [Option.isSome_some, if_pos rfl, exec_write, exec_write, exec_write, exec_ret]
      exact .of (hhead ▸ hperform) rfl hflushed
  | none =>
      have hempty : contents.elements = [] := by
        have hnone := h.head_eq
        rw [hhead] at hnone
        simpa using hnone.symm
      have hsize : queue.currentSize = 0 := by rw [h.size, hempty]; rfl
      rw [Option.isSome_none, if_neg (by simp),
        exec_assert _ _ (by rw [h.linked.tail_eq_none hhead]; rfl),
        exec_assert _ _ (by rw [hsize]; rfl), exec_ret]
      refine .of (hhead ▸ hperform) rfl ?_
      rw [← hempty]
      exact h

/-- What the caller of a method must see to: the entry of an offer is not on the queue, and
`Wait` goes on only past its loop. -/
def Proper (contents : Contents P D) : Call P D → Prop
  | .offer _ entry => entry ∉ contents.elements.map Prod.fst
  | .wait => contents.ready = true
  | _ => True

theorem method_conforms (h : Represents queue contents) {call : Call P D}
    (hcall : Proper contents call) :
    Conforms contents call ((method call).program.exec queue) := by
  cases call with
  | offer data entry => exact offer_conforms h hcall
  | peek => exact peek_conforms h
  | poll => exact poll_conforms h
  | wait => exact wait_conforms h hcall
  | flush => exact flush_conforms h
  | signalShutdown =>
      exact .of rfl rfl ⟨h.linked, h.data, h.size, h.bound, ⟨rfl, h.flags.2⟩, h.sound⟩
  | signalDrain =>
      exact .of rfl rfl ⟨h.linked, h.data, h.size, h.bound, ⟨h.flags.1, rfl, h.flags.2.2⟩, h.sound⟩
  | signalUserWake =>
      exact .of rfl rfl ⟨h.linked, h.data, h.size, h.bound, ⟨h.flags.1, h.flags.2.1, rfl⟩, h.sound⟩

end Methods

end MoonlightScarlet.Core.LinkedBlockingQueue
