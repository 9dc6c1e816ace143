import MoonlightScarlet.Support.Resume
import MoonlightScarlet.Gamepad.Proofs.Commit
import Mathlib.Data.List.Nodup
import Mathlib.Data.List.Pairwise
/-!
# An interrupted `sync` resumes at the refused packet

Each of the at most 48 packets of `sync` is a task that looks at the tracker
alone.  `sync` is a pass over these tasks, and no packet makes an earlier task due
again: removals finish before announcements, and the placeholder that an arrival
commits is what the state packet of its slot waits for.
-/

namespace MoonlightScarlet.Gamepad

open Sys Support.Resume

/-! ## The packets of `sync` as tasks -/

def removalTask (slot : Slot) : Task Gamepads Packet := fun pads =>
  if (pads.sent slot).isSome ∧
      (pads.sent slot).map Device.id ≠ (pads.devices slot).map Device.id then
    some (.state slot (mask pads.sent &&& ~~~bit slot) {}, pads.setSent slot none)
  else none

def announceTask (slot : Slot) : Task Gamepads Packet := fun pads =>
  (pads.devices slot).bind fun device =>
    if pads.sent slot = none then
      some (.arrival slot (mask pads.sent ||| bit slot),
        pads.setSent slot (some { id := (device.presented pads.swapAb).id, state := {} }))
    else none

def stateTask (slot : Slot) : Task Gamepads Packet := fun pads =>
  (pads.devices slot).bind fun device =>
    if pads.sent slot ≠ some (device.presented pads.swapAb) then
      some (.state slot (mask pads.sent) (device.presented pads.swapAb).state,
        pads.setSent slot (some (device.presented pads.swapAb)))
    else none

def updateTasks (slot : Slot) : List (Task Gamepads Packet) :=
  [announceTask slot, stateTask slot]

def syncTasks : List (Task Gamepads Packet) :=
  (List.finRange maxGamepads).map removalTask ++ (List.finRange maxGamepads).flatMap updateTasks

/-! ## `sync` is a pass over the tasks -/

def deliveries (accepted : List (Packet × Gamepads)) : List Delivery :=
  accepted.map fun entry => ⟨entry.1, entry.2⟩

/-- The state of a call of `sync` after some more accepted packets. -/
def SyncState.advance (s : SyncState) (accepted : List (Packet × Gamepads)) : SyncState :=
  { self := after s.self accepted, delivered := s.delivered ++ deliveries accepted }

@[simp] theorem advance_nil (s : SyncState) : s.advance [] = s := by
  simp [SyncState.advance, deliveries]

theorem advance_append (s : SyncState) (xs ys : List (Packet × Gamepads)) :
    s.advance (xs ++ ys) = (s.advance xs).advance ys := by
  simp [SyncState.advance, deliveries]

theorem length_advance (s : SyncState) (accepted : List (Packet × Gamepads)) :
    (s.advance accepted).delivered.length = s.delivered.length + accepted.length := by
  simp [SyncState.advance, deliveries]

/-- How a call of `sync` goes on after an offer. -/
def SyncState.finish (s : SyncState)
    (offered : List (Packet × Gamepads) × Except InputError Unit) :
    EStateM.Result InputError SyncState Unit :=
  match offered.2 with
  | .ok () => .ok () (s.advance offered.1)
  | .error e => .error e (s.advance offered.1)

/-- From `s` the program `x` offers the due packets of `tasks` and stops at the
first refusal. -/
def PassesAt (send : Send) (x : EStateM InputError SyncState Unit)
    (tasks : List (Task Gamepads Packet)) (s : SyncState) : Prop :=
  x.run s = s.finish (offer send s.delivered.length (duePackets tasks s.self))

section Pass

variable {send : Send}

theorem PassesAt.idle (s : SyncState) {tasks : List (Task Gamepads Packet)}
    (h : duePackets tasks s.self = []) : PassesAt send (pure ()) tasks s := by
  rw [PassesAt, h, offer, SyncState.finish, advance_nil]
  rfl

theorem PassesAt.deliver {s : SyncState} {task : Task Gamepads Packet} {packet : Packet}
    {commit : Gamepads → Gamepads} (h : task s.self = some (packet, commit s.self)) :
    PassesAt send (Gamepad.deliver send packet commit) [task] s := by
  rw [PassesAt, duePackets_cons_some h]
  cases hsend : send s.delivered.length packet with
  | ok =>
      have hrun : (Gamepad.deliver send packet commit).run s =
          .ok () (s.accept packet commit) := by
        rw [Gamepad.deliver, EStateM.run_bind, EStateM.run_get]
        simp only [hsend]
        rfl
      simp only [hrun, offer, hsend, SyncState.finish]
      rfl
  | error e =>
      have hrun : (Gamepad.deliver send packet commit).run s = .error e s := by
        rw [Gamepad.deliver, EStateM.run_bind, EStateM.run_get]
        simp only [hsend]
        rfl
      simp only [hrun, offer, hsend, SyncState.finish, advance_nil]

theorem PassesAt.bind {s : SyncState} {x y : EStateM InputError SyncState Unit}
    {xs ys : List (Task Gamepads Packet)} (hx : PassesAt send x xs s)
    (hy : PassesAt send y ys (s.advance (duePackets xs s.self))) :
    PassesAt send (x >>= fun _ => y) (xs ++ ys) s := by
  rw [PassesAt, length_advance] at hy
  rw [PassesAt, EStateM.run_bind, hx, duePackets_append, offer_append]
  cases hresult : (offer send s.delivered.length (duePackets xs s.self)).2 with
  | error e => simp only [SyncState.finish, hresult]
  | ok =>
      simp only [SyncState.finish, hresult, offer_ok hresult, hy, advance_append]
      rfl

theorem PassesAt.get_bind {s : SyncState} {f : SyncState → EStateM InputError SyncState Unit}
    {tasks : List (Task Gamepads Packet)} (h : PassesAt send (f s) tasks s) :
    PassesAt send (get >>= f) tasks s := h

theorem PassesAt.forM {body : Slot → EStateM InputError SyncState Unit}
    {tasks : Slot → List (Task Gamepads Packet)}
    (h : ∀ slot s, PassesAt send (body slot) (tasks slot) s) (slots : List Slot)
    (s : SyncState) : PassesAt send (slots.forM body) (slots.flatMap tasks) s := by
  induction slots generalizing s with
  | nil => exact PassesAt.idle s rfl
  | cons slot slots ih => exact PassesAt.bind (h slot s) (ih _)

theorem removeStale_passes (slot : Slot) (s : SyncState) :
    PassesAt send (removeStale send slot) [removalTask slot] s := by
  refine PassesAt.get_bind ?_
  dsimp only
  split_ifs with hstale
  · exact PassesAt.deliver (if_pos hstale)
  · refine PassesAt.idle s (duePackets_cons_none ?_ [])
    exact if_neg hstale

theorem announce_passes {slot : Slot} {s : SyncState} {device : Device}
    (hdevice : s.self.devices slot = some device) :
    PassesAt send (announce send slot (device.presented s.self.swapAb)) [announceTask slot] s := by
  refine PassesAt.get_bind ?_
  dsimp only
  split_ifs with hsent
  · refine PassesAt.deliver ?_
    simp only [announceTask, hdevice, Option.bind_some, if_pos hsent]
  · refine PassesAt.idle s (duePackets_cons_none ?_ [])
    simp only [announceTask, hdevice, Option.bind_some, if_neg hsent]

theorem sendState_passes {slot : Slot} {s : SyncState} {device : Device}
    (hdevice : s.self.devices slot = some device) :
    PassesAt send (sendState send slot (device.presented s.self.swapAb)) [stateTask slot] s := by
  refine PassesAt.get_bind ?_
  dsimp only
  split_ifs with hsent
  · refine PassesAt.deliver ?_
    simp only [stateTask, hdevice, Option.bind_some, if_pos hsent]
  · refine PassesAt.idle s (duePackets_cons_none ?_ [])
    simp only [stateTask, hdevice, Option.bind_some, if_neg hsent]

/-- A packet changes `sent` alone. -/
theorem announce_advance (slot : Slot) (s : SyncState) :
    let next := s.advance (duePackets [announceTask slot] s.self)
    next.self.devices = s.self.devices ∧ next.self.swapAb = s.self.swapAb := by
  simp only [duePackets, announceTask]
  cases s.self.devices slot with
  | none => exact ⟨rfl, rfl⟩
  | some device =>
      simp only [Option.bind_some]
      split_ifs <;> exact ⟨rfl, rfl⟩

theorem update_passes (slot : Slot) (s : SyncState) :
    PassesAt send (update send slot) (updateTasks slot) s := by
  refine PassesAt.get_bind ?_
  dsimp only
  cases hdevice : s.self.devices slot with
  | none =>
      refine PassesAt.idle s ?_
      simp only [updateTasks, duePackets, announceTask, stateTask, hdevice, Option.bind_none]
  | some device =>
      obtain ⟨hdevices, hswap⟩ := announce_advance slot s
      refine @PassesAt.bind send s _ _ [announceTask slot] _ (announce_passes hdevice) ?_
      rw [← hswap]
      exact sendState_passes (hdevices ▸ hdevice)

theorem sync_passes (pads : Gamepads) (send : Send) :
    let offered := offer send 0 (duePackets syncTasks pads)
    pads.sync send = ⟨offered.2, after pads offered.1, deliveries offered.1⟩ := by
  have hrun : PassesAt send (syncM send) syncTasks ⟨pads, []⟩ := by
    rw [syncTasks, List.map_eq_flatMap]
    exact PassesAt.bind (PassesAt.forM removeStale_passes _ _)
      (PassesAt.forM update_passes _ _)
  unfold Gamepads.sync
  rw [hrun]
  cases hresult : (offer send 0 (duePackets syncTasks pads)).2 <;>
    simp [SyncState.finish, SyncState.advance, hresult]

end Pass

/-! ## No packet makes an earlier task due again -/

theorem removalTask_eq_none {slot : Slot} {pads : Gamepads} :
    removalTask slot pads = none ↔ Current pads slot := by
  rw [removalTask, ite_eq_right_iff, Current]
  cases pads.sent slot with
  | none => simp
  | some old => simp [eq_comm]

theorem announceTask_eq_none {slot : Slot} {pads : Gamepads} :
    announceTask slot pads = none ↔ pads.devices slot = none ∨ pads.sent slot ≠ none := by
  rw [announceTask]
  cases pads.devices slot with
  | none => simp
  | some device => simp

theorem stateTask_eq_none {slot : Slot} {pads : Gamepads} :
    stateTask slot pads = none ↔ pads.devices slot = none ∨ Synced pads slot := by
  rw [stateTask, Synced]
  cases pads.devices slot with
  | none => simp
  | some device => simp

section Due

variable {slot : Slot} {pads next : Gamepads} {packet : Packet}

theorem removalTask_due (h : removalTask slot pads = some (packet, next)) :
    next = pads.setSent slot none := by
  simp only [removalTask, Option.ite_none_right_eq_some, Option.some.injEq, Prod.mk.injEq] at h
  exact h.2.2.symm

theorem announceTask_due (h : announceTask slot pads = some (packet, next)) :
    ∃ device, pads.devices slot = some device ∧
      next = pads.setSent slot (some { id := device.id, state := {} }) := by
  simp only [announceTask, Option.bind_eq_some_iff, Option.ite_none_right_eq_some,
    Option.some.injEq, Prod.mk.injEq, presented_id] at h
  obtain ⟨device, hdevice, -, -, hnext⟩ := h
  exact ⟨device, hdevice, hnext.symm⟩

theorem stateTask_due (h : stateTask slot pads = some (packet, next)) :
    ∃ device, pads.devices slot = some device ∧
      next = pads.setSent slot (some (device.presented pads.swapAb)) := by
  simp only [stateTask, Option.bind_eq_some_iff, Option.ite_none_right_eq_some,
    Option.some.injEq, Prod.mk.injEq] at h
  obtain ⟨device, hdevice, -, -, hnext⟩ := h
  exact ⟨device, hdevice, hnext.symm⟩

/-- A packet of the second loop leaves its slot occupied by the device in it. -/
theorem updateTasks_due {task : Task Gamepads Packet} (htask : task ∈ updateTasks slot)
    (h : task pads = some (packet, next)) :
    ∃ device, (pads.devices slot).map Device.id = some device.id ∧
      next = pads.setSent slot (some device) := by
  simp only [updateTasks, List.mem_cons, List.not_mem_nil, or_false] at htask
  rcases htask with rfl | rfl
  · obtain ⟨device, hdevice, hnext⟩ := announceTask_due h
    exact ⟨_, by rw [hdevice]; rfl, hnext⟩
  · obtain ⟨device, hdevice, hnext⟩ := stateTask_due h
    exact ⟨_, by rw [hdevice, presented_id]; rfl, hnext⟩

end Due

theorem removal_keeps_removal (slot other : Slot) :
    Keeps (removalTask slot) (removalTask other) := by
  intro pads packet next hsettled hdue
  rw [removalTask_eq_none] at hsettled ⊢
  rw [removalTask_due hdue]
  exact current_setSent hsettled nofun

theorem removal_keeps_update (slot other : Slot) :
    ∀ task ∈ updateTasks other, Keeps (removalTask slot) task := by
  intro task htask pads packet next hsettled hdue
  obtain ⟨device, hdevice, rfl⟩ := updateTasks_due htask hdue
  rw [removalTask_eq_none] at hsettled ⊢
  refine current_setSent hsettled fun d hd => ?_
  rw [hdevice, Option.some.inj hd]

theorem announce_keeps_update (slot other : Slot) :
    ∀ task ∈ updateTasks other, Keeps (announceTask slot) task := by
  intro task htask pads packet next hsettled hdue
  obtain ⟨device, hdevice, rfl⟩ := updateTasks_due htask hdue
  rw [announceTask_eq_none] at hsettled ⊢
  refine hsettled.imp id fun hsent => ?_
  by_cases h : slot = other
  · simp [h]
  · simpa [Function.update_of_ne h] using hsent

theorem state_keeps_update {slot other : Slot} (hne : slot ≠ other) :
    ∀ task ∈ updateTasks other, Keeps (stateTask slot) task := by
  intro task htask pads packet next hsettled hdue
  obtain ⟨device, hdevice, rfl⟩ := updateTasks_due htask hdue
  rw [stateTask_eq_none] at hsettled ⊢
  exact hsettled.imp id (synced_setSent hne)

theorem syncTasks_keeps : syncTasks.Pairwise Keeps := by
  have hslots : (List.finRange maxGamepads).Pairwise (· ≠ ·) := List.nodup_finRange _
  refine List.pairwise_append.mpr ⟨?_, List.pairwise_flatMap.mpr ⟨fun slot _ => ?_, ?_⟩, ?_⟩
  · exact List.pairwise_map.mpr (hslots.imp fun _ => removal_keeps_removal _ _)
  · exact List.pairwise_pair.mpr (announce_keeps_update slot slot _ (by simp [updateTasks]))
  · refine hslots.imp fun {slot other} hne task htask later hlater => ?_
    simp only [updateTasks, List.mem_cons, List.not_mem_nil, or_false] at htask
    rcases htask with rfl | rfl
    · exact announce_keeps_update slot other later hlater
    · exact state_keeps_update hne later hlater
  · intro task htask later hlater
    obtain ⟨slot, -, rfl⟩ := List.mem_map.mp htask
    obtain ⟨other, -, hlater⟩ := List.mem_flatMap.mp hlater
    exact removal_keeps_update slot other later hlater

theorem syncTasks_settles : ∀ task ∈ syncTasks, Settles task := by
  intro task htask pads packet next hdue
  rcases List.mem_append.mp htask with htask | htask
  · obtain ⟨slot, -, rfl⟩ := List.mem_map.mp htask
    rw [removalTask_due hdue, removalTask_eq_none]
    intro d hd
    simp at hd
  · obtain ⟨slot, -, htask⟩ := List.mem_flatMap.mp htask
    simp only [updateTasks, List.mem_cons, List.not_mem_nil, or_false] at htask
    rcases htask with rfl | rfl
    · obtain ⟨device, -, rfl⟩ := announceTask_due hdue
      exact announceTask_eq_none.mpr (Or.inr (by simp))
    · obtain ⟨device, hdevice, rfl⟩ := stateTask_due hdue
      exact stateTask_eq_none.mpr (Or.inr (by simp [Synced, hdevice]))

/-! ## Interrupted calls -/

/-- A `send` that accepts every packet. -/
def accepting : Send := fun _ _ => .ok ()

/-- A `send` that accepts `k` packets and then fails. -/
def acceptingFirst (k : Nat) (error : InputError) : Send := fun n _ =>
  if n < k then .ok () else .error error

theorem sync_accepting (pads : Gamepads) :
    pads.sync accepting =
      ⟨.ok (), after pads (duePackets syncTasks pads),
        deliveries (duePackets syncTasks pads)⟩ := by
  rw [sync_passes, show offer accepting 0 _ = _ from offer_all (fun _ _ => rfl) 0 _]

/-- Whatever an interrupted call of `sync` left undone, and nothing else, is done
by the next one. -/
theorem sync_resumes (pads : Gamepads) (send : Send) :
    (pads.sync send).delivered ++ ((pads.sync send).pads.sync accepting).delivered =
        (pads.sync accepting).delivered ∧
      ((pads.sync send).pads.sync accepting).pads = (pads.sync accepting).pads := by
  rw [sync_passes pads send]
  dsimp only
  generalize hfirst : (offer send 0 (duePackets syncTasks pads)).1 = first
  obtain ⟨rest, hrest⟩ : first <+: duePackets syncTasks pads := hfirst ▸ offer_prefix ..
  have hresume : duePackets syncTasks (after pads first) = rest :=
    duePackets_resume syncTasks_keeps syncTasks_settles hrest.symm
  rw [sync_accepting, sync_accepting, hresume, ← hrest]
  exact ⟨List.map_append.symm, (after_append ..).symm⟩

/-- A call of `sync` cut off after any number of packets and repeated later sends
the packets of one uninterrupted call, each with the tracker it had there, and
ends in the same tracker. -/
theorem interrupted_sync_resumes (pads : Gamepads) (k : Nat) (error : InputError) :
    let whole := pads.sync accepting
    let first := pads.sync (acceptingFirst k error)
    let second := first.pads.sync accepting
    first.delivered = whole.delivered.take k ∧
    first.result = (if k < whole.delivered.length then .error error else .ok ()) ∧
    first.delivered ++ second.delivered = whole.delivered ∧
    second.pads = whole.pads ∧
    second.result = .ok () ∧ whole.result = .ok () := by
  intro whole first second
  have hcut : offer (acceptingFirst k error) 0 (duePackets syncTasks pads) =
      ((duePackets syncTasks pads).take k,
        if k < (duePackets syncTasks pads).length then .error error else .ok ()) :=
    offer_first (fun n _ hn => if_pos hn) (fun _ => if_neg (Nat.lt_irrefl k)) (Nat.zero_le k) _
  have hwhole : whole.delivered = deliveries (duePackets syncTasks pads) := by
    simp only [whole, sync_accepting]
  obtain ⟨hdelivered, hpads⟩ := sync_resumes pads (acceptingFirst k error)
  refine ⟨?_, ?_, hdelivered, hpads, ?_, ?_⟩
  · simp only [first, sync_passes, hcut, hwhole, deliveries, List.map_take]
  · simp only [first, sync_passes, hcut, hwhole, deliveries, List.length_map]
  · simp only [second, sync_accepting]
  · simp only [whole, sync_accepting]

/-- Cut off between the arrival and the state packet of a pad. -/
example :
    let pads := Gamepads.observe {} { deviceId := 7, pressed := fun b => b == .south }
    let first := pads.sync (acceptingFirst 1 .connectionInactive)
    first.delivered.map Delivery.packet = [.arrival 0 1] := by
  decide

end MoonlightScarlet.Gamepad
