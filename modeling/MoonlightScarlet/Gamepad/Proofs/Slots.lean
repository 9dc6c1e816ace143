import MoonlightScarlet.Gamepad.Proofs.Commit
import Mathlib.Data.List.FinRange
/-!
# A device has one slot

`Distinct` says that no identity occupies two slots of a table.  It holds of both
tables after any sequence of calls, and of `sent` after every single packet: a
slot is announced only when all stale identities are gone, and then every sent
identity is the one that the window system reports for the slot.
-/

namespace MoonlightScarlet.Gamepad

open Sys

/-! ## Calls -/

/-- A call on the shared tracker. -/
inductive Call
  | observe (event : GamepadEvent)
  | setSwapAb (enabled : Bool)
  | sync (send : Send)
  | releaseAll (control : Option Send)
  | resetSession

def Gamepads.perform (pads : Gamepads) : Call → SyncOutcome
  | .observe event => ⟨.ok (), pads.observe event, []⟩
  | .setSwapAb enabled => ⟨.ok (), { pads with swapAb := enabled }, []⟩
  | .sync send => pads.sync send
  | .releaseAll control => pads.releaseAll control
  | .resetSession => ⟨.ok (), pads.resetSession, []⟩

def Gamepads.after (pads : Gamepads) (calls : List Call) : Gamepads :=
  calls.foldl (fun pads call => (pads.perform call).pads) pads

/-! ## Identities in a table -/

def Holds (devices : Devices) (slot : Slot) (id : UInt32) : Prop :=
  (devices slot).map Device.id = some id

def Known (devices : Devices) (id : UInt32) : Prop := ∃ slot, Holds devices slot id

def Distinct (devices : Devices) : Prop :=
  ∀ ⦃slot other id⦄, Holds devices slot id → Holds devices other id → slot = other

/-- The calls after which a connected device may be gone: its own reset and
`release_all`. -/
def Call.Drops (id : UInt32) : Call → Prop
  | .observe event => event.reset = true ∧ event.deviceId = id
  | .releaseAll _ => True
  | _ => False

theorem distinct_noDevices : Distinct noDevices := by
  intro slot other id h
  simp [Holds, noDevices] at h

theorem holds_update_ne {devices : Devices} {slot other : Slot} {device : Option Device}
    {id : UInt32} (hne : other ≠ slot) :
    Holds (Function.update devices slot device) other id ↔ Holds devices other id := by
  rw [Holds, Holds, Function.update_of_ne hne]

theorem holds_update_self {devices : Devices} {slot : Slot} {device : Option Device}
    {id : UInt32} :
    Holds (Function.update devices slot device) slot id ↔ device.map Device.id = some id := by
  rw [Holds, Function.update_self]

/-- Writing a slot keeps a table distinct if no other slot holds the new identity. -/
theorem Distinct.update {devices : Devices} (h : Distinct devices) {slot : Slot}
    {device : Option Device}
    (hnew : ∀ id other, device.map Device.id = some id → Holds devices other id → other = slot) :
    Distinct (Function.update devices slot device) := by
  intro a b id ha hb
  by_cases has : a = slot <;> by_cases hbs : b = slot
  · rw [has, hbs]
  · subst has
    rw [holds_update_self] at ha
    rw [holds_update_ne hbs] at hb
    exact (hnew id b ha hb).symm
  · subst hbs
    rw [holds_update_self] at hb
    rw [holds_update_ne has] at ha
    exact hnew id a hb ha
  · rw [holds_update_ne has] at ha
    rw [holds_update_ne hbs] at hb
    exact h ha hb

/-! ## Positions -/

/-- `position` is the lowest index that is found. -/
theorem position_eq_some {devices : Devices} {found : Option Device → Bool} {slot : Slot} :
    position devices found = some slot ↔
      found (devices slot) = true ∧ ∀ lower < slot, found (devices lower) = false := by
  rw [position, List.find?_eq_some_iff_getElem]
  refine and_congr_right fun _ => ⟨?_, fun h => ?_⟩
  · rintro ⟨i, hi, rfl, hlower⟩ lower hlt
    rw [List.getElem_finRange] at hlt
    simpa using hlower lower hlt
  · refine ⟨slot, by simp, by simp, fun j hj => ?_⟩
    simpa using h ⟨j, by omega⟩ hj

theorem position_eq_none {devices : Devices} {found : Option Device → Bool} :
    position devices found = none ↔ ∀ slot, found (devices slot) = false := by
  rw [position, List.find?_eq_none]
  simp

private theorem any_id {device : Option Device} {id : UInt32} :
    device.any (fun device => device.id == id) = true ↔ device.map Device.id = some id := by
  cases device with
  | none => simp
  | some device => simp

theorem position_of_holds {devices : Devices} (h : Distinct devices) {slot : Slot} {id : UInt32}
    (hslot : Holds devices slot id) :
    position devices (fun device => device.any fun device => device.id == id) = some slot := by
  refine position_eq_some.mpr ⟨any_id.mpr hslot, fun lower hlower => ?_⟩
  rw [Bool.eq_false_iff]
  intro hfound
  exact (Fin.ne_of_lt hlower) (h (any_id.mp hfound) hslot)

theorem position_of_unknown {devices : Devices} {id : UInt32} (h : ¬Known devices id) :
    position devices (fun device => device.any fun device => device.id == id) = none := by
  refine position_eq_none.mpr fun slot => ?_
  rw [Bool.eq_false_iff]
  exact fun hfound => h ⟨slot, any_id.mp hfound⟩

/-! ## `observe` -/

section Observe

variable {pads : Gamepads} {event : GamepadEvent} {slot : Slot}

/-- What an event leaves in the slot of its device. -/
def reported (event : GamepadEvent) : Option Device :=
  if event.reset then none else some { id := event.deviceId, state := translate event }

theorem observe_known (h : Distinct pads.devices) (hslot : Holds pads.devices slot event.deviceId) :
    pads.observe event = pads.setDevice slot (reported event) := by
  rw [Gamepads.observe, position_of_holds h hslot, reported]
  split <;> rfl

theorem observe_unknown_reset (hunknown : ¬Known pads.devices event.deviceId)
    (hreset : event.reset = true) : pads.observe event = pads := by
  rw [Gamepads.observe, position_of_unknown hunknown]
  simp [hreset]

theorem observe_new (hunknown : ¬Known pads.devices event.deviceId) (hreset : event.reset = false)
    (hfree : pads.devices slot = none) (hlowest : ∀ lower < slot, pads.devices lower ≠ none) :
    pads.observe event =
      pads.setDevice slot (some { id := event.deviceId, state := translate event }) := by
  have hposition : position pads.devices Option.isNone = some slot := by
    refine position_eq_some.mpr ⟨by rw [hfree]; rfl, fun lower hlower => ?_⟩
    rw [Bool.eq_false_iff, ne_eq, Option.isNone_iff_eq_none]
    exact hlowest lower hlower
  rw [Gamepads.observe, position_of_unknown hunknown, hposition]
  simp [hreset]

theorem observe_full (hunknown : ¬Known pads.devices event.deviceId)
    (hfull : ∀ slot, pads.devices slot ≠ none) : pads.observe event = pads := by
  have hposition : position pads.devices Option.isNone = none := by
    refine position_eq_none.mpr fun slot => ?_
    rw [Bool.eq_false_iff, ne_eq, Option.isNone_iff_eq_none]
    exact hfull slot
  rw [Gamepads.observe, position_of_unknown hunknown, hposition]
  simp

/-- Everything that one event can do. -/
theorem observe_cases (h : Distinct pads.devices) (event : GamepadEvent) :
    pads.observe event = pads ∨
      ∃ slot, pads.observe event = pads.setDevice slot (reported event) ∧
        (Holds pads.devices slot event.deviceId ∨
          pads.devices slot = none ∧ ¬Known pads.devices event.deviceId) := by
  by_cases hknown : Known pads.devices event.deviceId
  · obtain ⟨slot, hslot⟩ := hknown
    exact Or.inr ⟨slot, observe_known h hslot, Or.inl hslot⟩
  cases hreset : event.reset with
  | true => exact Or.inl (observe_unknown_reset hknown hreset)
  | false =>
      cases hposition : position pads.devices Option.isNone with
      | none =>
          refine Or.inl (observe_full hknown fun slot hfree => ?_)
          simpa [hfree] using position_eq_none.mp hposition slot
      | some slot =>
          obtain ⟨hfree, hlower⟩ := position_eq_some.mp hposition
          rw [Option.isNone_iff_eq_none] at hfree
          refine Or.inr ⟨slot, ?_, Or.inr ⟨hfree, hknown⟩⟩
          rw [observe_new hknown hreset hfree fun lower hlt hnone => ?_, reported, hreset]
          · rfl
          · simpa [hnone] using hlower lower hlt

theorem reported_id {id : UInt32} (h : (reported event).map Device.id = some id) :
    event.deviceId = id := by
  unfold reported at h
  split at h
  · cases h
  · exact Option.some.inj h

theorem distinct_observe (h : Distinct pads.devices) (event : GamepadEvent) :
    Distinct (pads.observe event).devices := by
  obtain heq | ⟨slot, heq, hslot⟩ := observe_cases h event
  · rwa [heq]
  · rw [heq]
    refine h.update fun id other hid hother => ?_
    obtain rfl := reported_id hid
    rcases hslot with hslot | ⟨-, hunknown⟩
    · exact h hother hslot
    · exact absurd ⟨other, hother⟩ hunknown

/-- An event moves no device other than a reset one. -/
theorem holds_observe (h : Distinct pads.devices) {id : UInt32}
    (hholds : Holds pads.devices slot id) (hkept : ¬(event.reset = true ∧ event.deviceId = id)) :
    Holds (pads.observe event).devices slot id := by
  obtain heq | ⟨other, heq, hother⟩ := observe_cases h event
  · rwa [heq]
  · rw [heq]
    by_cases hne : slot = other
    · subst hne
      rcases hother with hother | ⟨hfree, -⟩
      · have hid : event.deviceId = id := Option.some.inj (hother.symm.trans hholds)
        have hreset : ¬event.reset = true := fun hreset => hkept ⟨hreset, hid⟩
        refine holds_update_self.mpr ?_
        rw [reported, if_neg hreset, Option.map_some, hid]
      · rw [Holds, hfree] at hholds
        cases hholds
    · exact (holds_update_ne hne).mpr hholds

end Observe

/-! ## `sync` -/

theorem Commit.distinct {pads next : Gamepads} {packet : Packet} (h : Commit pads packet next)
    (hdevices : Distinct pads.devices) (hsent : Distinct pads.sent) :
    Distinct next.devices ∧ Distinct next.sent := by
  -- When every sent identity is current, `sent` inherits distinctness from `devices`.
  have hwrite {slot : Slot} {device : Device} (hclean : ∀ slot, Current pads slot)
      (hdevice : Holds pads.devices slot device.id) :
      Distinct (Function.update pads.sent slot (some device)) := by
    refine hsent.update fun id other hid hother => ?_
    obtain ⟨old, hold, rfl⟩ := Option.map_eq_some_iff.mp hother
    refine hdevices (hclean other old hold) ?_
    rw [← Option.some.inj hid]
    exact hdevice
  cases h with
  | release slot old hsome hstale => exact ⟨hdevices, hsent.update fun _ _ h => by cases h⟩
  | arrive slot device hnone hdevice hclean =>
      have hholds : Holds pads.devices slot device.id := device_id_of_presented hdevice
      exact ⟨hdevices, hwrite hclean hholds⟩
  | state slot device old hsome hdevice hclean =>
      exact ⟨hdevices, hwrite hclean (device_id_of_presented hdevice)⟩

theorem Commits.distinct {pads next : Gamepads} {delivered : List Delivery}
    (h : Commits pads delivered next) (hdevices : Distinct pads.devices)
    (hsent : Distinct pads.sent) :
    (Distinct next.devices ∧ Distinct next.sent) ∧
      ∀ delivery ∈ delivered, Distinct delivery.pads.devices ∧ Distinct delivery.pads.sent := by
  induction h with
  | nil => exact ⟨⟨hdevices, hsent⟩, fun _ h => by cases h⟩
  | snoc hchain hcommit ih =>
      have hnext := hcommit.distinct ih.1.1 ih.1.2
      refine ⟨hnext, fun delivery hdelivery => ?_⟩
      rcases List.mem_append.mp hdelivery with hmem | hmem
      · exact ih.2 delivery hmem
      · rw [List.mem_singleton.mp hmem]
        exact hnext

theorem Commits.devices {pads next : Gamepads} {delivered : List Delivery}
    (h : Commits pads delivered next) : next.devices = pads.devices := by
  induction h with
  | nil => rfl
  | snoc _ hcommit ih =>
      rw [← ih]
      cases hcommit <;> rfl

/-! ## Calls in sequence -/

structure Unique (pads : Gamepads) : Prop where
  devices : Distinct pads.devices
  sent : Distinct pads.sent

theorem Unique.sync {pads : Gamepads} (h : Unique pads) (send : Send) :
    Unique (pads.sync send).pads ∧
      ∀ delivery ∈ (pads.sync send).delivered, Unique delivery.pads := by
  obtain ⟨hnext, hdelivered⟩ := (sync_commits pads send).distinct h.devices h.sent
  exact ⟨⟨hnext.1, hnext.2⟩, fun delivery hdelivery =>
    ⟨(hdelivered delivery hdelivery).1, (hdelivered delivery hdelivery).2⟩⟩

theorem Unique.perform {pads : Gamepads} (h : Unique pads) (call : Call) :
    Unique (pads.perform call).pads ∧
      ∀ delivery ∈ (pads.perform call).delivered, Unique delivery.pads := by
  cases call with
  | observe event =>
      have hsent : (pads.observe event).sent = pads.sent := by
        obtain heq | ⟨slot, heq, -⟩ := observe_cases h.devices event <;> rw [heq]
        rfl
      exact ⟨⟨distinct_observe h.devices event, hsent ▸ h.sent⟩, fun _ h => by cases h⟩
  | setSwapAb enabled => exact ⟨⟨h.devices, h.sent⟩, fun _ h => by cases h⟩
  | sync send => exact h.sync send
  | releaseAll control =>
      cases control with
      | none => exact ⟨⟨distinct_noDevices, distinct_noDevices⟩, fun _ h => by cases h⟩
      | some send =>
          have hcleared : Unique { pads with devices := noDevices } := ⟨distinct_noDevices, h.sent⟩
          exact hcleared.sync send
  | resetSession => exact ⟨⟨h.devices, distinct_noDevices⟩, fun _ h => by cases h⟩

theorem Unique.after {pads : Gamepads} (h : Unique pads) (calls : List Call) :
    Unique (pads.after calls) := by
  induction calls generalizing pads with
  | nil => exact h
  | cons call calls ih => exact ih (h.perform call).1

theorem unique_empty : Unique {} := ⟨distinct_noDevices, distinct_noDevices⟩

theorem holds_perform {pads : Gamepads} (h : Unique pads) {slot : Slot} {id : UInt32} {call : Call}
    (hholds : Holds pads.devices slot id) (hkept : ¬call.Drops id) :
    Holds (pads.perform call).pads.devices slot id := by
  cases call with
  | observe event => exact holds_observe h.devices hholds hkept
  | setSwapAb enabled => exact hholds
  | sync send =>
      show Holds (pads.sync send).pads.devices slot id
      rwa [(sync_commits pads send).devices]
  | releaseAll control => exact absurd trivial hkept
  | resetSession => exact hholds

theorem holds_after {pads : Gamepads} (h : Unique pads) {slot : Slot} {id : UInt32}
    (hholds : Holds pads.devices slot id) {calls : List Call}
    (hkept : ∀ call ∈ calls, ¬call.Drops id) : Holds (pads.after calls).devices slot id := by
  induction calls generalizing pads with
  | nil => exact hholds
  | cons call calls ih =>
      exact ih (h.perform call).1 (holds_perform h hholds (hkept call (List.mem_cons_self ..)))
        fun later hlater => hkept later (List.mem_cons_of_mem _ hlater)

/-- After any calls, and between any two packets of a further one, no identity has
two slots; a device keeps its slot until its own reset or a `release_all`; a new
one gets the lowest free slot, and unknown ones change nothing when none is free. -/
theorem slots_identify_devices (calls : List Call) :
    let pads := Gamepads.after {} calls
    (Distinct pads.devices ∧ Distinct pads.sent) ∧
    (∀ call, ∀ delivery ∈ (pads.perform call).delivered,
      Distinct delivery.pads.devices ∧ Distinct delivery.pads.sent) ∧
    (∀ slot id more, Holds pads.devices slot id → (∀ call ∈ more, ¬Call.Drops id call) →
      Holds (pads.after more).devices slot id) ∧
    (∀ event : GamepadEvent, ¬Known pads.devices event.deviceId → event.reset = false →
      ∀ slot, pads.devices slot = none → (∀ lower < slot, pads.devices lower ≠ none) →
        pads.observe event =
          pads.setDevice slot (some { id := event.deviceId, state := translate event })) ∧
    ∀ event : GamepadEvent, ¬Known pads.devices event.deviceId →
      (event.reset = true ∨ ∀ slot, pads.devices slot ≠ none) → pads.observe event = pads := by
  intro pads
  have hunique : Unique pads := unique_empty.after calls
  refine ⟨⟨hunique.devices, hunique.sent⟩, fun call delivery hdelivery => ?_,
    fun slot id more hholds hkept => holds_after hunique hholds hkept,
    fun event hunknown hreset slot hfree hlowest => observe_new hunknown hreset hfree hlowest,
    fun event hunknown h => ?_⟩
  · have hdelivery := (hunique.perform call).2 delivery hdelivery
    exact ⟨hdelivery.devices, hdelivery.sent⟩
  · exact h.elim (observe_unknown_reset hunknown) (observe_full hunknown)

/-- A pad that moved to another slot is announced there only after its old slot
was released. -/
example :
    let pads := Gamepads.after {} [.observe { deviceId := 1 }, .observe { deviceId := 2 },
      .sync fun _ _ => .ok (), .observe { deviceId := 1, reset := true },
      .observe { deviceId := 2, reset := true }, .observe { deviceId := 2 }]
    (pads.sync fun _ _ => .ok ()).delivered.map Delivery.packet =
      [.state 0 2 {}, .state 1 0 {}, .arrival 0 1] := by
  decide

end MoonlightScarlet.Gamepad
