import MoonlightScarlet.Gamepad.Host
import MoonlightScarlet.Support.Fallible
import Mathlib.Data.List.FinRange
/-!
# What one packet of `sync` does

`Commit` says once which packets `sync` can deliver and how each of them changes
`sent`.  `sync_commits` shows that every call of `sync`, whichever of its sends
fail, is a chain of commits; all later facts are inductions over such chains.
-/

namespace MoonlightScarlet.Gamepad

open Sys Support.Fallible

/-! ## The tables -/

@[simp] theorem setSent_devices (pads : Gamepads) (slot : Slot) (d : Option Device) :
    (pads.setSent slot d).devices = pads.devices := rfl

@[simp] theorem setSent_swapAb (pads : Gamepads) (slot : Slot) (d : Option Device) :
    (pads.setSent slot d).swapAb = pads.swapAb := rfl

@[simp] theorem setSent_sent (pads : Gamepads) (slot : Slot) (d : Option Device) :
    (pads.setSent slot d).sent = Function.update pads.sent slot d := rfl

theorem getLsbD_bit (slot other : Slot) :
    (bit slot).getLsbD other = decide (other = slot) := by
  have hlt : (slot : Nat) < 16 := slot.isLt
  simp only [bit, BitVec.getLsbD_twoPow, hlt, decide_true, Bool.true_and,
    Fin.ext_iff, eq_comm]

private theorem getLsbD_foldl_bits (devices : Devices) (slots : List Slot)
    (start : BitVec 16) (slot : Slot) :
    (slots.foldl (fun mask s => mask ||| if (devices s).isSome then bit s else 0)
        start).getLsbD slot =
      (start.getLsbD slot || (decide (slot ∈ slots) && (devices slot).isSome)) := by
  induction slots generalizing start with
  | nil => simp
  | cons s slots ih =>
      have hbit : (if (devices s).isSome then bit s else 0).getLsbD slot =
          (decide (slot = s) && (devices s).isSome) := by
        cases (devices s).isSome with
        | false => simp
        | true => rw [if_pos rfl, getLsbD_bit, Bool.and_true]
      simp only [List.foldl_cons, ih, BitVec.getLsbD_or, hbit, List.mem_cons]
      by_cases hs : slot = s
      · subst hs
        cases start.getLsbD slot <;> cases (devices slot).isSome <;> simp
      · simp [hs]

/-- The active mask holds exactly the bits of the occupied slots. -/
@[simp] theorem getLsbD_mask (devices : Devices) (slot : Slot) :
    (mask devices).getLsbD slot = (devices slot).isSome := by
  rw [mask, getLsbD_foldl_bits]
  simp

@[simp] theorem presented_id (swapAb : Bool) (device : Device) :
    (device.presented swapAb).id = device.id := by
  unfold Device.presented
  split <;> rfl

/-! ## Commits -/

/-- The identity sent for `slot` is that of the device now in it. -/
def Current (pads : Gamepads) (slot : Slot) : Prop :=
  ∀ device, pads.sent slot = some device →
    (pads.devices slot).map Device.id = some device.id

/-- What the host was told about `slot` is what the tracker holds for it. -/
def Synced (pads : Gamepads) (slot : Slot) : Prop :=
  pads.sent slot = (pads.devices slot).map (Device.presented pads.swapAb)

/-- One accepted packet of `sync`: the tracker before it, the packet and the
tracker after its commit. -/
inductive Commit (pads : Gamepads) : Packet → Gamepads → Prop
  | release (slot : Slot) (old : Device) (hsent : pads.sent slot = some old)
      (hstale : (pads.devices slot).map Device.id ≠ some old.id) :
      Commit pads (.state slot (mask pads.sent &&& ~~~bit slot) {})
        (pads.setSent slot none)
  | arrive (slot : Slot) (device : Device) (hsent : pads.sent slot = none)
      (hdevice : (pads.devices slot).map (Device.presented pads.swapAb) = some device)
      (hclean : ∀ slot, Current pads slot) :
      Commit pads (.arrival slot (mask pads.sent ||| bit slot))
        (pads.setSent slot (some { id := device.id, state := {} }))
  | state (slot : Slot) (device old : Device) (hsent : pads.sent slot = some old)
      (hdevice : (pads.devices slot).map (Device.presented pads.swapAb) = some device)
      (hclean : ∀ slot, Current pads slot) :
      Commit pads (.state slot (mask pads.sent) device.state)
        (pads.setSent slot (some device))

/-- The deliveries of one call of `sync`, from the tracker it starts in to the
tracker it leaves. -/
inductive Commits (pads : Gamepads) : List Delivery → Gamepads → Prop
  | nil : Commits pads [] pads
  | snoc {delivered : List Delivery} {mid next : Gamepads} {packet : Packet}
      (hchain : Commits pads delivered mid) (hcommit : Commit mid packet next) :
      Commits pads (delivered ++ [⟨packet, next⟩]) next

/-! ## `sync` is a chain of commits -/

section Sync

variable {P : SyncState → Prop} {E : InputError → SyncState → Prop}

/-- The tracker and the deliveries after one more accepted packet. -/
def SyncState.accept (s : SyncState) (packet : Packet)
    (commit : Gamepads → Gamepads) : SyncState :=
  { self := commit s.self, delivered := s.delivered ++ [⟨packet, commit s.self⟩] }

theorem deliver_triple {send : Send} {packet : Packet} {commit : Gamepads → Gamepads}
    {Q : Unit → SyncState → Prop}
    (hok : ∀ s, P s → Q () (s.accept packet commit)) (herr : ∀ s e, P s → E e s) :
    Triple P (deliver send packet commit) Q E := by
  refine Triple.get_bind fun s hs => ?_
  cases send s.delivered.length packet with
  | ok => exact Triple.set fun _ _ => hok s hs
  | error e => exact Triple.throw fun t ht => ht ▸ herr s e hs

variable (start : Gamepads) (send : Send)

/-- The chain so far, with what the first loop has settled in `done`. -/
private def Removed (done : List Slot) (s : SyncState) : Prop :=
  Commits start s.delivered s.self ∧ ∀ slot ∈ done, Current s.self slot

/-- The chain so far, with what the second loop has settled in `done`. -/
private def Updated (done : List Slot) (s : SyncState) : Prop :=
  Commits start s.delivered s.self ∧ (∀ slot, Current s.self slot) ∧
    ∀ slot ∈ done, Synced s.self slot

private def Broken (_ : InputError) (s : SyncState) : Prop :=
  Commits start s.delivered s.self

theorem current_setSent {pads : Gamepads} {slot other : Slot} {device : Option Device}
    (hother : Current pads other)
    (hslot : ∀ d, device = some d → (pads.devices slot).map Device.id = some d.id) :
    Current (pads.setSent slot device) other := by
  intro d hd
  by_cases h : other = slot
  · subst h
    exact hslot d (by simpa using hd)
  · exact hother d (by simpa [Function.update_of_ne h] using hd)

private theorem removeStale_triple (done : List Slot) (slot : Slot) :
    Triple (Removed start done) (removeStale send slot)
      (fun _ => Removed start (done ++ [slot])) (Broken start) := by
  refine Triple.get_bind fun s ⟨hchain, hdone⟩ => ?_
  dsimp only
  split_ifs with hstale
  · obtain ⟨old, hold⟩ := Option.isSome_iff_exists.mp hstale.1
    have hids : (s.self.devices slot).map Device.id ≠ some old.id := by
      have := hstale.2
      rw [hold] at this
      exact fun h => this h.symm
    refine deliver_triple (fun t ht => ?_) fun t _ ht => ht ▸ hchain
    subst ht
    refine ⟨hchain.snoc (.release slot old hold hids), fun other hother => ?_⟩
    rcases List.mem_append.mp hother with hmem | hmem
    · exact current_setSent (hdone other hmem) fun d hd => by cases hd
    · intro d hd
      have hslot : other = slot := by simpa using hmem
      simp [SyncState.accept, hslot] at hd
  · refine Triple.pure fun t ht => ?_
    subst ht
    refine ⟨hchain, fun other hother => ?_⟩
    rcases List.mem_append.mp hother with hmem | hmem
    · exact hdone other hmem
    · have hslot : other = slot := by simpa using hmem
      subst hslot
      intro d hd
      by_contra hne
      refine hstale ⟨by simp [hd], fun h => hne ?_⟩
      rw [← h, hd]
      rfl

/-- The second loop between `announce` and `sendState`: the slot is announced. -/
private def Announced (done : List Slot) (slot : Slot) (device : Device)
    (s : SyncState) : Prop :=
  Updated start done s ∧ (∃ old, s.self.sent slot = some old) ∧
    (s.self.devices slot).map (Device.presented s.self.swapAb) = some device

theorem synced_setSent {pads : Gamepads} {slot other : Slot}
    {device : Option Device} (hne : other ≠ slot) (hother : Synced pads other) :
    Synced (pads.setSent slot device) other := by
  simpa [Synced, Function.update_of_ne hne] using hother

theorem device_id_of_presented {pads : Gamepads} {slot : Slot} {device : Device}
    (h : (pads.devices slot).map (Device.presented pads.swapAb) = some device) :
    (pads.devices slot).map Device.id = some device.id := by
  obtain ⟨reported, hreported, rfl⟩ := Option.map_eq_some_iff.mp h
  simp [hreported]

private theorem not_synced_of_sent_none {pads : Gamepads} {slot : Slot} {device : Device}
    (hsent : pads.sent slot = none)
    (hdevice : (pads.devices slot).map (Device.presented pads.swapAb) = some device) :
    ¬ Synced pads slot := by
  intro h
  rw [Synced, hsent, hdevice] at h
  cases h

private theorem announce_triple (done : List Slot) (slot : Slot) (device : Device) :
    Triple (fun s => Updated start done s ∧
        (s.self.devices slot).map (Device.presented s.self.swapAb) = some device)
      (announce send slot device)
      (fun _ => Announced start done slot device) (Broken start) := by
  refine Triple.get_bind fun s ⟨⟨hchain, hclean, hdone⟩, hdevice⟩ => ?_
  dsimp only
  split_ifs with hsent
  · refine deliver_triple (fun t ht => ?_) fun t _ ht => ht ▸ hchain
    subst ht
    refine ⟨⟨hchain.snoc (.arrive slot device hsent hdevice hclean),
      fun other => current_setSent (hclean other) fun d hd => ?_,
      fun other hother => synced_setSent ?_ (hdone other hother)⟩,
      ⟨_, by simp [SyncState.accept]; rfl⟩, hdevice⟩
    · cases hd
      exact @device_id_of_presented _ _ device hdevice
    · rintro rfl
      exact not_synced_of_sent_none hsent hdevice (hdone other hother)
  · refine Triple.pure fun t ht => ?_
    subst ht
    exact ⟨⟨hchain, hclean, hdone⟩, Option.ne_none_iff_exists'.mp hsent, hdevice⟩

private theorem sendState_triple (done : List Slot) (slot : Slot) (device : Device) :
    Triple (Announced start done slot device) (sendState send slot device)
      (fun _ => Updated start (done ++ [slot])) (Broken start) := by
  refine Triple.get_bind fun s ⟨⟨hchain, hclean, hdone⟩, ⟨old, hold⟩, hdevice⟩ => ?_
  dsimp only
  split_ifs with hsent
  · refine deliver_triple (fun t ht => ?_) fun t _ ht => ht ▸ hchain
    subst ht
    refine ⟨hchain.snoc (.state slot device old hold hdevice hclean),
      fun other => current_setSent (hclean other) fun d hd => ?_, fun other hother => ?_⟩
    · cases hd
      exact device_id_of_presented hdevice
    · by_cases hne : other = slot
      · subst hne
        simpa [Synced, SyncState.accept] using hdevice.symm
      · refine synced_setSent hne (hdone other ?_)
        simpa [hne] using hother
  · refine Triple.pure fun t ht => ?_
    subst ht
    refine ⟨hchain, hclean, fun other hother => ?_⟩
    rcases List.mem_append.mp hother with hmem | hmem
    · exact hdone other hmem
    · have hslot : other = slot := by simpa using hmem
      subst hslot
      exact (not_not.mp hsent).trans hdevice.symm

private theorem update_triple (done : List Slot) (slot : Slot) :
    Triple (Updated start done) (update send slot)
      (fun _ => Updated start (done ++ [slot])) (Broken start) := by
  refine Triple.get_bind fun s hs => ?_
  dsimp only
  cases hdevice : s.self.devices slot with
  | none =>
      refine Triple.pure fun t ht => ?_
      subst ht
      refine ⟨hs.1, hs.2.1, fun other hother => ?_⟩
      rcases List.mem_append.mp hother with hmem | hmem
      · exact hs.2.2 other hmem
      · have hslot : other = slot := by simpa using hmem
        subst hslot
        cases hsent : t.self.sent other with
        | none => simp [Synced, hsent, hdevice]
        | some old => simpa [hdevice] using hs.2.1 other old hsent
  | some device =>
      refine Triple.bind ((announce_triple start send done slot _).consequence
        (fun t ht => ?_) (fun _ _ h => h) fun _ _ h => h) fun _ =>
        sendState_triple start send done slot _
      subst ht
      exact ⟨hs, by rw [hdevice]; rfl⟩

theorem syncM_triple :
    Triple (fun s => s = { self := start, delivered := [] }) (syncM send)
      (fun _ s => Commits start s.delivered s.self ∧ ∀ slot, Synced s.self slot)
      (Broken start) := by
  refine Triple.bind (R := fun _ => Removed start (List.finRange maxGamepads)) ?_ fun _ => ?_
  · refine (Triple.forM fun done slot _ _ =>
      removeStale_triple start send done slot).consequence
      (fun s hs => ?_) (fun _ _ h => h) fun _ _ h => h
    subst hs
    exact ⟨.nil, fun _ h => by cases h⟩
  · refine (Triple.forM fun done slot _ _ =>
      update_triple start send done slot).consequence
      (fun s hs => ?_) (fun _ s hs => ?_) fun _ _ h => h
    · exact ⟨hs.1, fun slot => hs.2 slot (List.mem_finRange slot), fun _ h => by cases h⟩
    · exact ⟨hs.1, fun slot => hs.2.2 slot (List.mem_finRange slot)⟩

theorem sync_of_triple {Q : SyncState → Prop}
    (h : Triple (fun s => s = { self := start, delivered := [] }) (syncM send)
      (fun _ => Q) E) :
    match (start.sync send).result with
    | .ok () => Q ⟨(start.sync send).pads, (start.sync send).delivered⟩
    | .error e => E e ⟨(start.sync send).pads, (start.sync send).delivered⟩ := by
  unfold Gamepads.sync
  cases hrun : (syncM send).run { self := start, delivered := [] } with
  | ok u s => exact h.ok rfl hrun
  | error e s => exact h.error rfl hrun

/-- Whatever `send` answers, `sync` performs a chain of commits. -/
theorem sync_commits : Commits start (start.sync send).delivered (start.sync send).pads := by
  have h := sync_of_triple start send (syncM_triple start send)
  cases hresult : (start.sync send).result with
  | ok =>
      rw [hresult] at h
      exact h.1
  | error e =>
      rw [hresult] at h
      exact h

/-- When `sync` returns `Ok`, `sent` is the table it was meant to send. -/
theorem sync_ok (hok : (start.sync send).result = .ok ()) (slot : Slot) :
    Synced (start.sync send).pads slot := by
  have h := sync_of_triple start send (syncM_triple start send)
  rw [hok] at h
  exact h.2 slot

end Sync

/-! ## Nothing left to send -/

theorem Synced.current {pads : Gamepads} {slot : Slot} (h : Synced pads slot) :
    Current pads slot := by
  intro device hdevice
  obtain ⟨reported, hreported, rfl⟩ := Option.map_eq_some_iff.mp (h.symm.trans hdevice)
  simp [hreported]

/-- A tracker whose table was sent completely sends nothing. -/
theorem sync_quiet {pads : Gamepads} (h : ∀ slot, Synced pads slot) (send : Send) :
    pads.sync send = ⟨.ok (), pads, []⟩ := by
  have hremove (slot : Slot) : Triple (fun s => s = ⟨pads, []⟩) (removeStale send slot)
      (fun _ s => s = ⟨pads, []⟩) fun _ _ => False := by
    refine Triple.get_bind fun s hs => ?_
    subst hs
    dsimp only
    split_ifs with hstale
    · obtain ⟨old, hold⟩ := Option.isSome_iff_exists.mp hstale.1
      refine absurd ?_ hstale.2
      rw [(h slot).current old hold, hold]
      rfl
    · exact Triple.pure fun _ ht => ht
  have hupdate (slot : Slot) : Triple (fun s => s = ⟨pads, []⟩) (update send slot)
      (fun _ s => s = ⟨pads, []⟩) fun _ _ => False := by
    refine Triple.get_bind fun s hs => ?_
    subst hs
    dsimp only
    have hsynced : pads.sent slot = _ := h slot
    cases hdevice : pads.devices slot with
    | none => exact Triple.pure fun _ ht => ht
    | some device =>
        rw [hdevice, Option.map_some] at hsynced
        refine Triple.bind (R := fun _ s => s = ⟨pads, []⟩)
          (Triple.get_bind fun s hs => ?_) fun _ => Triple.get_bind fun s hs => ?_
        all_goals
          subst hs
          simp only [hsynced, reduceCtorEq, ne_eq, not_true_eq_false, if_false]
          exact Triple.pure fun _ ht => ht
  have hrun : Triple (fun s => s = ⟨pads, []⟩) (syncM send)
      (fun _ s => s = ⟨pads, []⟩) fun _ _ => False :=
    Triple.bind (Triple.forM_invariant hremove) fun _ => Triple.forM_invariant hupdate
  have hend := sync_of_triple pads send hrun
  cases hsync : pads.sync send with
  | mk result next delivered =>
      rw [hsync] at hend
      cases result with
      | ok =>
          cases hend
          rfl
      | error e => exact hend.elim

end MoonlightScarlet.Gamepad
