import MoonlightScarlet.Gamepad.Proofs.Commit
import MoonlightScarlet.Support.Words
import Mathlib.Logic.Equiv.Basic
/-!
# The host mirrors the tracker

A session is any interleaving of controller events, toggles, calls of `sync` and
`release_all` with failing sends, and session resets.  Its deliveries form a
`History`: commits that follow each other in `sent`.  Every commit is one step of
the host, so the host never holds anything but `sent`.
-/

namespace MoonlightScarlet.Gamepad

open Sys Support.Fallible

/-! ## The button exchange -/

private theorem getLsbD_select (p : Prop) [Decidable p] {k : Nat} (hk : k < 32) (i : Nat) :
    (if p then BitVec.twoPow 32 k else 0).getLsbD i = (decide p && decide (i = k)) := by
  by_cases hp : p <;> simp [hp, BitVec.getLsbD_twoPow, hk, eq_comm]

theorem getLsbD_swapButtons (b : BitVec 32) (i : Nat) :
    (swapButtons b).getLsbD i = b.getLsbD (Equiv.swap 12 13 i) := by
  have ha : ControllerButton.a.raw = BitVec.twoPow 32 12 := by decide
  have hb : ControllerButton.b.raw = BitVec.twoPow 32 13 := by decide
  have hkeep : (b &&& ~~~(BitVec.twoPow 32 12 ||| BitVec.twoPow 32 13)).getLsbD i =
      (b.getLsbD i && !decide (i = 12) && !decide (i = 13)) := by
    by_cases hi : i < 32
    · simp [hi, Bool.and_assoc]
    · simp [BitVec.getLsbD_of_ge b i (by omega)]
  rw [swapButtons, ha, hb, BitVec.getLsbD_or, BitVec.getLsbD_or, hkeep,
    getLsbD_select _ (by omega), getLsbD_select _ (by omega)]
  simp only [Support.Words.and_twoPow_ne_zero b (k := 12) (by omega),
    Support.Words.and_twoPow_ne_zero b (k := 13) (by omega), Bool.decide_eq_true]
  by_cases h12 : i = 12
  · simp [h12]
  · by_cases h13 : i = 13
    · simp [h13]
    · simp [Equiv.swap_apply_of_ne_of_ne h12 h13, h12, h13]

theorem presents_presented (swapAb : Bool) (device : Device) :
    Presents swapAb device.state (device.presented swapAb).state := by
  cases swapAb with
  | false => exact ⟨rfl, fun _ => rfl⟩
  | true => exact ⟨rfl, fun i => getLsbD_swapButtons device.state.buttons i⟩

/-! ## One commit is one step of the host -/

/-- The controllers of a table, as the host would present them. -/
def states (devices : Devices) : Host := fun slot => (devices slot).map Device.state

private theorem getLsbD_clear (devices : Devices) (slot other : Slot) :
    (Gamepad.mask devices &&& ~~~bit slot).getLsbD other =
      ((devices other).isSome && !decide (other = slot)) := by
  have hlt : (other : Nat) < 16 := other.isLt
  rw [BitVec.getLsbD_and, BitVec.getLsbD_not, getLsbD_mask, getLsbD_bit]
  simp only [hlt, decide_true, Bool.true_and]

section Commit

variable {pads next : Gamepads} {packet : Packet} (h : Commit pads packet next)

include h

theorem Commit.mask (other : Slot) :
    packet.mask.getLsbD other = (next.sent other).isSome := by
  cases h with
  | release slot old hsent hstale =>
      rw [Packet.mask, getLsbD_clear]
      by_cases hother : other = slot <;> simp [hother, Function.update_of_ne]
  | arrive slot device hsent hdevice hclean =>
      rw [Packet.mask, BitVec.getLsbD_or, getLsbD_mask, getLsbD_bit]
      by_cases hother : other = slot <;> simp [hother, Function.update_of_ne]
  | state slot device old hsent hdevice hclean =>
      rw [Packet.mask, getLsbD_mask]
      by_cases hother : other = slot <;> simp [hother, hsent, Function.update_of_ne]

theorem Commit.refines : (states pads.sent).receive packet = states next.sent := by
  funext other
  have hmask := h.mask other
  cases h with
  | release slot old hsent hstale =>
      simp only [Packet.mask] at hmask
      simp only [Host.receive, hmask, states]
      by_cases hother : other = slot
      · simp [hother]
      · cases hs : pads.sent other <;> simp [hother, Function.update_of_ne, hs]
  | arrive slot device hsent hdevice hclean =>
      by_cases hother : other = slot <;>
        simp [Host.receive, states, hother, Function.update_of_ne]
  | state slot device old hsent hdevice hclean =>
      simp only [Packet.mask] at hmask
      simp only [Host.receive, hmask, states]
      by_cases hother : other = slot
      · simp [hother]
      · cases hs : pads.sent other <;> simp [hother, Function.update_of_ne, hs]

theorem Commit.arrival_slot {slot : Slot} {mask : BitVec 16}
    (hpacket : packet = .arrival slot mask) :
    pads.sent slot = none ∧ (next.sent slot).isSome := by
  cases h with
  | release => cases hpacket
  | arrive slot' device hsent hdevice hclean =>
      cases hpacket
      exact ⟨hsent, by simp⟩
  | state => cases hpacket

theorem Commit.state_slot {slot : Slot} {mask : BitVec 16} {state : ControllerState}
    (hpacket : packet = .state slot mask state) (hmask : mask.getLsbD slot = true) :
    (pads.sent slot).isSome := by
  cases h with
  | release slot' old hsent hstale =>
      cases hpacket
      rw [getLsbD_clear] at hmask
      simp at hmask
  | arrive => cases hpacket
  | state slot' device old hsent hdevice hclean =>
      cases hpacket
      simp [hsent]

/-- Only a neutral packet with its bit clear takes a controller from the host. -/
theorem Commit.unplugs {slot : Slot} (hbefore : (pads.sent slot).isSome)
    (hafter : next.sent slot = none) : packet.Unplugs slot := by
  have hmask := h.mask slot
  rw [hafter, Option.isSome_none] at hmask
  cases h with
  | release slot' old hsent hstale =>
      by_cases hslot : slot = slot'
      · subst hslot
        exact ⟨_, rfl, hmask⟩
      · simp [Function.update_of_ne hslot] at hafter
        simp [hafter] at hbefore
  | arrive slot' device hsent hdevice hclean =>
      by_cases hslot : slot = slot'
      · simp [hslot] at hafter
      · simp [Function.update_of_ne hslot] at hafter
        simp [hafter] at hbefore
  | state slot' device old hsent hdevice hclean =>
      by_cases hslot : slot = slot'
      · simp [hslot] at hafter
      · simp [Function.update_of_ne hslot] at hafter
        simp [hafter] at hbefore

end Commit

/-! ## Histories -/

/-- The deliveries of one connection and the table of sent devices they lead to.
Between two commits the tracker may change in everything but `sent`. -/
inductive History : List Delivery → Devices → Prop
  | nil : History [] noDevices
  | snoc {delivered : List Delivery} {pads next : Gamepads} {packet : Packet}
      (hpast : History delivered pads.sent) (hcommit : Commit pads packet next) :
      History (delivered ++ [⟨packet, next⟩]) next.sent

def packets (delivered : List Delivery) : List Packet := delivered.map Delivery.packet

@[simp] theorem packets_append (xs ys : List Delivery) :
    packets (xs ++ ys) = packets xs ++ packets ys := by
  simp [packets]

theorem History.append_commits {delivered new : List Delivery} {pads next : Gamepads}
    (hpast : History delivered pads.sent) (hnew : Commits pads new next) :
    History (delivered ++ new) next.sent := by
  induction hnew with
  | nil => simpa using hpast
  | snoc _ hcommit ih =>
      rw [← List.append_assoc]
      exact .snoc ih hcommit

theorem History.host {delivered : List Delivery} {sent : Devices}
    (h : History delivered sent) : hostAfter (packets delivered) = states sent := by
  induction h with
  | nil => rfl
  | snoc _ hcommit ih =>
      rw [packets_append]
      exact (hostAfter_snoc _ _).trans (ih ▸ hcommit.refines)

/-- Every delivery of a history was a commit on the history before it. -/
theorem History.split {before after : List Delivery} {d : Delivery} {sent : Devices}
    (h : History (before ++ d :: after) sent) :
    ∃ pads, History before pads.sent ∧ Commit pads d.packet d.pads := by
  generalize hall : before ++ d :: after = all at h
  induction h generalizing after with
  | nil => simp at hall
  | snoc hpast hcommit ih =>
      rcases List.eq_nil_or_concat after with rfl | ⟨init, last, rfl⟩
      · obtain ⟨rfl, hd⟩ := List.append_inj' hall rfl
        cases hd
        exact ⟨_, hpast, hcommit⟩
      · rw [List.concat_eq_append, ← List.cons_append, ← List.append_assoc] at hall
        exact ih (List.append_inj' hall rfl).1

/-- After an arrival the slot is taken on the host, or it was unplugged since. -/
theorem History.since_arrival {delivered : List Delivery} {sent : Devices}
    (h : History delivered sent) {slot : Slot} {mask : BitVec 16}
    {before after : List Packet}
    (hpackets : packets delivered = before ++ .arrival slot mask :: after) :
    (sent slot).isSome ∨ ∃ packet ∈ after, packet.Unplugs slot := by
  induction h generalizing after with
  | nil => simp [packets] at hpackets
  | @snoc delivered pads next packet hpast hcommit ih =>
      rw [packets_append] at hpackets
      rcases List.eq_nil_or_concat after with rfl | ⟨init, last, rfl⟩
      · obtain ⟨-, hlast⟩ := List.append_inj' hpackets rfl
        exact Or.inl (hcommit.arrival_slot (List.singleton_inj.mp hlast)).2
      · rw [List.concat_eq_append, ← List.cons_append, ← List.append_assoc] at hpackets
        obtain ⟨hinit, hlast⟩ := List.append_inj' hpackets rfl
        have hlast : packet = last := List.singleton_inj.mp hlast
        subst hlast
        rcases ih hinit with hsome | ⟨p, hp, hunplugs⟩
        · cases hnext : next.sent slot with
          | none => exact Or.inr ⟨packet, by simp, hcommit.unplugs hsome hnext⟩
          | some d => exact Or.inl rfl
        · exact Or.inr ⟨p, by simp [hp], hunplugs⟩

/-! ## Sessions -/

structure Session where
  pads : Gamepads := {}
  delivered : List Delivery := []

inductive Op
  | observe (event : GamepadEvent)
  | setSwapAb (enabled : Bool)
  | sync (send : Send)
  | releaseAll (send : Send)
  | resetSession

/-- Run one operation.  A reset starts a new connection, whose host has received
nothing yet. -/
def Session.step (session : Session) : Op → Session
  | .observe event => { session with pads := session.pads.observe event }
  | .setSwapAb enabled =>
      { session with pads := { session.pads with swapAb := enabled } }
  | .sync send =>
      let outcome := session.pads.sync send
      { pads := outcome.pads, delivered := session.delivered ++ outcome.delivered }
  | .releaseAll send =>
      let outcome := session.pads.releaseAll (some send)
      { pads := outcome.pads, delivered := session.delivered ++ outcome.delivered }
  | .resetSession => { pads := session.pads.resetSession, delivered := [] }

def runOps (ops : List Op) : Session := ops.foldl Session.step {}

/-- The call of `sync` that an operation makes, if it makes one. -/
def Session.syncCall (session : Session) : Op → Option SyncOutcome
  | .sync send => some (session.pads.sync send)
  | .releaseAll send => some (session.pads.releaseAll (some send))
  | _ => none

theorem observe_sent (pads : Gamepads) (event : GamepadEvent) :
    (pads.observe event).sent = pads.sent := by
  unfold Gamepads.observe
  dsimp only
  split <;> split <;> rfl

theorem step_history {session : Session} (op : Op)
    (h : History session.delivered session.pads.sent) :
    History (session.step op).delivered (session.step op).pads.sent := by
  cases op with
  | observe event => simpa [Session.step, observe_sent] using h
  | setSwapAb enabled => exact h
  | sync send => exact h.append_commits (sync_commits session.pads send)
  | releaseAll send =>
      have hcleared : History session.delivered
          ({ session.pads with devices := noDevices } : Gamepads).sent := h
      exact hcleared.append_commits (sync_commits _ send)
  | resetSession => exact .nil

/-- The deliveries of every session are a history that ends in its `sent`. -/
theorem runOps_history (ops : List Op) :
    History (runOps ops).delivered (runOps ops).pads.sent := by
  suffices h : ∀ session : Session, History session.delivered session.pads.sent →
      History (ops.foldl Session.step session).delivered
        (ops.foldl Session.step session).pads.sent from h {} .nil
  induction ops with
  | nil => exact fun _ h => h
  | cons op ops ih => exact fun session h => ih _ (step_history op h)

theorem step_of_syncCall {session : Session} {op : Op} {outcome : SyncOutcome}
    (h : session.syncCall op = some outcome) :
    session.step op = ⟨outcome.pads, session.delivered ++ outcome.delivered⟩ ∧
      ∃ (start : Gamepads) (send : Send), outcome = start.sync send := by
  cases op with
  | sync send =>
      cases h
      exact ⟨rfl, _, _, rfl⟩
  | releaseAll send =>
      cases h
      exact ⟨rfl, _, _, rfl⟩
  | _ => cases h

/-- A table that was sent completely is what the host shows. -/
theorem shows_of_synced {pads : Gamepads} (h : ∀ slot, Synced pads slot) (slot : Slot) :
    Option.Rel (fun device => Presents pads.swapAb device.state)
      (pads.devices slot) (states pads.sent slot) := by
  rw [states, h slot, Option.map_map]
  cases pads.devices slot with
  | none => exact .none
  | some device => exact .some (presents_presented pads.swapAb device)

/-- In every session the host holds exactly the devices in `sent`, is never told
to update or announce a slot in the wrong state, and after a complete `sync`
holds the current devices, so that repeating the call sends nothing. -/
theorem host_mirrors_tracker (ops : List Op) :
    let session := runOps ops
    (∀ before d after, session.delivered = before ++ d :: after →
      let host := hostAfter (packets (before ++ [d]))
      host = states d.pads.sent ∧
        ∀ slot : Slot, d.packet.mask.getLsbD slot = (host slot).isSome) ∧
    (∀ before d after, session.delivered = before ++ d :: after →
      let host := hostAfter (packets before)
      (∀ slot mask, d.packet = .arrival slot mask → host slot = none) ∧
        ∀ slot mask state, d.packet = .state slot mask state →
          mask.getLsbD slot = true → (host slot).isSome) ∧
    (∀ slot before mask between mask' after,
      packets session.delivered =
        before ++ .arrival slot mask :: (between ++ .arrival slot mask' :: after) →
      ∃ packet ∈ between, packet.Unplugs slot) ∧
    ∀ op outcome, session.syncCall op = some outcome → outcome.result = .ok () →
      let next := session.step op
      (∀ slot, Option.Rel (fun device => Presents next.pads.swapAb device.state)
        (next.pads.devices slot) (hostAfter (packets next.delivered) slot)) ∧
      ∀ send, next.pads.sync send = ⟨.ok (), next.pads, []⟩ := by
  intro session
  have hhistory : History session.delivered session.pads.sent := runOps_history ops
  refine ⟨fun before d after hd => ?_, fun before d after hd => ?_,
    fun slot before mask between mask' after hpackets => ?_,
    fun op outcome hcall hok => ?_⟩
  · obtain ⟨pads, hpast, hcommit⟩ := (hd ▸ hhistory).split
    have hhost : hostAfter (packets (before ++ [d])) = states d.pads.sent :=
      (History.snoc hpast hcommit).host
    refine ⟨hhost, fun slot => ?_⟩
    rw [hcommit.mask slot, hhost, states, Option.isSome_map]
  · obtain ⟨pads, hpast, hcommit⟩ := (hd ▸ hhistory).split
    dsimp only
    rw [hpast.host]
    refine ⟨fun slot mask hpacket => ?_, fun slot mask state hpacket hmask => ?_⟩
    · rw [states, (hcommit.arrival_slot hpacket).1, Option.map_none]
    · rw [states, Option.isSome_map]
      exact hcommit.state_slot hpacket hmask
  · -- Cut the deliveries at the second arrival: there the slot is free again.
    obtain ⟨first, second, hsplit, hfirst, hsecond⟩ := List.map_eq_append_iff.mp
      (hpackets.trans (List.append_assoc _ (_ :: between) _).symm)
    obtain ⟨d, rest, rfl, hd, -⟩ := List.map_eq_cons_iff.mp hsecond
    obtain ⟨pads, hpast, hcommit⟩ := (hsplit ▸ hhistory).split
    rcases hpast.since_arrival hfirst with hsome | hunplugs
    · rw [(hcommit.arrival_slot hd).1] at hsome
      cases hsome
    · exact hunplugs
  · obtain ⟨hstep, start, send, rfl⟩ := step_of_syncCall hcall
    have hnext := step_history op hhistory
    have hsynced := sync_ok start send hok
    rw [hstep] at hnext ⊢
    exact ⟨fun slot => hnext.host ▸ shows_of_synced hsynced slot,
      fun send => sync_quiet hsynced send⟩

/-- A device that vanished is released before its slot is announced again. -/
example :
    packets (runOps [.observe { deviceId := 900 }, .observe { deviceId := 42 },
      .sync fun _ _ => .ok (), .observe { deviceId := 900, reset := true },
      .observe { deviceId := 12345 }, .sync fun _ _ => .ok ()]).delivered =
      [.arrival 0 1, .arrival 1 3, .state 0 2 {}, .arrival 0 3] := by
  decide

end MoonlightScarlet.Gamepad
