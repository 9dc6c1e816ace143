import MoonlightScarlet.Core.Proofs.InputMotion
/-!
# What waits to be sent

The flags of the batched state say which carriers are under way, and the current packet of a
controller is the last of its packets that the input thread has not looked at.
-/

namespace MoonlightScarlet.Core.InputStream

open LinkedBlockingQueue (Contents)
open Support.Runs Support.Batching

variable {P K : Type}

/-- The controller whose current packet this may be. -/
def Packet.slot : Packet K → Option (Fin 16)
  | .multiController fields => some fields.controllerNumber
  | _ => none

/-- How the flags speak of the carriers. -/
structure Flagged (s : State P K) : Prop where
  relative : s.relative.dirty = true →
    Item.carrier .relative ∈ s.items ∨ s.sender.claim = some .relative
  absolute : s.absolute.dirty = true →
    Item.carrier .absolute ∈ s.items ∨ s.sender.claim = some .absolute
  latest : Item.carrier .absolute ∈ s.items ∨ s.sender.claim = some .absolute →
    position.read s.given =
      some (.ofPosition s.absolute.x s.absolute.y s.absolute.width s.absolute.height)

/-- The packet that the caller is about to offer. -/
def Sender.offered? : Sender P K → Option (Packet K × P)
  | .offering packet holder => some (packet, holder)
  | _ => none

theorem Sender.Starts.offered?_eq {sender : Sender P K} (h : sender.Starts) :
    sender.offered? = none := by
  obtain rfl | ⟨payload, rfl⟩ := h <;> rfl

/-- The current packet of a controller is the last one of it that nobody has looked at. -/
structure Slotted (s : State P K) : Prop where
  current : ∀ number holder, s.currentQueuedControllerPacket number = some holder →
    (∃ packet, s.sender = .offering packet holder ∧ packet.slot = some number) ∨
      ∃ a b, s.fresh = a ++ holder :: b ∧ (s.memory holder).slot = some number ∧
        ∀ other ∈ b, (s.memory other).slot ≠ some number
  offered : ∀ packet holder number, s.sender = .offering packet holder →
    packet.slot = some number → s.currentQueuedControllerPacket number = some holder

section Packets

variable {packet : Packet K} {memory : P → Packet K} {holders : List P}

theorem ignores_of_no_carrier (h : packet.carrier? = none) {aspect : Aspect} {carrier : Carrier}
    (haspect : aspect.carries carrier) :
    (aspect.receiver : Receiver (Packet K) _).Ignores packet := by
  cases packet with
  | mouseMoveRel => cases h
  | mouseMoveAbs => cases h
  | other payload => exact scheme.ignores_ordered aspect _ rfl
  | multiController fields =>
      apply ignores_controller
      rintro rfl
      exact haspect

theorem ignores_of_slot {number : Fin 16} (h : packet.slot ≠ some number) :
    (controller number : Receiver (Packet K) _).Ignores packet := by
  cases packet with
  | multiController fields =>
      refine ignores_controller (.controller number) ?_
      intro hsame
      cases hsame
      exact h rfl
  | _ => exact fun _ => rfl

theorem mem_packets_items
    (h : packet ∈ packets (holders.map fun holder => (memory holder).item)) :
    packet.carrier? = none ∧ ∃ holder ∈ holders, memory holder = packet := by
  obtain ⟨item, hitem, hpacket⟩ := List.mem_filterMap.mp h
  obtain ⟨holder, hholder, rfl⟩ := List.mem_map.mp hitem
  unfold Packet.item at hpacket
  cases hcarrier : (memory holder).carrier? with
  | some carrier =>
      rw [hcarrier] at hpacket
      cases hpacket
  | none =>
      rw [hcarrier] at hpacket
      cases hpacket
      exact ⟨hcarrier, holder, hholder, rfl⟩

end Packets

/-! ## What waits -/

namespace State

variable (s : State P K)

/-- What the holders on the queue stand for. -/
def waiting : List (Item (Packet K) Carrier) := s.queued.map fun holder => (s.memory holder).item

variable {s} {holder : P} {more : Bool}

theorem items_waiting (h : s.thread = .waiting) : s.items = s.waiting := by
  rw [items, fresh, h]
  rfl

theorem items_taken (h : s.thread = .taken holder) :
    s.items = (s.memory holder).item :: s.waiting := by
  rw [items, fresh, h]
  rfl

theorem items_moving (h : s.thread = .moving holder) :
    s.items = .carrier .relative :: s.waiting := by
  rw [items, fresh, h]
  rfl

theorem items_sendingMove (h : s.thread = .sendingMove holder more) :
    s.items = .packet (s.memory holder) :: .carrier .relative :: s.waiting := by
  rw [items, fresh, h]
  rfl

theorem items_sending (h : s.thread = .sending holder) :
    s.items = .packet (s.memory holder) :: s.waiting := by
  rw [items, fresh, h]
  rfl

theorem view_eq {t : State P K} (hgiven : t.given = s.given) (hsent : t.sent = s.sent)
    (hitems : t.items = s.items) (hclaim : t.sender.claim = s.sender.claim) :
    t.view = s.view := by
  rw [view, hgiven, hsent, hitems, hclaim, view]

theorem waiting_congr {t : State P K} (hqueue : t.packetQueue.elements = s.packetQueue.elements)
    (hmemory : ∀ holder ∈ s.queued, t.memory holder = s.memory holder) :
    t.waiting = s.waiting := by
  have hqueued : t.queued = s.queued := congrArg (List.map Prod.snd) hqueue
  rw [waiting, hqueued]
  exact List.map_congr_left fun holder hholder => by rw [hmemory holder hholder]

end State

/-- What the input thread has looked at does not change with a holder that it does not have. -/
theorem InputThread.items_congr {thread : InputThread P} {memory memory' : P → Packet K}
    (h : ∀ holder, thread.holder? = some holder → memory' holder = memory holder) :
    thread.items memory' = thread.items memory := by
  cases thread with
  | sendingMove holder more => simp only [items, h holder rfl]
  | sending holder => simp only [items, h holder rfl]
  | _ => rfl

namespace Kept

variable {s : State P K} {holder other : P}

theorem not_mem_queued (h : Kept s) (hthread : s.thread.holder? = some holder) :
    holder ∉ s.queued := by
  have hnodup := h.nodup
  rw [State.holders, hthread] at hnodup
  simp only [Option.toList_some, List.cons_append, List.nil_append, List.nodup_cons,
    List.mem_append, not_or] at hnodup
  exact hnodup.1.1

theorem not_mem_fresh (h : Kept s) (hsender : s.sender.holder? = some holder) :
    holder ∉ s.fresh := by
  have hnodup := h.nodup
  rw [hsender] at hnodup
  have hholders : holder ∉ s.holders :=
    fun hmem => (List.nodup_append.mp hnodup).2.2 holder hmem holder (by simp) rfl
  intro hmem
  apply hholders
  rcases List.mem_append.mp hmem with hthread | hqueued
  · cases hs : s.thread with
    | taken other =>
        rw [hs] at hthread
        exact List.mem_append_left _ (by rw [hs]; exact hthread)
    | _ => simp [hs, InputThread.fresh?] at hthread
  · exact List.mem_append_right _ hqueued

theorem nodup_fresh (h : Kept s) : s.fresh.Nodup := by
  have hnodup : s.holders.Nodup := (List.nodup_append.mp h.nodup).1
  refine hnodup.sublist (List.Sublist.append_right ?_ _)
  cases s.thread with
  | taken => exact List.Sublist.refl _
  | _ => exact List.nil_sublist _

/-- A holder that nobody has looked at is not one that the input thread has looked at. -/
theorem ne_of_fresh (h : Kept s) (hfresh : holder ∈ s.fresh) (hthread : s.thread.fresh? = none)
    (hother : s.thread.holder? = some other) : other ≠ holder := by
  rintro rfl
  rw [State.fresh, hthread] at hfresh
  exact h.not_mem_queued hother hfresh

variable [DecidableEq P]

theorem waiting_write (h : Kept s) (hthread : s.thread.holder? = some holder) {t : State P K}
    {packet : Packet K} (hqueue : t.packetQueue = s.packetQueue)
    (hmemory : t.memory = Function.update s.memory holder packet) : t.waiting = s.waiting := by
  refine State.waiting_congr (by rw [hqueue]) fun other hother => ?_
  have hne : other ≠ holder := by
    rintro rfl
    exact h.not_mem_queued hthread hother
  rw [hmemory, Function.update_of_ne hne]

end Kept

section Thread

variable [DecidableEq P] {s : State P K} {holder : P}

theorem dispatch_absolute {x y width height : Int16} (hkept : Kept s)
    (htaken : s.thread = .taken holder) (h : s.memory holder = .mouseMoveAbs x y width height) :
    (s.dispatch holder).items =
      .packet (.ofPosition s.absolute.x s.absolute.y s.absolute.width s.absolute.height) ::
        s.waiting ∧
      (s.dispatch holder).absolute = { s.absolute with dirty := false } := by
  simp only [State.dispatch, h]
  refine ⟨?_, trivial⟩
  rw [State.items_sending rfl]
  refine congrArg₂ List.cons (congrArg Item.packet (Function.update_self ..)) ?_
  exact hkept.waiting_write (by rw [htaken]; rfl) rfl rfl

theorem dispatch_same (htaken : s.thread = .taken holder)
    (h : (s.memory holder).carrier? ≠ some .absolute) :
    (s.dispatch holder).items = s.items ∧ (s.dispatch holder).absolute = s.absolute := by
  rw [State.items_taken htaken]
  cases hpacket : s.memory holder with
  | mouseMoveAbs => exact absurd (by rw [hpacket]; rfl) h
  | mouseMoveRel =>
      simp only [State.dispatch, hpacket]
      exact ⟨State.items_moving rfl, trivial⟩
  | _ =>
      simp only [State.dispatch, hpacket]
      rw [State.items_sending rfl, hpacket]
      exact ⟨rfl, trivial⟩

theorem split_finish (h : s.relative.deltaX = 0 ∧ s.relative.deltaY = 0) :
    s.split holder =
      { s with thread := .waiting, relative := { s.relative with dirty := false } } := if_pos h

/-- A round of the loop with something to send. -/
theorem split_items (hkept : Kept s) (hmoving : s.thread = .moving holder)
    (h : ¬(s.relative.deltaX = 0 ∧ s.relative.deltaY = 0)) :
    (s.split holder).items =
      .packet (.mouseMoveRel (splitDelta s.relative.deltaX).1 (splitDelta s.relative.deltaY).1) ::
        .carrier .relative :: s.waiting := by
  rw [State.split, if_neg h, State.items_sendingMove rfl]
  refine congrArg₂ List.cons (congrArg Item.packet (Function.update_self ..)) ?_
  exact congrArg _ (hkept.waiting_write (by rw [hmoving]; rfl) rfl rfl)

end Thread

/-! ## The flags -/

namespace Flagged

variable {s t : State P K} {holder : P} {packet : Packet K}

theorem of_same (h : Flagged s) (hrelative : t.relative.dirty = s.relative.dirty)
    (habsolute : t.absolute = s.absolute) (hgiven : position.read t.given = position.read s.given)
    (hitems : t.items = s.items) (hclaim : t.sender.claim = s.sender.claim) : Flagged t where
  relative := by rw [hrelative, hitems, hclaim]; exact h.relative
  absolute := by rw [habsolute, hitems, hclaim]; exact h.absolute
  latest := by rw [habsolute, hitems, hclaim, hgiven]; exact h.latest

/-- The sets of carriers are the same, also when one goes from the caller to the queue. -/
theorem of_carriers (h : Flagged s) (hrelative : t.relative.dirty = s.relative.dirty)
    (habsolute : t.absolute = s.absolute) (hgiven : position.read t.given = position.read s.given)
    (hcarriers : ∀ carrier, Item.carrier carrier ∈ t.items ∨ t.sender.claim = some carrier ↔
      Item.carrier carrier ∈ s.items ∨ s.sender.claim = some carrier) : Flagged t where
  relative := by rw [hrelative, hcarriers]; exact h.relative
  absolute := by rw [habsolute, hcarriers]; exact h.absolute
  latest := by rw [habsolute, hcarriers, hgiven]; exact h.latest

theorem mouseMove (h : Flagged s) (hidle : s.sender = .idle) (deltaX deltaY : Int16)
    (hitems : t.items = s.items) (habsolute : t.absolute = s.absolute)
    (hgiven : t.given = s.given ++ [.mouseMoveRel deltaX deltaY])
    (hsender : t.sender = if s.relative.dirty then .idle else .allocating (.mouseMoveRel 0 0)) :
    Flagged t := by
  have hnone : s.sender.claim = none := by rw [hidle]; rfl
  have hclaim : t.sender.claim ≠ some .absolute := by
    rw [hsender]
    split_ifs <;> exact nofun
  have habsolute' : Item.carrier .absolute ∈ t.items ∨ t.sender.claim = some .absolute ↔
      Item.carrier .absolute ∈ s.items ∨ s.sender.claim = some .absolute := by
    rw [hitems, or_iff_left hclaim, or_iff_left (by rw [hnone]; exact nofun)]
  refine ⟨fun _ => ?_, ?_, ?_⟩
  · rw [hitems, hsender]
    by_cases hdirty : s.relative.dirty = true
    · refine .inl ((h.relative hdirty).resolve_right ?_)
      rw [hnone]
      exact nofun
    · rw [if_neg hdirty]
      exact .inr rfl
  · rw [habsolute', habsolute]
    exact h.absolute
  · rw [habsolute', habsolute, hgiven, Receiver.read_snoc]
    exact h.latest

theorem mousePosition (h : Flagged s) (hidle : s.sender = .idle) (x y width height : Int16) :
    Flagged (s.mousePosition x y width height) := by
  have hnone : s.sender.claim = none := by rw [hidle]; rfl
  refine ⟨fun hdirty => ?_, fun _ => ?_, fun _ => ?_⟩
  · refine .inl ((h.relative hdirty).resolve_right ?_)
    rw [hnone]
    exact nofun
  · by_cases hdirty : s.absolute.dirty = true
    · refine .inl ((h.absolute hdirty).resolve_right ?_)
      rw [hnone]
      exact nofun
    · refine .inr ?_
      simp only [State.mousePosition, hdirty]
      rfl
  · simp only [State.mousePosition, Receiver.read_snoc]
    rfl

/-- A packet goes from the front of what waits, or comes to it. -/
theorem of_packets (h : Flagged s) (hrelative : t.relative.dirty = s.relative.dirty)
    (habsolute : t.absolute = s.absolute) (hgiven : position.read t.given = position.read s.given)
    (hclaim : t.sender.claim = s.sender.claim)
    (hcarriers : ∀ carrier, Item.carrier carrier ∈ t.items ↔ Item.carrier carrier ∈ s.items) :
    Flagged t :=
  h.of_carriers hrelative habsolute hgiven fun carrier => by rw [hcarriers, hclaim]

variable [DecidableEq P]

theorem dispatch (h : Flagged s) (hkept : Kept s) (htaken : s.thread = .taken holder) :
    Flagged (s.dispatch holder) := by
  have hsame : (s.dispatch holder).relative = s.relative ∧ (s.dispatch holder).given = s.given ∧
      (s.dispatch holder).sender = s.sender := by
    unfold State.dispatch
    cases s.memory holder <;> exact ⟨rfl, rfl, rfl⟩
  obtain ⟨hrelative, hgiven, hsender⟩ := hsame
  cases hpacket : s.memory holder with
  | mouseMoveAbs x y width height =>
      obtain ⟨hitems, habsolute⟩ := dispatch_absolute hkept htaken hpacket
      have hbefore : s.items = .carrier .absolute :: s.waiting := by
        rw [State.items_taken htaken, hpacket]
        rfl
      refine ⟨?_, ?_, ?_⟩
      · intro hdirty
        rw [hrelative] at hdirty
        rw [hitems, hsender]
        simpa [hbefore] using h.relative hdirty
      · intro hdirty
        rw [habsolute] at hdirty
        cases hdirty
      · intro hcarrier
        rw [hitems, hsender] at hcarrier
        rw [habsolute, hgiven]
        apply h.latest
        rw [hbefore]
        exact .inl List.mem_cons_self
  | mouseMoveRel =>
      obtain ⟨hitems, habsolute⟩ := dispatch_same htaken (by rw [hpacket]; exact nofun)
      exact h.of_same (by rw [hrelative]) habsolute (by rw [hgiven]) hitems (by rw [hsender])
  | _ =>
      obtain ⟨hitems, habsolute⟩ := dispatch_same htaken (by rw [hpacket]; exact nofun)
      exact h.of_same (by rw [hrelative]) habsolute (by rw [hgiven]) hitems (by rw [hsender])

theorem split (h : Flagged s) (hkept : Kept s) (hmoving : s.thread = .moving holder) :
    Flagged (s.split holder) := by
  have hbefore := State.items_moving hmoving
  by_cases hzero : s.relative.deltaX = 0 ∧ s.relative.deltaY = 0
  · rw [split_finish hzero]
    have hafter : ({ s with
        thread := .waiting, relative := { s.relative with dirty := false } } : State P K).items =
          s.waiting := State.items_waiting rfl
    refine ⟨nofun, ?_, ?_⟩
    · rw [hafter]
      intro hdirty
      simpa [hbefore] using h.absolute hdirty
    · rw [hafter]
      intro hcarrier
      apply h.latest
      simpa [hbefore] using hcarrier
  · have hitems := split_items hkept hmoving hzero
    have hsplit : (s.split holder).relative.dirty = s.relative.dirty ∧
        (s.split holder).absolute = s.absolute ∧ (s.split holder).given = s.given ∧
          (s.split holder).sender = s.sender := by
      rw [State.split, if_neg hzero]
      exact ⟨rfl, rfl, rfl, rfl⟩
    obtain ⟨hrelative, habsolute, hgiven, hsender⟩ := hsplit
    refine h.of_packets hrelative habsolute (by rw [hgiven]) (by rw [hsender]) fun carrier => ?_
    rw [hitems, hbefore]
    simp

end Flagged

/-! ## The current packets -/

namespace Slotted

variable {s t : State P K} {holder : P} {packet : Packet K}

theorem start (memory : P → Packet K) : Slotted (start memory) where
  current := nofun
  offered := nofun

theorem current_of_idle (h : Slotted s) (hidle : s.sender = .idle) {number : Fin 16}
    (hcurrent : s.currentQueuedControllerPacket number = some holder) :
    ∃ a b, s.fresh = a ++ holder :: b ∧ (s.memory holder).slot = some number ∧
      ∀ other ∈ b, (s.memory other).slot ≠ some number := by
  rcases h.current number holder hcurrent with ⟨packet, hoffering, -⟩ | hwaits
  · cases hidle.symm.trans hoffering
  · exact hwaits

theorem of_none (hcurrent : ∀ number, t.currentQueuedControllerPacket number = none)
    (hsender : t.sender = .idle) : Slotted t where
  current := by
    intro number holder hholder
    cases (hcurrent number).symm.trans hholder
  offered := by
    rw [hsender]
    exact nofun

theorem current_none (h : Slotted s) (hidle : s.sender = .idle) (hfresh : s.fresh = [])
    (number : Fin 16) : s.currentQueuedControllerPacket number = none := by
  cases hcurrent : s.currentQueuedControllerPacket number with
  | none => rfl
  | some holder =>
      obtain ⟨a, b, hsplit, -⟩ := h.current_of_idle hidle hcurrent
      simp [hsplit] at hfresh

/-- Nothing changes that a slot speaks of. -/
theorem of_same (h : Slotted s) (hfresh : t.fresh = s.fresh)
    (hmemory : ∀ holder ∈ s.fresh, (t.memory holder).slot = (s.memory holder).slot)
    (hcurrent : t.currentQueuedControllerPacket = s.currentQueuedControllerPacket)
    (hsender : ∀ packet holder, t.sender = .offering packet holder ↔
      s.sender = .offering packet holder) : Slotted t where
  current := by
    rw [hcurrent]
    intro number holder hholder
    rcases h.current number holder hholder with
      ⟨packet, hoffering, hslot⟩ | ⟨a, b, hsplit, hslot, hb⟩
    · exact .inl ⟨packet, (hsender packet holder).mpr hoffering, hslot⟩
    · refine .inr ⟨a, b, by rw [hfresh, hsplit], ?_, ?_⟩
      · rw [hmemory holder (by simp [hsplit])]
        exact hslot
      · intro other hother
        rw [hmemory other (by simp [hsplit, hother])]
        exact hb other hother
  offered := by
    rw [hcurrent]
    exact fun packet holder number hoffering =>
      h.offered packet holder number ((hsender packet holder).mp hoffering)

/-- A caller that is not about to offer a controller packet does something else. -/
theorem of_caller (h : Slotted s) (hfresh : t.fresh = s.fresh) (hmemory : t.memory = s.memory)
    (hcurrent : t.currentQueuedControllerPacket = s.currentQueuedControllerPacket)
    (hbefore : ∀ packet holder, s.sender = .offering packet holder → packet.slot = none)
    (hafter : t.sender.offered? = none) : Slotted t where
  current := by
    rw [hcurrent, hfresh, hmemory]
    intro number holder hholder
    rcases h.current number holder hholder with ⟨packet, hsender, hslot⟩ | hwaits
    · rw [hbefore packet holder hsender] at hslot
      cases hslot
    · exact .inr hwaits
  offered := by
    intro packet holder number hoffering
    rw [hoffering] at hafter
    cases hafter

/-- The input thread has looked at its packet. -/
theorem of_thread (h : Slotted s) (hfresh : s.fresh = holder :: t.fresh)
    (hmemory : ∀ other ∈ t.fresh, t.memory other = s.memory other) (hsender : t.sender = s.sender)
    (hcurrent : ∀ number other, t.currentQueuedControllerPacket number = some other →
      s.currentQueuedControllerPacket number = some other ∧
        ((s.memory holder).slot = some number → other ≠ holder))
    (hkeep : ∀ number other, other ≠ holder → s.currentQueuedControllerPacket number = some other →
      t.currentQueuedControllerPacket number = some other)
    (hother : ∀ packet other, s.sender = .offering packet other → other ≠ holder) :
    Slotted t where
  current := by
    intro number other hcurrent'
    obtain ⟨hbefore, hne⟩ := hcurrent number other hcurrent'
    rw [hsender]
    rcases h.current number other hbefore with hoffering | ⟨a, b, hsplit, hslot, hb⟩
    · exact .inl hoffering
    · cases a with
      | nil =>
          obtain ⟨rfl, -⟩ := List.cons.inj (hfresh.symm.trans hsplit)
          exact absurd rfl (hne hslot)
      | cons first a =>
          obtain ⟨rfl, hrest⟩ := List.cons.inj (hfresh.symm.trans hsplit)
          refine .inr ⟨a, b, hrest, ?_, ?_⟩
          · rw [hmemory other (by simp [hrest])]
            exact hslot
          · intro third hthird
            rw [hmemory third (by simp [hrest, hthird])]
            exact hb third hthird
  offered := by
    rw [hsender]
    intro packet other number hoffering hslot
    exact hkeep number other (hother packet other hoffering)
      (h.offered packet other number hoffering hslot)

theorem offer (h : Slotted s) (hkept : Kept s) (hsender : s.sender = .offering packet holder)
    (hfresh : t.fresh = s.fresh ++ [holder]) (hmemory : t.memory = s.memory)
    (hcurrent : t.currentQueuedControllerPacket = s.currentQueuedControllerPacket)
    (hafter : t.sender.offered? = none) : Slotted t where
  current := by
    have hpacket := hkept.offering packet holder hsender
    rw [hcurrent, hmemory, hfresh]
    intro number other hother
    refine .inr ?_
    rcases h.current number other hother with
      ⟨packet', hoffering, hslot⟩ | ⟨a, b, hsplit, hslot, hb⟩
    · rw [hsender] at hoffering
      cases hoffering
      refine ⟨s.fresh, [], rfl, ?_, fun _ hmem => absurd hmem List.not_mem_nil⟩
      rw [hpacket]
      exact hslot
    · refine ⟨a, b ++ [holder], by rw [hsplit, List.append_assoc, List.cons_append], hslot, ?_⟩
      intro third hthird
      rcases List.mem_append.mp hthird with hold | hnew
      · exact hb third hold
      · rw [List.mem_singleton.mp hnew, hpacket]
        -- The holder on the queue would be the current one of the same controller.
        intro hsame
        have hcurrent' := h.offered packet holder number hsender hsame
        rw [hother] at hcurrent'
        cases hcurrent'
        exact hkept.not_mem_fresh (by rw [hsender]; rfl) (by simp [hsplit])
  offered := by
    intro packet holder number hoffering
    rw [hoffering] at hafter
    cases hafter

variable [DecidableEq P]

theorem fill (h : Slotted s) (hkept : Kept s) (hsender : s.sender = .filling packet holder) :
    Slotted (s.fill packet holder) := by
  have hheld : s.sender.holder? = some holder := by rw [hsender]; rfl
  have hnot := hkept.not_mem_fresh hheld
  have hwaits (number : Fin 16) (other : P)
      (hother : s.currentQueuedControllerPacket number = some other) :
      ∃ a b, s.fresh = a ++ other :: b ∧
        (Function.update s.memory holder packet other).slot = some number ∧
          ∀ third ∈ b, (Function.update s.memory holder packet third).slot ≠ some number := by
    rcases h.current number other hother with ⟨_, hoffering, -⟩ | ⟨a, b, hsplit, hslot, hb⟩
    · cases hsender.symm.trans hoffering
    · have hne (third : P) (hthird : third ∈ s.fresh) : third ≠ holder := by
        rintro rfl
        exact hnot hthird
      refine ⟨a, b, hsplit, ?_, fun third hthird => ?_⟩
      · rw [Function.update_of_ne (hne other (by simp [hsplit]))]
        exact hslot
      · rw [Function.update_of_ne (hne third (by simp [hsplit, hthird]))]
        exact hb third hthird
  cases packet with
  | multiController fields =>
      refine ⟨fun number other hother => ?_, fun packet' other number hoffering hslot => ?_⟩
      · rcases eq_or_ne number fields.controllerNumber with rfl | hne
        · simp only [State.fill, Function.update_self] at hother
          cases hother
          exact .inl ⟨_, rfl, rfl⟩
        · simp only [State.fill, Function.update_of_ne hne] at hother
          exact .inr (hwaits number other hother)
      · cases hoffering
        cases hslot
        exact Function.update_self ..
  | _ =>
      refine ⟨fun number other hother => .inr (hwaits number other hother), ?_⟩
      intro packet' other number hoffering hslot
      cases hoffering
      cases hslot

theorem dispatch (h : Slotted s) (hkept : Kept s) (htaken : s.thread = .taken holder) :
    Slotted (s.dispatch holder) := by
  have hholder : s.thread.holder? = some holder := by rw [htaken]; rfl
  have hfresh : s.fresh = holder :: s.queued := by
    rw [State.fresh, htaken]
    rfl
  have hother (packet : Packet K) (other : P) (hoffering : s.sender = .offering packet other) :
      other ≠ holder := hkept.ne_of_thread hholder (by rw [hoffering]; rfl)
  unfold State.dispatch
  cases hpacket : s.memory holder with
  | multiController fields =>
      refine h.of_thread hfresh (fun _ _ => rfl) rfl ?_ ?_ hother
      · intro number other hcurrent
        dsimp only at hcurrent
        split_ifs at hcurrent with hlatch
        · rcases eq_or_ne number fields.controllerNumber with rfl | hne
          · rw [Function.update_self] at hcurrent
            cases hcurrent
          · rw [Function.update_of_ne hne] at hcurrent
            refine ⟨hcurrent, fun hslot => absurd ?_ hne⟩
            rw [hpacket] at hslot
            exact (Option.some.inj hslot).symm
        · refine ⟨hcurrent, ?_⟩
          rintro hslot rfl
          rw [hpacket] at hslot
          cases hslot
          exact hlatch hcurrent
      · intro number other hne hcurrent
        dsimp only
        split_ifs with hlatch
        · have hnumber : number ≠ fields.controllerNumber := by
            rintro rfl
            exact hne (Option.some.inj (hcurrent.symm.trans hlatch))
          rwa [Function.update_of_ne hnumber]
        · exact hcurrent
  | mouseMoveAbs x y width height =>
      refine h.of_thread hfresh (fun other hmem => Function.update_of_ne ?_ ..) rfl
        (fun number other hcurrent => ⟨hcurrent, ?_⟩) (fun _ _ _ hcurrent => hcurrent) hother
      · rintro rfl
        exact hkept.not_mem_queued hholder hmem
      · rw [hpacket]
        exact nofun
  | _ =>
      refine h.of_thread hfresh (fun _ _ => rfl) rfl
        (fun number other hcurrent => ⟨hcurrent, ?_⟩) (fun _ _ _ hcurrent => hcurrent) hother
      rw [hpacket]
      exact nofun

theorem split (h : Slotted s) (hkept : Kept s) (hmoving : s.thread = .moving holder) :
    Slotted (s.split holder) := by
  have hfresh : s.fresh = s.queued := by
    rw [State.fresh, hmoving]
    rfl
  unfold State.split
  split_ifs
  · exact h.of_same hfresh.symm (fun _ _ => rfl) rfl fun _ _ => Iff.rfl
  · refine h.of_same hfresh.symm (fun other hmem => congrArg Packet.slot ?_) rfl fun _ _ => Iff.rfl
    apply Function.update_of_ne
    rintro rfl
    rw [hfresh] at hmem
    exact hkept.not_mem_queued (by rw [hmoving]; rfl) hmem

end Slotted

/-! ## The drain -/

section Drain

variable {s t : State P K} {label : Label P K}

/-- Once the drain is signalled nobody calls, the thread has ended only after it, and the queue
is empty when it has and when there is no thread. -/
structure Quiet (s : State P K) : Prop where
  flags : s.packetQueue.shutdown = false ∧ s.packetQueue.pendingUserWake = false
  drain : s.packetQueue.draining = true → s.initialized = false ∧ s.sender = .idle
  closed : s.initialized = false → s.packetQueue.draining = true
  ended : s.thread = .ended ∨ s.thread = .absent →
    s.packetQueue.draining = true ∧ s.packetQueue.elements = []

namespace Quiet

theorem start (memory : P → Packet K) : Quiet (start memory) where
  flags := ⟨rfl, rfl⟩
  drain := nofun
  closed := nofun
  ended := by simp [InputStream.start]

theorem not_draining (h : Quiet s) (hcaller : s.initialized = true ∨ s.sender ≠ .idle) :
    s.packetQueue.draining = false := by
  cases hdraining : s.packetQueue.draining with
  | false => rfl
  | true =>
      obtain ⟨hclosed, hidle⟩ := h.drain hdraining
      rcases hcaller with hopen | hbusy
      · rw [hclosed] at hopen
        cases hopen
      · exact absurd hidle hbusy

/-- A caller goes on, and does not touch the flags of the queue. -/
theorem of_caller (h : Quiet s) (hcaller : s.initialized = true ∨ s.sender ≠ .idle)
    (hshutdown : t.packetQueue.shutdown = s.packetQueue.shutdown)
    (hwake : t.packetQueue.pendingUserWake = s.packetQueue.pendingUserWake)
    (hdrain : t.packetQueue.draining = s.packetQueue.draining) (hthread : t.thread = s.thread)
    (hinitialized : t.initialized = s.initialized) : Quiet t := by
  have hnot := h.not_draining hcaller
  refine ⟨by rw [hshutdown, hwake]; exact h.flags, fun hdraining => ?_, ?_, fun hended => ?_⟩
  · rw [hdrain, hnot] at hdraining
    cases hdraining
  · rw [hinitialized, hdrain]
    exact h.closed
  · rw [hthread] at hended
    have hdraining := (h.ended hended).1
    rw [hnot] at hdraining
    cases hdraining

/-- The input thread goes on. -/
theorem of_thread (h : Quiet s) (hflags : t.packetQueue.shutdown = s.packetQueue.shutdown ∧
      t.packetQueue.pendingUserWake = s.packetQueue.pendingUserWake ∧
        t.packetQueue.draining = s.packetQueue.draining)
    (hinitialized : t.initialized = s.initialized) (hsender : t.sender = s.sender)
    (hended : ¬(t.thread = .ended ∨ t.thread = .absent)) : Quiet t := by
  obtain ⟨hshutdown, hwake, hdrain⟩ := hflags
  refine ⟨by rw [hshutdown, hwake]; exact h.flags, ?_, ?_, fun h => absurd h hended⟩
  · rw [hdrain, hinitialized, hsender]
    exact h.drain
  · rw [hdrain, hinitialized]
    exact h.closed

theorem drained (h : Quiet s) (hready : s.packetQueue.ready = true)
    (hdone : s.packetQueue.elements = [] ∨ s.packetQueue.shutdown = true ∨
      s.packetQueue.pendingUserWake = true) :
    s.packetQueue.draining = true ∧ s.packetQueue.elements = [] := by
  obtain ⟨hshutdown, hwake⟩ := h.flags
  have hempty : s.packetQueue.elements = [] := by
    rw [hshutdown, hwake] at hdone
    simpa using hdone
  refine ⟨?_, hempty⟩
  simpa [Contents.ready, hempty, hshutdown, hwake] using hready

end Quiet

variable [DecidableEq P]

theorem Move.quiet (hmove : Move s label t) (h : Quiet s) : Quiet t := by
  have hbusy {sender : Sender P K} (hs : s.sender = sender) (hne : sender ≠ .idle) :
      s.initialized = true ∨ s.sender ≠ .idle := .inr (by rw [hs]; exact hne)
  cases hmove with
  | pass => exact h
  | mouseMove deltaX deltaY hidle hopen => exact h.of_caller (.inl hopen) rfl rfl rfl rfl rfl
  | mousePosition x y width height hidle hopen => exact h.of_caller (.inl hopen) rfl rfl rfl rfl rfl
  | merge event hidle old new holder hcurrent hold hbuttons hopen =>
      exact h.of_caller (.inl hopen) rfl rfl rfl rfl rfl
  | begin event hidle packet hpacket hopen => exact h.of_caller (.inl hopen) rfl rfl rfl rfl rfl
  | scroll event hidle delta scrolling sender hsender hopen =>
      exact h.of_caller (.inl hopen) rfl rfl rfl rfl rfl
  | allocate packet holder hsender hholder =>
      exact h.of_caller (hbusy hsender nofun) rfl rfl rfl rfl rfl
  | allocateFails packet hsender =>
      cases packet with
      | _ => exact h.of_caller (hbusy hsender nofun) rfl rfl rfl rfl rfl
  | fill packet holder hsender =>
      cases packet with
      | _ => exact h.of_caller (hbusy hsender nofun) rfl rfl rfl rfl rfl
  | offer packet holder hsender =>
      cases packet with
      | _ => exact h.of_caller (hbusy hsender nofun) rfl rfl rfl rfl rfl
  | offerScroll payload holder hsender =>
      exact h.of_caller (hbusy hsender nofun) rfl rfl rfl rfl rfl
  | offerFails packet holder hsender hfull =>
      cases packet with
      | _ => exact h.of_caller (hbusy hsender nofun) rfl rfl rfl rfl rfl
  | stop hidle =>
      exact ⟨h.flags, fun _ => ⟨rfl, rfl⟩, fun _ => rfl, fun hended => ⟨rfl, (h.ended hended).2⟩⟩
  | destroy hidle hclosed => exact ⟨h.flags, h.drain, h.closed, fun _ => ⟨h.closed hclosed, rfl⟩⟩
  | restart => exact ⟨⟨rfl, rfl⟩, nofun, nofun, by simp [State.restart]⟩
  | take hwaiting entry holder rest helements => exact h.of_thread ⟨rfl, rfl, rfl⟩ rfl rfl (by simp)
  | finish hwaiting wake hwake hready hdone =>
      have hnot : wake = false := by
        cases wake with
        | false => rfl
        | true => cases (hwake rfl).symm.trans h.flags.2
      exact ⟨⟨h.flags.1, hnot⟩, h.drain, h.closed, fun _ => h.drained hready hdone⟩
  | dispatch holder htaken =>
      unfold State.dispatch
      cases s.memory holder with
      | _ => exact h.of_thread ⟨rfl, rfl, rfl⟩ rfl rfl (by simp)
  | split holder hmoving =>
      unfold State.split
      split_ifs
      · exact h.of_thread ⟨rfl, rfl, rfl⟩ rfl rfl (by simp)
      · exact h.of_thread ⟨rfl, rfl, rfl⟩ rfl rfl (by simp)
  | sendMove holder more ok hthread =>
      cases ok with
      | _ => exact h.of_thread ⟨rfl, rfl, rfl⟩ rfl rfl (by simp [State.send])
  | send holder more ok hthread =>
      cases ok with
      | _ => exact h.of_thread ⟨rfl, rfl, rfl⟩ rfl rfl (by simp [State.send])

end Drain

end MoonlightScarlet.Core.InputStream
