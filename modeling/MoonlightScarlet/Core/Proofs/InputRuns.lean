import MoonlightScarlet.Core.Proofs.InputWaiting
/-!
# The threads move as the pipeline does

As long as no call fails that adds to a batch, every step of the threads is a step of the
pipeline, or one that the pipeline does not show.
-/

namespace MoonlightScarlet.Core.InputStream

open LinkedBlockingQueue (Contents)
open Support.Runs Support.Batching

variable {P K : Type}

/-- Nothing more is sent, because a send has failed or the connection is destroyed. -/
def InputThread.lost : InputThread P → Bool
  | .failed | .absent => true
  | _ => false

/-- The packet of the call keeps its place. -/
def Sender.ordered : Sender P K → Bool
  | .allocating packet | .filling packet _ | .offering packet _ => packet.ordered
  | .idle => true

/-- The queue takes the holder of the caller. -/
def State.hasRoom (s : State P K) : Bool :=
  match s.sender with
  | .offering _ holder => (offerHolder s.packetQueue holder).2
  | _ => true

/-- No packet of a controller is the current one. -/
def State.NoneCurrent (s : State P K) : Prop :=
  ∀ number, s.currentQueuedControllerPacket number = none

instance (s : State P K) : Decidable s.NoneCurrent := inferInstanceAs (Decidable (∀ _, _))

/-- A call that adds to a batch finds a holder and room on the queue, and no packet of a
controller is the current one when a connection is destroyed. -/
def Unfailing (s : State P K) : Label P K → Prop
  | .allocate none => s.sender.ordered = true
  | .offer => s.sender.ordered = true ∨ s.hasRoom = true
  | .destroy => s.NoneCurrent
  | _ => True

/-- The controller whose packet the caller has. -/
def Sender.slot : Sender P K → Option (Fin 16)
  | .allocating packet | .filling packet _ | .offering packet _ => packet.slot
  | .idle => none

/-- The queue takes the packet of a controller, and no packet of a controller is the current one
when a connection is destroyed. -/
def ControllersFit (s : State P K) : Label P K → Prop
  | .offer => s.sender.slot = none ∨ s.hasRoom = true
  | .destroy => s.NoneCurrent
  | _ => True

instance Unfailing.decidable (s : State P K) : ∀ label, Decidable (Unfailing s label)
  | .allocate none => inferInstanceAs (Decidable (_ = true))
  | .offer => inferInstanceAs (Decidable (_ ∨ _))
  | .destroy => inferInstanceAs (Decidable s.NoneCurrent)
  | .allocate (some _) | .call _ | .fill | .stop | .restart | .wait | .dispatch | .split
  | .send _ => .isTrue trivial

section Moves

variable [DecidableEq P] {s t : State P K} {label : Label P K}

omit [DecidableEq P] in
theorem Unfailing.ordered (hlabel : Unfailing s .offer) {packet : Packet K} {holder : P}
    (hsender : s.sender = .offering packet holder)
    (hfull : (offerHolder s.packetQueue holder).2 = false) : packet.ordered = true := by
  have hordered : s.sender.ordered = true := by
    refine Or.resolve_right hlabel ?_
    simp only [State.hasRoom, hsender, hfull]
    exact Bool.false_ne_true
  rwa [hsender] at hordered

omit [DecidableEq P] in
theorem Unfailing.ordered_of_allocating (hlabel : Unfailing s (.allocate none))
    {packet : Packet K} (hsender : s.sender = .allocating packet) : packet.ordered = true := by
  have hordered : s.sender.ordered = true := hlabel
  rwa [hsender] at hordered

omit [DecidableEq P] in
theorem Unfailing.controllersFit (hlabel : Unfailing s label) : ControllersFit s label := by
  cases label with
  | offer =>
      refine Or.imp_left (fun hordered => ?_) hlabel
      cases hsender : s.sender with
      | idle => rfl
      | allocating packet | filling packet holder | offering packet holder =>
          rw [hsender] at hordered
          cases packet with
          | other payload => rfl
          | _ => cases hordered
  | destroy => exact hlabel
  | _ => trivial

theorem Move.slotted (hmove : Move s label t) (hkept : Kept s) (hquiet : Quiet s)
    (hlabel : ControllersFit s label) (h : Slotted s) : Slotted t := by
  have hidle (hs : s.sender = .idle) (packet : Packet K) (holder : P)
      (hoffering : s.sender = .offering packet holder) : packet.slot = none := by
    cases hs.symm.trans hoffering
  have hallocating {packet : Packet K} (hs : s.sender = .allocating packet) (packet' : Packet K)
      (holder : P) (hoffering : s.sender = .offering packet' holder) : packet'.slot = none := by
    cases hs.symm.trans hoffering
  cases hmove with
  | pass => exact h
  | mouseMove deltaX deltaY hs =>
      refine h.of_caller rfl rfl rfl (hidle hs) ?_
      dsimp only
      split_ifs <;> rfl
  | mousePosition x y width height hs =>
      refine h.of_caller rfl rfl rfl (hidle hs) ?_
      dsimp only [State.mousePosition]
      split_ifs <;> rfl
  | merge event hs old new holder hcurrent hold hbuttons =>
      obtain ⟨a, b, hsplit, hslot, -⟩ := h.current_of_idle hs hcurrent
      refine h.of_same rfl (fun other _ => ?_) rfl fun _ _ => Iff.rfl
      change (Function.update s.memory holder (.multiController new) other).slot = _
      rcases eq_or_ne other holder with rfl | hne
      · rw [Function.update_self, hslot]
        rfl
      · rw [Function.update_of_ne hne]
  | begin event hs packet hpacket => exact h.of_caller rfl rfl rfl (hidle hs) rfl
  | scroll event hs delta scrolling sender hsender =>
      exact h.of_caller rfl rfl rfl (hidle hs) hsender.offered?_eq
  | allocate packet holder hs hholder =>
      exact h.of_caller rfl rfl rfl (hallocating hs) rfl
  | allocateFails packet hs =>
      cases packet with
      | _ => exact h.of_caller rfl rfl rfl (hallocating hs) rfl
  | fill packet holder hs => exact h.fill hkept hs
  | offer packet holder hs =>
      have hfresh : s.thread.fresh?.toList ++ (s.packetQueue.elements ++ [(holder, holder)]).map
          Prod.snd = s.fresh ++ [holder] := by
        simp [State.fresh, State.queued]
      cases packet with
      | _ => exact h.offer hkept hs hfresh rfl rfl rfl
  | offerScroll payload holder hs delta scrolling sender hnext =>
      refine h.offer hkept hs ?_ rfl rfl hnext.offered?_eq
      simp [State.fresh, State.queued, State.scrolled, State.offered]
  | offerFails packet holder hs hfull =>
      have hslot : s.sender.slot = none := by
        refine Or.resolve_right hlabel ?_
        simp only [State.hasRoom, hs, hfull]
        exact Bool.false_ne_true
      have hbefore (packet' : Packet K) (holder' : P)
          (hoffering : s.sender = .offering packet' holder') : packet'.slot = none := by
        rwa [hoffering] at hslot
      cases packet with
      | _ => exact h.of_caller rfl rfl rfl hbefore rfl
  | stop hs => exact h.of_caller rfl rfl rfl (hidle hs) rfl
  | destroy hs => exact .of_none hlabel hs
  | restart hs habsent =>
      refine .of_none (h.current_none hs ?_) hs
      rw [State.fresh, State.queued, habsent, (hquiet.ended (.inr habsent)).2]
      rfl
  | take hwaiting entry holder rest helements =>
      refine h.of_same ?_ (fun _ _ => rfl) rfl fun _ _ => Iff.rfl
      rw [State.fresh, State.queued, State.fresh, State.queued, hwaiting, helements]
      rfl
  | finish hwaiting wake hwake hready hdone =>
      refine h.of_same ?_ (fun _ _ => rfl) rfl fun _ _ => Iff.rfl
      rw [State.fresh, State.fresh, hwaiting]
      rfl
  | dispatch holder htaken => exact h.dispatch hkept htaken
  | split holder hmoving => exact h.split hkept hmoving
  | sendMove holder more ok hthread =>
      refine h.of_same ?_ (fun _ _ => rfl) rfl fun _ _ => Iff.rfl
      rw [State.fresh, State.fresh, hthread]
      cases ok <;> rfl
  | send holder more ok hthread =>
      refine h.of_same ?_ (fun _ _ => rfl) rfl fun _ _ => Iff.rfl
      rw [State.fresh, State.fresh, hthread]
      cases ok <;> rfl

/-! ## Steps of the pipeline -/

theorem Kept.items_of_fresh (h : Kept s) {holder : P} (hfresh : holder ∈ s.fresh)
    (packet : Packet K) :
    s.thread.items (Function.update s.memory holder packet) = s.thread.items s.memory := by
  cases hthread : s.thread with
  | sendingMove other more =>
      have hholder : s.thread.holder? = some other := by rw [hthread]; rfl
      have hne := h.ne_of_fresh hfresh (by rw [hthread]; rfl) hholder
      rw [InputThread.items, Function.update_of_ne hne, InputThread.items]
  | sending other =>
      have hholder : s.thread.holder? = some other := by rw [hthread]; rfl
      have hne := h.ne_of_fresh hfresh (by rw [hthread]; rfl) hholder
      rw [InputThread.items, Function.update_of_ne hne, InputThread.items]
  | _ => rfl

theorem Kept.fill_items (h : Kept s) {packet : Packet K} {holder : P}
    (hsender : s.sender = .filling packet holder) : (s.fill packet holder).items = s.items := by
  have hheld : s.sender.holder? = some holder := by rw [hsender]; rfl
  have hthread : s.thread.items (Function.update s.memory holder packet) =
      s.thread.items s.memory :=
    InputThread.items_congr fun other hother =>
      Function.update_of_ne (h.ne_of_thread hother hheld).symm ..
  have hfresh : (s.fresh.map fun other => (Function.update s.memory holder packet other).item) =
      s.fresh.map fun other => (s.memory other).item := by
    refine List.map_congr_left fun other hmem => ?_
    have hne : other ≠ holder := by
      rintro rfl
      exact h.not_mem_fresh hheld hmem
    rw [Function.update_of_ne hne]
  cases packet with
  | _ => exact congrArg₂ (· ++ ·) hthread hfresh

/-- The packet that is merged stands among what waits, the last one of its controller. -/
theorem Slotted.merge_items (h : Slotted s) (hkept : Kept s) (hidle : s.sender = .idle)
    {old new : MultiController} {holder : P}
    (hcurrent : s.currentQueuedControllerPacket new.controllerNumber = some holder)
    (hold : s.memory holder = .multiController old) {t : State P K}
    (ht : t.memory = Function.update s.memory holder (.multiController new))
    (hqueue : t.packetQueue = s.packetQueue) (hthread : t.thread = s.thread) :
    old.controllerNumber = new.controllerNumber ∧
    ∃ a b, s.items = a ++ .packet (.multiController old) :: b ∧
      t.items = a ++ .packet (.multiController new) :: b ∧
      ∀ packet ∈ packets b, packet.slot ≠ some new.controllerNumber := by
  obtain ⟨a, b, hsplit, hslot, hb⟩ := h.current_of_idle hidle hcurrent
  have hnumber : old.controllerNumber = new.controllerNumber := by
    rw [hold] at hslot
    exact Option.some.inj hslot
  have hnodup : (a ++ holder :: b).Nodup := by
    rw [← hsplit]
    exact hkept.nodup_fresh
  have hne {other : P} (hother : other ∈ a ∨ other ∈ b) : other ≠ holder := by
    rintro rfl
    have hdisjoint := List.nodup_append.mp hnodup
    rcases hother with ha | hb
    · exact hdisjoint.2.2 other ha other List.mem_cons_self rfl
    · exact (List.nodup_cons.mp hdisjoint.2.1).1 hb
  have hmap {l : List P} (hl : ∀ other ∈ l, other ∈ a ∨ other ∈ b) :
      (l.map fun other => (t.memory other).item) = l.map fun other => (s.memory other).item :=
    List.map_congr_left fun other hother => by
      rw [ht, Function.update_of_ne (hne (hl other hother))]
  have hlooked : t.thread.items t.memory = s.thread.items s.memory := by
    rw [hthread, ht]
    exact hkept.items_of_fresh (by simp [hsplit]) _
  have hfresh : t.fresh = a ++ holder :: b := by
    rw [State.fresh, State.queued, hthread, hqueue, ← hsplit]
    rfl
  refine ⟨hnumber, s.thread.items s.memory ++ a.map fun other => (s.memory other).item,
    b.map fun other => (s.memory other).item, ?_, ?_, ?_⟩
  · rw [State.items, hsplit, List.map_append, List.map_cons, hold, List.append_assoc]
    rfl
  · rw [State.items, hlooked, hfresh, List.map_append, List.map_cons, hmap fun _ => .inl,
      hmap fun _ => .inr, ht, Function.update_self, List.append_assoc]
    rfl
  · intro packet hpacket
    obtain ⟨-, other, hother, rfl⟩ := mem_packets_items hpacket
    exact hb other hother

omit [DecidableEq P] in
/-- What stands on the queue after an offer. -/
theorem offered_items (hkept : Kept s) {packet : Packet K} {holder : P}
    (hsender : s.sender = .offering packet holder) :
    (({ s with
      packetQueue :=
        { s.packetQueue with
          elements := s.packetQueue.elements ++ [(holder, holder)] } }.offered packet)).items =
      s.items ++ [packet.item] := by
  have hpacket := hkept.offering packet holder hsender
  cases packet with
  | _ => simp [State.offered, State.items, State.fresh, State.queued, hpacket]

omit [DecidableEq P] in
theorem scrolled_items (s : State P K) (delta : Int32) (scrolling : Bool) (sender : Sender P K) :
    (s.scrolled delta scrolling sender).items = s.items := rfl

omit [DecidableEq P] in
theorem restart_view (hidle : s.sender = .idle) : s.restart.view = {} := by
  rw [State.view, State.restart, hidle]
  rfl

omit [DecidableEq P] in
theorem Flagged.restart (hidle : s.sender = .idle) : Flagged s.restart := by
  have hitems : s.restart.items = [] := congrArg Pipeline.items (restart_view hidle)
  have hclaim : s.restart.sender.claim = none := congrArg Pipeline.claim (restart_view hidle)
  refine ⟨nofun, nofun, fun hcarrier => ?_⟩
  rw [hitems, hclaim] at hcarrier
  simp at hcarrier

omit [DecidableEq P] in
/-- A failed call that the host would not miss leaves what waits as it was. -/
theorem abandon_ordered {packet : Packet K} (hordered : packet.ordered = true)
    (hclaim : s.sender.claim = packet.carrier?) :
    (s.abandon packet).view = s.view ∧ (s.abandon packet).relative = s.relative ∧
      (s.abandon packet).absolute = s.absolute := by
  cases packet with
  | other payload => exact ⟨State.view_eq rfl rfl rfl hclaim.symm, rfl, rfl⟩
  | _ => cases hordered

omit [DecidableEq P] in
theorem take_items (hwaiting : s.thread = .waiting) {entry holder : P} {rest : List (P × P)}
    (helements : s.packetQueue.elements = (entry, holder) :: rest) :
    ({ s with
      packetQueue := { s.packetQueue with elements := rest }
      thread := .taken holder } : State P K).items = s.items := by
  have hbefore : s.waiting = (s.memory holder).item ::
      (rest.map Prod.snd).map fun holder => (s.memory holder).item := by
    rw [State.waiting, State.queued, helements]
    rfl
  rw [State.items_waiting hwaiting, hbefore, State.items_taken rfl]
  rfl

omit [DecidableEq P] in
theorem finish_items (hwaiting : s.thread = .waiting) (wake : Bool) :
    ({ s with
      packetQueue := { s.packetQueue with pendingUserWake := wake }
      thread := .ended } : State P K).items = s.items := by
  rw [State.items_waiting hwaiting]
  rfl

theorem Move.flagged (hmove : Move s label t) (hkept : Kept s) (hslotted : Slotted s)
    (hlabel : Unfailing s label) (halive : t.thread.lost = false) (h : Flagged s) : Flagged t := by
  cases hmove with
  | pass => exact h
  | mouseMove deltaX deltaY hidle => exact h.mouseMove hidle deltaX deltaY rfl rfl rfl rfl
  | mousePosition x y width height hidle => exact h.mousePosition hidle x y width height
  | merge event hidle old new holder hcurrent hold hbuttons =>
      obtain ⟨-, a, b, hbefore, hafter, -⟩ :=
        hslotted.merge_items hkept hidle hcurrent hold
          (t := { s.write holder (.multiController new) with
            given := s.given ++ [.multiController new] }) rfl rfl rfl
      refine h.of_packets rfl rfl (Receiver.read_snoc ..) rfl fun carrier => ?_
      rw [hbefore, hafter]
      simp
  | begin event hidle packet hpacket =>
      exact h.of_same rfl rfl rfl rfl (by rw [hidle]; exact hpacket)
  | scroll event hidle delta scrolling sender hsender =>
      exact h.of_same rfl rfl rfl rfl (by rw [hidle]; exact hsender.claim_eq)
  | allocate packet holder hsender hholder => exact h.of_same rfl rfl rfl rfl (by rw [hsender]; rfl)
  | allocateFails packet hsender =>
      obtain ⟨hview, hrelative, habsolute⟩ :=
        abandon_ordered (hlabel.ordered_of_allocating hsender) (by rw [hsender]; rfl)
      exact h.of_same (by rw [hrelative]) habsolute (congrArg (position.read ·.given) hview)
        (congrArg Pipeline.items hview) (congrArg Pipeline.claim hview)
  | fill packet holder hsender =>
      have hitems := hkept.fill_items hsender
      cases packet with
      | _ => exact h.of_same rfl rfl rfl hitems (by rw [hsender]; rfl)
  | offer packet holder hsender =>
      have hitems := offered_items hkept hsender
      have hclaim : s.sender.claim = packet.carrier? := by rw [hsender]; rfl
      cases packet with
      | mouseMoveRel =>
          refine h.of_carriers rfl rfl rfl fun carrier => ?_
          rw [hitems, hclaim]
          cases carrier <;> simp [Packet.item, Packet.carrier?, State.offered, Sender.claim]
      | mouseMoveAbs =>
          refine h.of_carriers rfl rfl rfl fun carrier => ?_
          rw [hitems, hclaim]
          cases carrier <;> simp [Packet.item, Packet.carrier?, State.offered, Sender.claim]
      | _ =>
          refine h.of_packets rfl rfl (Receiver.read_snoc ..) hclaim.symm fun carrier => ?_
          rw [hitems]
          simp [Packet.item, Packet.carrier?]
  | offerScroll payload holder hsender delta scrolling sender hnext =>
      have hclaim : s.sender.claim = none := by rw [hsender]; rfl
      have hitems := offered_items hkept hsender
      refine h.of_packets rfl rfl (Receiver.read_snoc ..) (hnext.claim_eq.trans hclaim.symm)
        fun carrier => ?_
      rw [scrolled_items, hitems]
      simp [Packet.item, Packet.carrier?]
  | offerFails packet holder hsender hfull =>
      obtain ⟨hview, hrelative, habsolute⟩ :=
        abandon_ordered (hlabel.ordered hsender hfull) (by rw [hsender]; rfl)
      exact h.of_same (by rw [hrelative]) habsolute (congrArg (position.read ·.given) hview)
        (congrArg Pipeline.items hview) (congrArg Pipeline.claim hview)
  | stop hidle => exact h.of_same rfl rfl rfl rfl (by rw [hidle])
  | destroy => cases halive
  | restart hidle => exact .restart hidle
  | take hwaiting entry holder rest helements =>
      exact h.of_same rfl rfl rfl (take_items hwaiting helements) rfl
  | finish hwaiting wake hwake hready hdone =>
      exact h.of_same rfl rfl rfl (finish_items hwaiting wake) rfl
  | dispatch holder htaken => exact h.dispatch hkept htaken
  | split holder hmoving => exact h.split hkept hmoving
  | sendMove holder more ok hthread =>
      cases ok with
      | false => cases halive
      | true =>
          refine h.of_packets rfl rfl rfl rfl fun carrier => ?_
          rw [State.items_sendingMove hthread, State.items_moving rfl]
          simp only [List.mem_cons, reduceCtorEq, false_or]
          rfl
  | send holder more ok hthread =>
      cases ok with
      | false => cases halive
      | true =>
          refine h.of_packets rfl rfl rfl rfl fun carrier => ?_
          rw [State.items_sending hthread, State.items_waiting rfl]
          simp only [List.mem_cons, reduceCtorEq, false_or]
          rfl

omit [DecidableEq P] in
theorem view_mk {given sent : List (Packet K)} {items : List (Item (Packet K) Carrier)}
    {claim : Option Carrier} (hgiven : t.given = given) (hsent : t.sent.map Prod.fst = sent)
    (hitems : t.items = items) (hclaim : t.sender.claim = claim) :
    t.view = ⟨given, sent, items, claim⟩ := by
  rw [State.view, hgiven, hsent, hitems, hclaim]

omit [DecidableEq P] in
theorem step_of_view {v : Pipeline (Packet K) Carrier} (hstep : Step scheme s.view v)
    (hview : t.view = v) : Step scheme s.view t.view := hview ▸ hstep

omit [DecidableEq P] in
/-- A flag that is up stands for a carrier when nobody is about to offer one. -/
theorem carrier_of_flag {carrier : Carrier} {dirty : Bool} {packet : Packet K}
    (hpacket : packet.carrier? = some carrier) (hidle : s.sender = .idle)
    (h : dirty = true → Item.carrier carrier ∈ s.items ∨ s.sender.claim = some carrier) :
    Item.carrier carrier ∈ s.items ∨
      (if dirty then .idle else .allocating packet : Sender P K).claim = some carrier := by
  cases dirty with
  | true =>
      refine .inl ((h rfl).resolve_right ?_)
      rw [hidle]
      exact nofun
  | false => exact .inr hpacket

theorem merge_simulates (hkept : Kept s) (hslotted : Slotted s) (hidle : s.sender = .idle)
    {old new : MultiController} {holder : P}
    (hcurrent : s.currentQueuedControllerPacket new.controllerNumber = some holder)
    (hold : s.memory holder = .multiController old) (hbuttons : old.buttons = new.buttons) :
    Step scheme s.view
      ({ s.write holder (.multiController new) with
        given := s.given ++ [.multiController new] } : State P K).view := by
  obtain ⟨hnumber, a, b, hbefore, hafter, hb⟩ :=
    hslotted.merge_items hkept hidle hcurrent hold
      (t := { s.write holder (.multiController new) with
        given := s.given ++ [.multiController new] }) rfl rfl rfl
  refine step_of_view (.replace a b (.multiController old) (.multiController new) hbefore rfl rfl
    fun aspect => ?_) (view_mk rfl rfl hafter rfl)
  by_cases haspect : aspect = .controller new.controllerNumber
  · subst haspect
    refine .inr ⟨fun _ => id, fun packet hpacket => ?_, supersedes_controller hnumber rfl hbuttons⟩
    exact ignores_of_slot (hb packet hpacket)
  · have hold' : aspect ≠ .controller old.controllerNumber := by rwa [hnumber]
    exact .inl ⟨ignores_controller aspect hold', ignores_controller aspect haspect⟩

omit [DecidableEq P] in
theorem offer_simulates (hkept : Kept s) {packet : Packet K} {holder : P}
    (hsender : s.sender = .offering packet holder) :
    Step scheme s.view
      ({ s with
        packetQueue :=
          { s.packetQueue with
            elements := s.packetQueue.elements ++ [(holder, holder)] } }.offered packet).view := by
  have hitems := offered_items hkept hsender
  have hclaim : s.view.claim = packet.carrier? := by
    rw [State.view, hsender]
    rfl
  cases packet with
  | mouseMoveRel =>
      exact step_of_view (.enqueueCarrier Carrier.relative hclaim) (view_mk rfl rfl hitems rfl)
  | mouseMoveAbs =>
      exact step_of_view (.enqueueCarrier Carrier.absolute hclaim) (view_mk rfl rfl hitems rfl)
  | multiController fields =>
      exact step_of_view (.enqueue (Packet.multiController fields) hclaim)
        (view_mk rfl rfl hitems hclaim.symm)
  | other payload =>
      exact step_of_view (.enqueue (Packet.other payload) hclaim)
        (view_mk rfl rfl hitems hclaim.symm)

omit [DecidableEq P] in
theorem ignores_waiting {aspect : Aspect} {carrier : Carrier} (haspect : aspect.carries carrier)
    {packet : Packet K} (hpacket : packet ∈ packets s.waiting) :
    (aspect.receiver : Receiver (Packet K) _).Ignores packet :=
  ignores_of_no_carrier (mem_packets_items hpacket).1 haspect

theorem dispatch_simulates (hkept : Kept s) (hflagged : Flagged s) {holder : P}
    (htaken : s.thread = .taken holder) :
    (s.dispatch holder).view = s.view ∨ Step scheme s.view (s.dispatch holder).view := by
  have hsame : (s.dispatch holder).given = s.given ∧ (s.dispatch holder).sent = s.sent ∧
      (s.dispatch holder).sender = s.sender := by
    unfold State.dispatch
    cases s.memory holder <;> exact ⟨rfl, rfl, rfl⟩
  obtain ⟨hgiven, hsent, hsender⟩ := hsame
  cases hpacket : s.memory holder with
  | mouseMoveAbs x y width height =>
      have hbefore : s.items = .carrier .absolute :: s.waiting := by
        rw [State.items_taken htaken, hpacket]
        rfl
      have hlatest := hflagged.latest (.inl (by rw [hbefore]; exact List.mem_cons_self))
      refine .inr (step_of_view (.resolve Carrier.absolute s.waiting
        [Packet.ofPosition s.absolute.x s.absolute.y s.absolute.width s.absolute.height] hbefore
        (fun packet hmem => ?_)
        (fun aspect haspect => ⟨?_, fun packet => ignores_waiting haspect⟩)
        fun aspect haspect packet hmem => ?_)
        (view_mk hgiven (congrArg _ hsent) (dispatch_absolute hkept htaken hpacket).1
          (congrArg _ hsender)))
      · rw [List.mem_singleton.mp hmem]
        rfl
      · cases aspect with
        | position =>
            refine hlatest.trans ?_
            rw [Receiver.read_snoc]
            rfl
        | _ => exact haspect.elim
      · rw [List.mem_singleton.mp hmem]
        refine ignores_position aspect ?_ _ _ _ _
        rintro rfl
        exact haspect trivial
  | _ =>
      have hitems := (dispatch_same htaken (by rw [hpacket]; exact nofun)).1
      exact .inl (State.view_eq hgiven hsent hitems (by rw [hsender]))

theorem split_simulates (hkept : Kept s) (hconserved : Conserved s) {holder : P}
    (hmoving : s.thread = .moving holder) : Step scheme s.view (s.split holder).view := by
  have hbefore := State.items_moving hmoving
  by_cases hzero : s.relative.deltaX = 0 ∧ s.relative.deltaY = 0
  · have hunsent : s.unsent = 0 := by
      rw [State.unsent, hmoving, hzero.1, hzero.2]
      rfl
    rw [split_finish hzero]
    refine step_of_view (.resolve Carrier.relative s.waiting [] hbefore
      (fun _ hmem => absurd hmem List.not_mem_nil)
      (fun aspect haspect => ⟨?_, fun packet => ignores_waiting haspect⟩)
      fun _ _ _ hmem => absurd hmem List.not_mem_nil)
      (view_mk rfl rfl (State.items_waiting rfl) rfl)
    cases aspect with
    | motion =>
        rw [List.append_nil]
        exact Eq.trans hconserved (by rw [hunsent, add_zero]; rfl)
    | _ => exact haspect.elim
  · have hsplit : (s.split holder).given = s.given ∧ (s.split holder).sent = s.sent ∧
        (s.split holder).sender = s.sender := by
      rw [State.split, if_neg hzero]
      exact ⟨rfl, rfl, rfl⟩
    obtain ⟨hgiven, hsent, hsender⟩ := hsplit
    refine step_of_view (.extract Carrier.relative s.waiting (Packet.mouseMoveRel _ _) hbefore rfl
      fun aspect haspect => ?_)
      (view_mk hgiven (congrArg _ hsent) (split_items hkept hmoving hzero) (congrArg _ hsender))
    refine ignores_move aspect ?_ _ _
    rintro rfl
    exact haspect trivial

omit [DecidableEq P] in
/-- The packet at the front of what waits is sent. -/
theorem send_simulates {holder : P} {more : Bool} {next : InputThread P}
    {rest : List (Item (Packet K) Carrier)} (hitems : s.items = .packet (s.memory holder) :: rest)
    (hnext : (s.send holder more next true).items = rest) :
    Step scheme s.view (s.send holder more next true).view := by
  refine step_of_view (.send (s.memory holder) rest hitems) (view_mk rfl ?_ hnext rfl)
  simp only [State.send, List.map_append, List.map_cons, List.map_nil]
  rfl

/-- A step of the threads in a connection is a step of the pipeline, or changes nothing that it
shows. -/
theorem Move.simulates (hmove : Move s label t) (hkept : Kept s) (hconserved : Conserved s)
    (hslotted : Slotted s) (hflagged : Flagged s) (hlabel : Unfailing s label)
    (hsame : label ≠ .restart)
    (halive : t.thread.lost = false) : t.view = s.view ∨ Step scheme s.view t.view := by
  have hnone (hidle : s.sender = .idle) : s.view.claim = none := by
    rw [State.view, hidle]
    rfl
  cases hmove with
  | pass => exact .inl rfl
  | mouseMove deltaX deltaY hidle =>
      refine .inr (.gather (.mouseMoveRel deltaX deltaY) _ (hnone hidle) rfl fun aspect => ?_)
      by_cases haspect : aspect = .motion
      · subst haspect
        exact .inr ⟨.relative, trivial, carrier_of_flag rfl hidle hflagged.relative⟩
      · exact .inl (ignores_move aspect haspect deltaX deltaY)
  | mousePosition x y width height hidle =>
      refine .inr (.gather (.ofPosition x y width height) _ (hnone hidle) rfl fun aspect => ?_)
      by_cases haspect : aspect = .position
      · subst haspect
        exact .inr ⟨.absolute, trivial, carrier_of_flag rfl hidle hflagged.absolute⟩
      · exact .inl (ignores_position aspect haspect _ _ _ _)
  | merge event hidle old new holder hcurrent hold hbuttons =>
      exact .inr (merge_simulates hkept hslotted hidle hcurrent hold hbuttons)
  | begin event hidle packet hpacket =>
      exact .inl (State.view_eq rfl rfl rfl (by rw [hidle]; exact hpacket))
  | scroll event hidle delta scrolling sender hsender =>
      exact .inl (State.view_eq rfl rfl rfl (by rw [hidle]; exact hsender.claim_eq))
  | allocate packet holder hsender hholder =>
      exact .inl (State.view_eq rfl rfl rfl (by rw [hsender]; rfl))
  | allocateFails packet hsender =>
      exact .inl (abandon_ordered (hlabel.ordered_of_allocating hsender) (by rw [hsender]; rfl)).1
  | fill packet holder hsender =>
      have hitems := hkept.fill_items hsender
      cases packet with
      | _ => exact .inl (State.view_eq rfl rfl hitems (by rw [hsender]; rfl))
  | offer packet holder hsender => exact .inr (offer_simulates hkept hsender)
  | offerScroll payload holder hsender delta scrolling sender hnext =>
      have hclaim : s.view.claim = none := by
        rw [State.view, hsender]
        rfl
      exact .inr (step_of_view (.enqueue (Packet.other payload) hclaim)
        (view_mk rfl rfl (offered_items hkept hsender) (hnext.claim_eq.trans hclaim.symm)))
  | offerFails packet holder hsender hfull =>
      exact .inl (abandon_ordered (hlabel.ordered hsender hfull) (by rw [hsender]; rfl)).1
  | stop hidle => exact .inl (State.view_eq rfl rfl rfl (by rw [hidle]))
  | destroy => cases halive
  | restart => exact absurd rfl hsame
  | take hwaiting entry holder rest helements =>
      exact .inl (State.view_eq rfl rfl (take_items hwaiting helements) rfl)
  | finish hwaiting wake hwake hready hdone =>
      exact .inl (State.view_eq rfl rfl (finish_items hwaiting wake) rfl)
  | dispatch holder htaken => exact dispatch_simulates hkept hflagged htaken
  | split holder hmoving => exact .inr (split_simulates hkept hconserved hmoving)
  | sendMove holder more ok hthread =>
      cases ok with
      | false => cases halive
      | true =>
          exact .inr (send_simulates (State.items_sendingMove hthread) (State.items_moving rfl))
  | send holder more ok hthread =>
      cases ok with
      | false => cases halive
      | true => exact .inr (send_simulates (State.items_sending hthread) (State.items_waiting rfl))

end Moves

end MoonlightScarlet.Core.InputStream
