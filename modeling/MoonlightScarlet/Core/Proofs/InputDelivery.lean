import MoonlightScarlet.Core.Proofs.InputRuns
/-!
# Batched input arrives as it was given

A button, a key or a touch reaches the host after all the motion, positions and controller
states that were given before it, no press of a controller is skipped, and when the input
thread has drained its queue the host has seen what it would have seen if every packet had
been sent on its own.
-/

namespace MoonlightScarlet.Core.InputStream

open LinkedBlockingQueue (Contents)
open Support.Runs Support.Batching

variable {P K : Type}

/-! ## Presses -/

theorem presses_append (number : Fin 16) (l₁ l₂ : List (Packet K)) :
    ((controller number).read l₁).presses <+: ((controller number).read (l₁ ++ l₂)).presses := by
  induction l₂ using List.reverseRecOn with
  | nil => rw [List.append_nil]
  | append_singleton l₂ packet ih =>
      rw [← List.append_assoc, Receiver.read_snoc]
      refine ih.trans ?_
      cases packet with
      | multiController fields =>
          simp only [controller]
          split_ifs with hnumber
          · unfold Controller.update
            dsimp only
            split_ifs
            · exact List.prefix_refl _
            · exact List.prefix_append _ _
          · exact List.prefix_refl _
      | _ => exact List.prefix_refl _

/-- The presses of the controllers that were sent are the first ones that were given. -/
def PressesInOrder (given sent : List (Packet K)) : Prop :=
  ∀ number, ((controller number).read sent).presses <+: ((controller number).read given).presses

theorem PressesInOrder.mono {given given' sent : List (Packet K)} (h : PressesInOrder given sent)
    (hgiven : given <+: given') : PressesInOrder given' sent := by
  intro number
  obtain ⟨more, rfl⟩ := hgiven
  exact (h number).trans (presses_append number given more)

theorem presses_of_sound {v : Pipeline (Packet K) Carrier} (h : Sound scheme v) :
    PressesInOrder v.given v.sent := by
  intro number
  have hread : (controller number).read v.given = (controller number).read v.wires :=
    h.settled (.controller number) fun _ hcarries => hcarries.elim
  rw [hread]
  exact presses_append number v.sent _

/-! ## A thread that sends no more -/

section Moves

variable [DecidableEq P] {s t : State P K} {label : Label P K}

/-- What was given in a connection stays. -/
theorem Move.given_prefix (hmove : Move s label t) (hsame : label ≠ .restart) :
    s.given <+: t.given := by
  cases hmove with
  | mouseMove | merge | mousePosition | offerScroll => exact List.prefix_append _ _
  | allocateFails packet hsender => cases packet <;> exact List.prefix_refl _
  | offerFails packet holder hsender hfull => cases packet <;> exact List.prefix_refl _
  | fill packet holder hsender => cases packet <;> exact List.prefix_refl _
  | offer packet holder hsender =>
      cases packet with
      | multiController | other => exact List.prefix_append _ _
      | _ => exact List.prefix_refl _
  | dispatch holder htaken =>
      unfold State.dispatch
      cases s.memory holder <;> exact List.prefix_refl _
  | split holder hmoving =>
      unfold State.split
      split_ifs <;> exact List.prefix_refl _
  | restart => exact absurd rfl hsame
  | _ => exact List.prefix_refl _

theorem Move.of_lost (hmove : Move s label t) (hsame : label ≠ .restart)
    (hlost : s.thread.lost = true) : t.thread.lost = true ∧ t.sent = s.sent := by
  cases hmove with
  | allocateFails packet hsender => cases packet <;> exact ⟨hlost, rfl⟩
  | offerFails packet holder hsender hfull => cases packet <;> exact ⟨hlost, rfl⟩
  | fill packet holder hsender => cases packet <;> exact ⟨hlost, rfl⟩
  | offer packet holder hsender => cases packet <;> exact ⟨hlost, rfl⟩
  | destroy => exact ⟨rfl, rfl⟩
  | restart => exact absurd rfl hsame
  | take hthread | finish hthread | dispatch holder hthread | split holder hthread
  | sendMove holder more ok hthread | send holder more ok hthread =>
      rw [hthread] at hlost
      cases hlost
  | _ => exact ⟨hlost, rfl⟩

/-- The thread fails when it has handed a packet over, as it would if the send had gone
well. -/
theorem Move.to_lost (hmove : Move s label t) (halive : s.thread.lost = false)
    (hlost : t.thread.lost = true) :
    (t.given = s.given ∧ t.sent = s.sent) ∨
      ∃ t', Move s (.send true) t' ∧ t'.thread.lost = false ∧ t'.given = t.given ∧
        t'.sent = t.sent := by
  cases hmove with
  | sendMove holder more ok hthread =>
      exact .inr ⟨_, .sendMove holder more true hthread, rfl, rfl, rfl⟩
  | send holder more ok hthread =>
      exact .inr ⟨_, .send holder more true hthread, rfl, rfl, rfl⟩
  | destroy => exact .inl ⟨rfl, rfl⟩
  | allocateFails packet hsender => cases packet <;> cases halive.symm.trans hlost
  | offerFails packet holder hsender hfull => cases packet <;> cases halive.symm.trans hlost
  | fill packet holder hsender => cases packet <;> cases halive.symm.trans hlost
  | offer packet holder hsender => cases packet <;> cases halive.symm.trans hlost
  | take | finish | restart => cases hlost
  | dispatch holder htaken =>
      unfold State.dispatch at hlost
      cases hpacket : s.memory holder <;> rw [hpacket] at hlost <;> cases hlost
  | split holder hmoving =>
      unfold State.split at hlost
      split_ifs at hlost <;> cases hlost
  | _ => cases halive.symm.trans hlost

/-! ## The current packets -/

/-- Every current packet is on the queue or belongs to one of the threads. -/
def Alive (s : State P K) : Prop :=
  ∀ number holder, s.currentQueuedControllerPacket number = some holder →
    holder ∈ s.holders ++ s.sender.holder?.toList

omit [DecidableEq P] in
theorem Slotted.alive (h : Slotted s) : Alive s := by
  intro number holder hcurrent
  rcases h.current number holder hcurrent with ⟨packet, hoffering, -⟩ | ⟨a, b, hsplit, -, -⟩
  · rw [hoffering]
    exact List.mem_append_right _ (List.mem_singleton.mpr rfl)
  · refine List.mem_append_left _ ?_
    have hfresh : holder ∈ s.fresh := by simp [hsplit]
    rcases List.mem_append.mp hfresh with hthread | hqueued
    · cases hs : s.thread with
      | taken other =>
          rw [hs] at hthread
          exact List.mem_append_left _ (by rw [hs]; exact hthread)
      | _ => simp [hs, InputThread.fresh?] at hthread
    · exact List.mem_append_right _ hqueued

omit [DecidableEq P] in
/-- With the queue the holders on it are freed, and the current packets stay. -/
theorem destroy_not_alive (hidle : s.sender = .idle) (hcurrent : ¬s.NoneCurrent) :
    ¬Alive s.destroy := by
  intro halive
  refine hcurrent fun number => ?_
  cases hholder : s.currentQueuedControllerPacket number with
  | none => rfl
  | some holder =>
      have hmem := halive number holder hholder
      rw [State.destroy, State.holders, hidle] at hmem
      exact absurd hmem List.not_mem_nil

omit [DecidableEq P] in
/-- The holder of a packet that the queue did not take stays the current one. -/
theorem abandon_not_alive (hkept : Kept s) (hslotted : Slotted s) {fields : MultiController}
    {holder : P} (hsender : s.sender = .offering (.multiController fields) holder) :
    ¬Alive (s.abandon (.multiController fields)) := by
  have hcurrent := hslotted.offered _ holder fields.controllerNumber hsender rfl
  have hnot : holder ∉ s.holders := by
    have hnodup := hkept.nodup
    rw [hsender] at hnodup
    exact fun hmem => (List.nodup_append.mp hnodup).2.2 holder hmem holder
      (List.mem_singleton.mpr rfl) rfl
  intro halive
  have hmem := halive fields.controllerNumber holder hcurrent
  exact hnot (by simpa [State.abandon, Sender.holder?, State.holders] using hmem)

omit [DecidableEq P] in
theorem offer_full {host : Host K} {packet : Packet K} {holder : P}
    (hfull : (offerHolder s.packetQueue holder).2 = false) :
    s.offer host packet holder = s.abandon packet := by
  unfold State.offer
  rcases hoffer : offerHolder s.packetQueue holder with ⟨queue, taken⟩
  rw [hoffer] at hfull
  cases hfull
  rfl

theorem not_alive_of_unfit (hosts : ℕ → Host K) (hkept : Kept s) (hslotted : Slotted s)
    (hlabel : ¬ControllersFit s label) (hstep : step hosts s label = some t) : ¬Alive t := by
  cases label with
  | offer =>
      obtain ⟨hslot, hroom⟩ := not_or.mp hlabel
      cases hsender : s.sender with
      | offering packet holder =>
          rw [hsender] at hslot
          simp only [State.hasRoom, hsender, Bool.not_eq_true] at hroom
          simp only [step, hsender, offer_full hroom, Option.some.injEq] at hstep
          rw [← hstep]
          cases packet with
          | multiController fields => exact abandon_not_alive hkept hslotted hsender
          | _ => exact absurd rfl hslot
      | _ => simp [step, hsender] at hstep
  | destroy =>
      cases step_move hstep with
      | destroy hidle => exact destroy_not_alive hidle hlabel
  | _ => exact absurd trivial hlabel

/-- No entry of `currentQueuedControllerPacket` ever points to a holder that was freed, in
exactly those runs in which the queue takes every controller packet and no entry is set when a
connection is destroyed. -/
theorem current_packets_alive_iff (hosts : ℕ → Host K) (memory : P → Packet K)
    (labels : List (Label P K)) :
    Always (step hosts) Alive (start memory) labels ↔
      Meets (step hosts) ControllersFit (start memory) labels :=
  always_iff_meets_of_breaks (I := fun s => (Kept s ∧ Quiet s) ∧ Slotted s)
    (fun _ _ _ h hlabel hstep =>
      ⟨⟨(step_move hstep).kept h.1.1, (step_move hstep).quiet h.1.2⟩,
        (step_move hstep).slotted h.1.1 h.1.2 hlabel h.2⟩)
    (fun _ h => h.2.alive)
    (fun _ _ _ h hlabel hstep => not_alive_of_unfit hosts h.1.1 h.2 hlabel hstep)
    ⟨⟨.start memory, .start memory⟩, .start memory⟩ labels

/-- After a failed send the connection is destroyed with a packet of a controller on the
queue, and the packet stays the current one. -/
example : (run (step sampleHosts) (start fun _ => .other 0)
    (.call (.other 7) :: sampleOffer 0 ++ sampleController 5 :: sampleOffer 1 ++
      [.wait, .dispatch, .send false, .stop, .destroy])).map
        (fun s => (s.currentQueuedControllerPacket 1, s.holders)) = some (some 1, []) := by
  decide +kernel

/-! ## Runs -/

/-- What holds in every state of a run in which no call fails that adds to a batch. -/
structure Delivering (s : State P K) : Prop where
  kept : Kept s
  conserved : Conserved s
  slotted : Slotted s
  quiet : Quiet s
  alive : s.thread.lost = false → Flagged s ∧ Sound scheme s.view
  inOrder : scheme.InOrder s.given (s.sent.map Prod.fst)
  presses : PressesInOrder s.given (s.sent.map Prod.fst)

omit [DecidableEq P] in
theorem Delivering.start (memory : P → Packet K) : Delivering (start memory) where
  kept := .start memory
  conserved := (zero_add _).symm
  slotted := .start memory
  quiet := .start memory
  alive := fun _ => ⟨⟨nofun, nofun, by simp [InputStream.start, State.items, State.fresh,
    State.queued, InputThread.items, InputThread.fresh?, Sender.claim]⟩, .initial⟩
  inOrder := .nil []
  presses := fun _ => List.prefix_refl _

theorem Delivering.sound (h : Delivering s) (hmove : Move s label t)
    (hlabel : Unfailing s label) (hsame : label ≠ .restart) (halive : t.thread.lost = false) :
    Flagged t ∧ Sound scheme t.view := by
  have hbefore : s.thread.lost = false := by
    refine Bool.eq_false_of_not_eq_true fun hlost => ?_
    cases halive.symm.trans (hmove.of_lost hsame hlost).1
  obtain ⟨hflagged, hsound⟩ := h.alive hbefore
  refine ⟨hmove.flagged h.kept h.slotted hlabel halive hflagged, ?_⟩
  rcases hmove.simulates h.kept h.conserved h.slotted hflagged hlabel hsame halive with
    hview | hstep
  · rw [hview]
    exact hsound
  · exact hstep.sound hsound

theorem Delivering.delivered (h : Delivering s) (hmove : Move s label t)
    (hlabel : Unfailing s label) (hsame : label ≠ .restart) :
    scheme.InOrder t.given (t.sent.map Prod.fst) ∧
      PressesInOrder t.given (t.sent.map Prod.fst) := by
  cases hafter : t.thread.lost with
  | false =>
      have hsound := (h.sound hmove hlabel hsame hafter).2
      exact ⟨hsound.inOrder, presses_of_sound hsound⟩
  | true =>
      cases hbefore : s.thread.lost with
      | true =>
          rw [(hmove.of_lost hsame hbefore).2]
          have hprefix := hmove.given_prefix hsame
          exact ⟨h.inOrder.mono hprefix, h.presses.mono hprefix⟩
      | false =>
          rcases hmove.to_lost hbefore hafter with
            ⟨hgiven, hsent⟩ | ⟨t', hmove', halive, hgiven, hsent⟩
          · rw [hgiven, hsent]
            exact ⟨h.inOrder, h.presses⟩
          · rw [← hgiven, ← hsent]
            have hsound := (h.sound hmove' trivial nofun halive).2
            exact ⟨hsound.inOrder, presses_of_sound hsound⟩

theorem Delivering.move (h : Delivering s) (hmove : Move s label t) (hfits : FitsInt s label)
    (hlabel : Unfailing s label) : Delivering t := by
  have hkept := hmove.kept h.kept
  have hconserved := hmove.conserved h.kept hfits h.conserved
  have hslotted := hmove.slotted h.kept h.quiet hlabel.controllersFit h.slotted
  have hquiet := hmove.quiet h.quiet
  by_cases hsame : label = .restart
  · subst hsame
    cases hmove with
    | restart hidle habsent =>
        refine ⟨hkept, hconserved, hslotted, hquiet, fun _ => ⟨.restart hidle, ?_⟩, .nil [],
          fun _ => List.prefix_refl _⟩
        rw [restart_view hidle]
        exact .initial
  · obtain ⟨hinOrder, hpresses⟩ := h.delivered hmove hlabel hsame
    exact ⟨hkept, hconserved, hslotted, hquiet, h.sound hmove hlabel hsame, hinOrder, hpresses⟩

end Moves

section Runs

variable [DecidableEq P] {hosts : ℕ → Host K} {memory : P → Packet K} {labels : List (Label P K)}
  {s : State P K}

theorem run_delivering (hfits : Meets (step hosts) FitsInt (start memory) labels)
    (hmeets : Meets (step hosts) Unfailing (start memory) labels)
    (hrun : run (step hosts) (start memory) labels = some s) : Delivering s :=
  invariant_of_meets
    (fun _ _ _ h hlabel hstep => h.move (step_move hstep) hlabel.1 hlabel.2)
    (.start memory) (hfits.and hmeets) hrun

/-- When a button, a key or a touch is sent, each aspect of the host is as after a beginning
of what was given that goes at least as far as this packet. -/
theorem batched_input_in_order (hfits : Meets (step hosts) FitsInt (start memory) labels)
    (hmeets : Meets (step hosts) Unfailing (start memory) labels)
    (hrun : run (step hosts) (start memory) labels = some s) {before after : List (Packet K × Bool)}
    {payload : K} {more : Bool} (hsent : s.sent = before ++ (.other payload, more) :: after)
    (aspect : Aspect) :
    ∃ front, front <+: s.given ∧
      aspect.receiver.read front = aspect.receiver.read (before.map Prod.fst) ∧
      (before.map Prod.fst ++ [Packet.other payload]).filter Packet.ordered <+:
        front.filter Packet.ordered := by
  have hinOrder := (run_delivering hfits hmeets hrun).inOrder
  refine hinOrder aspect (before.map Prod.fst) (.other payload) (after.map Prod.fst) ?_ rfl
  rw [hsent, List.map_append, List.map_cons]

theorem sampleLabels_unfailing :
    Meets (step sampleHosts) Unfailing (start fun _ => .other 0) sampleLabels := by
  decide +kernel

theorem batched_input_in_order_sample : ∃ s : State Nat Nat,
    s.sent.drop 3 = [(.other 42, false)] ∧ ∀ aspect : Aspect, ∃ front, front <+: s.given ∧
      aspect.receiver.read front = aspect.receiver.read ((s.sent.take 3).map Prod.fst) ∧
      ((s.sent.take 3).map Prod.fst ++ [Packet.other 42]).filter Packet.ordered <+:
        front.filter Packet.ordered := by
  obtain ⟨s, hrun, hsample⟩ := sampleRun
  have hdrop : s.sent.drop 3 = [(.other 42, false)] := congrArg (·.2.1) hsample
  have hsent : s.sent = s.sent.take 3 ++ (.other 42, false) :: [] := by
    rw [← hdrop, List.take_append_drop]
  exact ⟨s, hdrop, batched_input_in_order sampleLabels_fit sampleLabels_unfailing hrun hsent⟩

/-- No change of the buttons of a controller is skipped or invented. -/
theorem presses_in_order (hfits : Meets (step hosts) FitsInt (start memory) labels)
    (hmeets : Meets (step hosts) Unfailing (start memory) labels)
    (hrun : run (step hosts) (start memory) labels = some s) (number : Fin 16) :
    ((controller number).read (s.sent.map Prod.fst)).presses <+:
      ((controller number).read s.given).presses :=
  (run_delivering hfits hmeets hrun).presses number

theorem presses_in_order_sample : ∃ s : State Nat Nat, s.sent.take 2 = sampleMoves ∧
    ∀ number, ((controller number).read (s.sent.map Prod.fst)).presses <+:
      ((controller number).read s.given).presses := by
  obtain ⟨s, hrun, hsample⟩ := sampleRun
  exact ⟨s, congrArg Prod.fst hsample, presses_in_order sampleLabels_fit sampleLabels_unfailing hrun⟩

/-- When the input thread has drained the queue, the host has seen all that was given. -/
theorem drained_input_complete (hfits : Meets (step hosts) FitsInt (start memory) labels)
    (hmeets : Meets (step hosts) Unfailing (start memory) labels)
    (hrun : run (step hosts) (start memory) labels = some s) (hended : s.thread = .ended) :
    (s.sent.map Prod.fst).filter Packet.ordered = s.given.filter Packet.ordered ∧
      ∀ aspect : Aspect,
        aspect.receiver.read (s.sent.map Prod.fst) = aspect.receiver.read s.given := by
  have h := run_delivering hfits hmeets hrun
  obtain ⟨-, hsound⟩ := h.alive (by rw [hended]; rfl)
  obtain ⟨hdraining, hempty⟩ := h.quiet.ended (.inl hended)
  have hidle := (h.quiet.drain hdraining).2
  have hitems : s.view.items = [] := by
    rw [State.view, State.items, State.fresh, State.queued, hended, hempty]
    rfl
  have hwires : s.view.wires = s.sent.map Prod.fst := by
    rw [Pipeline.wires, hitems, packets_nil, List.append_nil]
    rfl
  refine ⟨?_, fun aspect => ?_⟩
  · have hordered := hsound.ordered
    rw [hwires] at hordered
    exact hordered.symm
  · have hsettled : scheme.Settled aspect s.view := by
      refine settled_of_no_claim ?_ fun carrier _ => ?_
      · rw [State.view, hidle]
        rfl
      · rw [hitems]
        exact List.not_mem_nil
    have hread := hsound.settled aspect hsettled
    rw [hwires] at hread
    exact hread.symm

theorem drained_input_complete_sample : ∃ s : State Nat Nat, s.thread = .ended ∧
    (s.sent.map Prod.fst).filter Packet.ordered = s.given.filter Packet.ordered ∧
      ∀ aspect : Aspect,
        aspect.receiver.read (s.sent.map Prod.fst) = aspect.receiver.read s.given := by
  obtain ⟨s, hrun, hsample⟩ := sampleRun
  have hended : s.thread = .ended := congrArg (·.2.2) hsample
  exact ⟨s, hended, drained_input_complete sampleLabels_fit sampleLabels_unfailing hrun hended⟩

end Runs

end MoonlightScarlet.Core.InputStream
