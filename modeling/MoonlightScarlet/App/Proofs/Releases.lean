import MoonlightScarlet.App.Proofs.Keys
/-!
# Releases and failed sends

A release attempts to send one packet for everything that is tracked and returns the first
error.  The tracked state is emptied before the first send, so an item is forgotten exactly
if its packet was refused.
-/

namespace MoonlightScarlet.App

open Sys Support

variable {F : Type} [F32 F]

/-- What one packet of a release lets go of: all contacts, a key or a mouse button. -/
inductive Held
  | contacts
  | key (keyCode : UInt16)
  | button (button : MouseButton)
  deriving DecidableEq, Repr

/-- A packet of a release with the answer that it got. -/
abbrev Outcome := Held × Except InputError Unit

/-- The packet that lets go of all contacts. -/
def releasePacket (input : Touch.TouchInput F) : Touch.Sent F :=
  if input.native = some true then .touch .cancelAll 0 F32.zero F32.zero else .button false

namespace PressedInput

def heldContacts (state : PressedInput F) : List Held :=
  if state.touches.contacts.isEmpty then [] else [.contacts]

def heldKeys (state : PressedInput F) : List Held := state.keys.toList.map .key

def heldButtons (state : PressedInput F) : List Held :=
  (([.left, .middle, .right] : List MouseButton).filter fun button =>
    state.mouseButtons &&& mouseButtonBit button ≠ 0).map .button

def held (state : PressedInput F) : List Held :=
  state.heldContacts ++ (state.heldKeys ++ state.heldButtons)

def releaseOf (state : PressedInput F) : Held → Input F
  | .contacts => .ofTouch (releasePacket state.touches)
  | .key keyCode => .keyboard keyCode .release {}
  | .button button => .mouseButton button .release

/-- The packets for the items are sent from this turn on, one in each turn. -/
def outcomes (state : PressedInput F) (control : ConnectionControl F) :
    Nat → List Held → List Outcome
  | _, [] => []
  | turn, item :: items =>
      (item, control.send turn (state.releaseOf item)) ::
        state.outcomes control (turn + 1) items

def accepted (state : PressedInput F) (outcomes : List Outcome) : List (Input F) :=
  (outcomes.filter fun outcome => outcome.2 = .ok ()).map fun outcome =>
    state.releaseOf outcome.1

/-- `state` is what is left of `before`, and the item is still there. -/
def StillTracks (state before : PressedInput F) : Held → Prop
  | .contacts => state.touches.contacts = before.touches.contacts
  | .key keyCode => keyCode ∈ state.keys
  | .button button => state.mouseButtons &&& mouseButtonBit button ≠ 0

end PressedInput

/-- The first of the answers that is an error. -/
def firstFailure : List Outcome → Except InputError Unit
  | [] => .ok ()
  | (_, .error error) :: _ => .error error
  | (_, .ok ()) :: outcomes => firstFailure outcomes

theorem firstError_assoc (a b c : Except InputError Unit) :
    firstError (firstError a b) c = firstError a (firstError b c) := by
  cases a <;> rfl

theorem firstFailure_cons (outcome : Outcome) (outcomes : List Outcome) :
    firstFailure (outcome :: outcomes) = firstError outcome.2 (firstFailure outcomes) := by
  obtain ⟨item, answer⟩ := outcome
  cases answer <;> rfl

theorem firstFailure_append (first second : List Outcome) :
    firstFailure (first ++ second) = firstError (firstFailure first) (firstFailure second) := by
  induction first with
  | nil => rfl
  | cons outcome first ih =>
      rw [List.cons_append, firstFailure_cons, firstFailure_cons, ih, firstError_assoc]

/-! ## What the sends of a release do -/

section Sends

variable {state : PressedInput F} {control : ConnectionControl F}

theorem outcomes_fst (turn : Nat) (items : List Held) :
    (state.outcomes control turn items).map Prod.fst = items := by
  induction items generalizing turn with
  | nil => rfl
  | cons item items ih => simp [PressedInput.outcomes, ih]

theorem outcomes_append (turn : Nat) (items more : List Held) :
    state.outcomes control turn (items ++ more) =
      state.outcomes control turn items ++
        state.outcomes control (turn + items.length) more := by
  induction items generalizing turn with
  | nil => rfl
  | cons item items ih =>
      simp [PressedInput.outcomes, ih, Nat.add_assoc, Nat.add_comm 1]

theorem accepted_append (first second : List Outcome) :
    state.accepted (first ++ second) = state.accepted first ++ state.accepted second := by
  simp [PressedInput.accepted]

theorem accepted_cons (outcome : Outcome) (outcomes : List Outcome) :
    state.accepted (outcome :: outcomes) = state.accepted [outcome] ++ state.accepted outcomes :=
  accepted_append [outcome] outcomes

theorem deliver_release (item : Held) (wire : Wire F) :
    (control.deliver (state.releaseOf item)).run wire =
      (control.send wire.turn (state.releaseOf item),
        { wire with
          turn := wire.turn + 1
          delivered := wire.delivered ++
            state.accepted [(item, control.send wire.turn (state.releaseOf item))] }) := by
  simp only [StateT.run, ConnectionControl.deliver]
  cases control.send wire.turn (state.releaseOf item) with
  | ok => rfl
  | error error => simp [PressedInput.accepted]

/-- All items are attempted, whatever becomes of the others. -/
theorem deliverEach_releases (items : List Held) (first : Except InputError Unit) (wire : Wire F) :
    (control.deliverEach (items.map state.releaseOf) first).run wire =
      (firstError first (firstFailure (state.outcomes control wire.turn items)),
        { wire with
          turn := wire.turn + items.length
          delivered := wire.delivered ++
            state.accepted (state.outcomes control wire.turn items) }) := by
  induction items generalizing first wire with
  | nil =>
      have hfirst : firstError first (.ok ()) = first := by cases first <;> rfl
      simp [PressedInput.outcomes, PressedInput.accepted, firstFailure, hfirst]
      rfl
  | cons item items ih =>
      have hcons : (control.deliverEach ((item :: items).map state.releaseOf) first).run wire =
          (control.deliverEach (items.map state.releaseOf)
            (firstError first ((control.deliver (state.releaseOf item)).run wire).1)).run
              ((control.deliver (state.releaseOf item)).run wire).2 := rfl
      rw [hcons, deliver_release, ih, PressedInput.outcomes, firstFailure_cons, firstError_assoc,
        accepted_cons _ (state.outcomes control (wire.turn + 1) items)]
      simp only [List.length_cons, List.append_assoc]
      rw [Nat.add_assoc, Nat.add_comm 1]

theorem buttonReleases_eq :
    PressedInput.buttonReleases state.mouseButtons = state.heldButtons.map state.releaseOf := by
  unfold PressedInput.buttonReleases PressedInput.heldButtons
  rw [List.map_map, ← List.filterMap_eq_map, List.filterMap_filter]
  apply List.filterMap_congr
  intro button _
  simp [PressedInput.releaseOf]

theorem keyReleases_eq :
    (state.keys.toList.map fun keyCode => .keyboard keyCode .release {}) =
      state.heldKeys.map state.releaseOf := by
  unfold PressedInput.heldKeys
  rw [List.map_map]
  rfl

theorem releaseTo_eq (input : Touch.TouchInput F) (sink : Touch.TouchSink F) :
    input.releaseTo sink =
      if input.contacts.isEmpty then ⟨input, [], .ok ()⟩
      else ⟨{ native := none, contacts := [] }, (sink.attempt (releasePacket input)).delivered,
        sink.send (releasePacket input)⟩ := by
  have hresult (packet : Touch.Sent F) : (sink.attempt packet).result = sink.send packet := by
    obtain ⟨hsend, hattempt⟩ | ⟨error, hsend, hattempt⟩ := Touch.attempt_cases sink packet <;>
      rw [hattempt, hsend]
  unfold Touch.TouchInput.releaseTo releasePacket
  split_ifs with hempty hnative
  · rfl
  · rw [← hresult]
  · rw [← hresult]

/-- Without a contact the touch router sends nothing. -/
theorem touches_release (wire : Wire F) :
    ∃ touches, (control.touches state.touches.releaseTo).run wire =
      ((firstFailure (state.outcomes control wire.turn state.heldContacts), touches),
        { wire with
          turn := wire.turn + 1
          delivered := wire.delivered ++
            state.accepted (state.outcomes control wire.turn state.heldContacts) }) := by
  refine ⟨(state.touches.releaseTo (control.touchSink wire.turn)).input, ?_⟩
  simp only [StateT.run, ConnectionControl.touches]
  rw [releaseTo_eq, PressedInput.heldContacts]
  by_cases hempty : state.touches.contacts.isEmpty = true
  · simp [hempty, PressedInput.outcomes, PressedInput.accepted, firstFailure]
  · simp only [hempty, Bool.false_eq_true, if_false, PressedInput.outcomes]
    obtain ⟨hsend, hattempt⟩ | ⟨error, hsend, hattempt⟩ :=
      Touch.attempt_cases (control.touchSink wire.turn) (releasePacket state.touches)
    · have hanswer : control.send wire.turn (state.releaseOf .contacts) = .ok () := hsend
      simp [hattempt, hsend, hanswer, firstFailure, PressedInput.accepted]
      rfl
    · have hanswer : control.send wire.turn (state.releaseOf .contacts) = .error error := hsend
      simp [hattempt, hsend, hanswer, firstFailure, PressedInput.accepted]

end Sends

/-! ## The three releases -/

/-- The answers to the packets of `release_all`. -/
def PressedInput.releaseAllOutcomes (state : PressedInput F) (control : ConnectionControl F)
    (turn : Nat) : List Outcome :=
  state.outcomes control turn state.heldContacts ++
    state.outcomes control (turn + 1) (state.heldKeys ++ state.heldButtons)

/-- The answers to the packets of `release_mouse`. -/
def PressedInput.releaseMouseOutcomes (state : PressedInput F) (control : ConnectionControl F)
    (turn : Nat) : List Outcome :=
  state.outcomes control turn state.heldButtons

section Runs

variable (state : PressedInput F) (control : ConnectionControl F) (wire : Wire F)

theorem releaseMouse_run :
    let outcomes := state.releaseMouseOutcomes control wire.turn
    let end_ := (state.releaseMouse (some control)).run wire
    end_.1 = (firstFailure outcomes,
        { state with mouseButtons := 0, suppressedMouseButtons := 0 }) ∧
      end_.2.delivered = wire.delivered ++ state.accepted outcomes := by
  have hrun : (state.releaseMouse (some control)).run wire =
      let buttons := (control.deliverEach
        (PressedInput.buttonReleases state.mouseButtons) (.ok ())).run wire
      ((buttons.1, { state with mouseButtons := 0, suppressedMouseButtons := 0 }), buttons.2) := rfl
  intro outcomes end_
  unfold end_
  rw [hrun, buttonReleases_eq, deliverEach_releases]
  exact ⟨rfl, rfl⟩

theorem releaseAll_run :
    let outcomes := state.releaseAllOutcomes control wire.turn
    let end_ := (state.releaseAll (some control)).run wire
    end_.1 = (firstFailure outcomes, { suppressedShortcutKeys := state.suppressedShortcutKeys }) ∧
      end_.2.delivered = wire.delivered ++ state.accepted outcomes := by
  obtain ⟨touches, htouches⟩ := touches_release wire
  intro outcomes end_
  unfold end_ outcomes PressedInput.releaseAllOutcomes
  rw [releaseAll_run_eq, keyReleases_eq, buttonReleases_eq, htouches]
  dsimp only
  rw [deliverEach_releases, deliverEach_releases, outcomes_append, firstFailure_append,
    firstFailure_append, accepted_append, accepted_append, firstError_assoc]
  simp only [List.append_assoc, and_self, PressedInput.heldKeys, List.length_map]

end Runs

/-! ## What a release should do when sends fail -/

abbrev Release (F : Type) := PressedInput F → ConnectionControl F →
  StateM (Wire F) (Except InputError Unit × PressedInput F)

/-- Each item is attempted once and the first error is returned; what was not delivered is
still tracked, so that a second release whose sends succeed lets go of the rest. -/
structure Survives (release : Release F) (items : List Held) (outcomes : List Outcome)
    (state : PressedInput F) (control : ConnectionControl F) (wire : Wire F) : Prop where
  once : outcomes.map Prod.fst = items ∧ items.Nodup
  sent : ((release state control).run wire).2.delivered =
    wire.delivered ++ state.accepted outcomes
  first : ((release state control).run wire).1.1 = firstFailure outcomes
  tracked : ∀ outcome ∈ outcomes, outcome.2 ≠ .ok () →
    ((release state control).run wire).1.2.StillTracks state outcome.1
  repeated : ∀ later : ConnectionControl F, later.Reliable → ∀ item ∈ items,
    state.releaseOf item ∈ ((release ((release state control).run wire).1.2 later).run
      ((release state control).run wire).2).2.delivered.drop wire.delivered.length

/-- The release attempts the items and tracks none of them afterwards. -/
structure Empties (release : Release F) (items : PressedInput F → List Held)
    (outcomes : PressedInput F → ConnectionControl F → Nat → List Outcome) : Prop where
  once : ∀ state control turn, (outcomes state control turn).map Prod.fst = items state ∧
    (items state).Nodup
  sent : ∀ state control wire, ((release state control).run wire).2.delivered =
    wire.delivered ++ state.accepted (outcomes state control wire.turn)
  first : ∀ state control wire,
    ((release state control).run wire).1.1 = firstFailure (outcomes state control wire.turn)
  forgets : ∀ state control wire, ∀ item ∈ items state,
    ¬((release state control).run wire).1.2.StillTracks state item

theorem Empties.survives_iff {release : Release F} {items : PressedInput F → List Held}
    {outcomes : PressedInput F → ConnectionControl F → Nat → List Outcome}
    (h : Empties release items outcomes) (state : PressedInput F) (control : ConnectionControl F)
    (wire : Wire F) :
    Survives release (items state) (outcomes state control wire.turn) state control wire ↔
      ∀ outcome ∈ outcomes state control wire.turn, outcome.2 = .ok () := by
  obtain ⟨hitems, hnodup⟩ := h.once state control wire.turn
  constructor
  · intro hsurvives outcome hmem
    by_contra hfailed
    have hitem : outcome.1 ∈ items state := hitems ▸ List.mem_map_of_mem hmem
    exact h.forgets state control wire outcome.1 hitem (hsurvives.tracked outcome hmem hfailed)
  · intro hall
    refine ⟨⟨hitems, hnodup⟩, h.sent state control wire, h.first state control wire,
      fun outcome hmem hfailed => absurd (hall outcome hmem) hfailed, ?_⟩
    intro later _ item hitem
    obtain ⟨outcome, hmem, rfl⟩ := List.mem_map.mp (hitems ▸ hitem)
    rw [h.sent, h.sent, List.append_assoc, List.drop_left]
    apply List.mem_append_left
    apply List.mem_map_of_mem (f := fun outcome : Outcome => state.releaseOf outcome.1)
    exact List.mem_filter.mpr ⟨hmem, decide_eq_true (hall outcome hmem)⟩

omit [F32 F] in
theorem heldButtons_nodup (state : PressedInput F) : state.heldButtons.Nodup := by
  apply List.Nodup.map (fun _ _ h => Held.button.inj h)
  exact List.Nodup.filter _ (by decide)

omit [F32 F] in
theorem held_nodup (state : PressedInput F) : state.held.Nodup := by
  have hcontacts : state.heldContacts.Nodup := by
    unfold PressedInput.heldContacts
    split_ifs <;> simp
  have hkeys : state.heldKeys.Nodup := state.keys.nodup.map fun _ _ h => Held.key.inj h
  unfold PressedInput.held
  rw [List.nodup_append, List.nodup_append]
  refine ⟨hcontacts, ⟨hkeys, heldButtons_nodup state, ?_⟩, ?_⟩
  · rintro item hkey other hbutton rfl
    obtain ⟨keyCode, -, rfl⟩ := List.mem_map.mp hkey
    obtain ⟨button, -, hbutton⟩ := List.mem_map.mp hbutton
    exact nomatch hbutton
  · rintro item hcontact other hother rfl
    obtain rfl : item = .contacts := by
      unfold PressedInput.heldContacts at hcontact
      split_ifs at hcontact
      · exact nomatch hcontact
      · exact List.mem_singleton.mp hcontact
    simp [PressedInput.heldKeys, PressedInput.heldButtons] at hother

theorem releaseMouse_empties :
    Empties (F := F) (fun state control => state.releaseMouse (some control))
      PressedInput.heldButtons PressedInput.releaseMouseOutcomes where
  once state _ turn := ⟨outcomes_fst turn state.heldButtons, heldButtons_nodup state⟩
  sent state control wire := (releaseMouse_run state control wire).2
  first state control wire := congrArg Prod.fst (releaseMouse_run state control wire).1
  forgets state control wire item hitem := by
    rw [(releaseMouse_run state control wire).1]
    obtain ⟨button, -, rfl⟩ := List.mem_map.mp hitem
    simp [PressedInput.StillTracks]

theorem releaseAll_empties :
    Empties (F := F) (fun state control => state.releaseAll (some control))
      PressedInput.held PressedInput.releaseAllOutcomes where
  once state control turn := by
    refine ⟨?_, held_nodup state⟩
    unfold PressedInput.releaseAllOutcomes
    rw [List.map_append, outcomes_fst, outcomes_fst]
    rfl
  sent state control wire := (releaseAll_run state control wire).2
  first state control wire := congrArg Prod.fst (releaseAll_run state control wire).1
  forgets state control wire item hitem := by
    rw [(releaseAll_run state control wire).1]
    cases item with
    | contacts =>
        intro hempty
        have hcontacts : state.touches.contacts = [] := hempty.symm
        simp [PressedInput.held, PressedInput.heldContacts, PressedInput.heldKeys,
          PressedInput.heldButtons, hcontacts] at hitem
    | key keyCode => simp [PressedInput.StillTracks]
    | button button => simp [PressedInput.StillTracks]

/-- The same for the contacts alone, which share one packet. -/
structure ContactsSurvive (input : Touch.TouchInput F) (sink : Touch.TouchSink F) : Prop where
  sent : (input.releaseTo sink).delivered =
    if input.contacts.isEmpty then [] else (sink.attempt (releasePacket input)).delivered
  first : (input.releaseTo sink).result =
    if input.contacts.isEmpty then .ok () else sink.send (releasePacket input)
  tracked : ¬input.contacts.isEmpty → sink.send (releasePacket input) ≠ .ok () →
    (input.releaseTo sink).input.contacts = input.contacts
  repeated : ∀ later : Touch.TouchSink F, (∀ packet, later.send packet = .ok ()) →
    ¬input.contacts.isEmpty → releasePacket input ∈ (input.releaseTo sink).delivered ++
      ((input.releaseTo sink).input.releaseTo later).delivered

theorem contactsSurvive_iff (input : Touch.TouchInput F) (sink : Touch.TouchSink F) :
    ContactsSurvive input sink ↔
      input.contacts = [] ∨ sink.send (releasePacket input) = .ok () := by
  constructor
  · intro hsurvives
    by_contra hnone
    obtain ⟨hcontacts, hrefused⟩ := not_or.mp hnone
    have htracked := hsurvives.tracked (by simpa using hcontacts) hrefused
    rw [releaseTo_eq, if_neg (by simpa using hcontacts)] at htracked
    exact hcontacts htracked.symm
  · intro hsent
    refine ⟨?_, ?_, fun hcontacts hrefused => ?_, fun later _ hcontacts => ?_⟩
    · rw [releaseTo_eq]
      split_ifs <;> rfl
    · rw [releaseTo_eq]
      split_ifs <;> rfl
    · exact absurd (hsent.resolve_left (by simpa using hcontacts)) hrefused
    · have hsend := hsent.resolve_left (by simpa using hcontacts)
      have hattempt : sink.attempt (releasePacket input) = ⟨.ok (), [releasePacket input]⟩ := by
        rw [Touch.TouchSink.attempt, hsend]
      rw [releaseTo_eq, if_neg hcontacts, hattempt]
      exact List.mem_append_left _ (List.mem_singleton_self _)

/-- Releases survive failed sends exactly when no send of theirs fails. -/
theorem releases_survive_iff :
    (∀ (state : PressedInput F) (control : ConnectionControl F) (wire : Wire F),
      Survives (fun state control => state.releaseAll (some control)) state.held
          (state.releaseAllOutcomes control wire.turn) state control wire ↔
        ∀ outcome ∈ state.releaseAllOutcomes control wire.turn, outcome.2 = .ok ()) ∧
    (∀ (state : PressedInput F) (control : ConnectionControl F) (wire : Wire F),
      Survives (fun state control => state.releaseMouse (some control)) state.heldButtons
          (state.releaseMouseOutcomes control wire.turn) state control wire ↔
        ∀ outcome ∈ state.releaseMouseOutcomes control wire.turn, outcome.2 = .ok ()) ∧
    ∀ (input : Touch.TouchInput F) (sink : Touch.TouchSink F),
      ContactsSurvive input sink ↔
        input.contacts = [] ∨ sink.send (releasePacket input) = .ok () :=
  ⟨releaseAll_empties.survives_iff, releaseMouse_empties.survives_iff, contactsSurvive_iff⟩

/-! ## A key that is forgotten -/

/-- The core has no memory for a packet once. -/
def noMemoryOnce : ConnectionControl Rat where
  supportsTouch _ := .ok true
  send turn _ := if turn = 1 then .error (.core "keyboard" (-1)) else .ok ()

def oneKey : PressedInput Rat := { keys := (∅ : SortedSet UInt16).insert 0x41 }

/-- The release of the key is refused, and the key is no longer tracked. -/
theorem refused_release_forgotten :
    let after := (oneKey.releaseAll (some noMemoryOnce)).run {}
    (0x41 ∈ oneKey.keys ∧ after.2.delivered = [] ∧ 0x41 ∉ after.1.2.keys) ∧
      ¬Survives (fun state control => state.releaseAll (some control)) oneKey.held
        (oneKey.releaseAllOutcomes noMemoryOnce 0) oneKey noMemoryOnce {} := by
  have hforgotten : 0x41 ∉ ((oneKey.releaseAll (some noMemoryOnce)).run {}).1.2.keys := by decide
  refine ⟨⟨by decide, rfl, hforgotten⟩, ?_⟩
  intro hsurvives
  have htracked := hsurvives.tracked (.key 0x41, .error (.core "keyboard" (-1)))
    (by decide) (by decide)
  exact hforgotten htracked

end MoonlightScarlet.App
