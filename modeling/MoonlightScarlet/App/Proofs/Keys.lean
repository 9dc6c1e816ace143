import MoonlightScarlet.App.Stream
import MoonlightScarlet.Support.Runs
/-!
# Keys held on the host

While every send succeeds, the host holds exactly the tracked keys.  A key gets
stuck only through a release that is kept back as the end of a shortcut although
the press of the same key had gone out.
-/

namespace MoonlightScarlet.App

open Sys Support Support.Runs

variable {F : Type}

/-- Every send succeeds. -/
def ConnectionControl.Reliable (control : ConnectionControl F) : Prop :=
  ∀ turn input, control.send turn input = .ok ()

def receiveKey (held : UInt16 → Bool) : Input F → UInt16 → Bool
  | .keyboard keyCode .press _ => Function.update held keyCode true
  | .keyboard keyCode .release _ => Function.update held keyCode false
  | _ => held

/-- The virtual keys that are down on the host after these inputs. -/
def heldAfter (delivered : List (Input F)) : UInt16 → Bool :=
  delivered.foldl receiveKey fun _ => false

def KeyEvent.isPress : KeyEvent → Bool
  | .pressed _ _ => true
  | .released _ _ => false
  | .char _ => false

/-- The virtual keys that are down on the local keyboard after the event. -/
def KeyEvent.move (down : UInt16 → Bool) (event : KeyEvent) : UInt16 → Bool :=
  match event.vkCode with
  | some vkCode => Function.update down vkCode event.isPress
  | none => down

/-! ## Sends that succeed -/

section Reliable

variable {control : ConnectionControl F} (h : control.Reliable)

include h

theorem deliver_reliable (input : Input F) (wire : Wire F) :
    (control.deliver input).run wire =
      (.ok (), { wire with turn := wire.turn + 1, delivered := wire.delivered ++ [input] }) := by
  simp only [StateT.run, ConnectionControl.deliver, h wire.turn input]

theorem deliverEach_reliable (inputs : List (Input F)) (first : Except InputError Unit)
    (wire : Wire F) :
    (control.deliverEach inputs first).run wire =
      (first, { wire with
        turn := wire.turn + inputs.length, delivered := wire.delivered ++ inputs }) := by
  induction inputs generalizing wire with
  | nil =>
      rw [List.append_nil]
      rfl
  | cons input inputs ih =>
      have hcons : (control.deliverEach (input :: inputs) first).run wire =
          (control.deliverEach inputs
            (firstError first ((control.deliver input).run wire).1)).run
              ((control.deliver input).run wire).2 := rfl
      have hfirst : firstError first (.ok ()) = first := by
        cases first <;> rfl
      rw [hcons, deliver_reliable h, hfirst, ih]
      simp only [List.length_cons, List.append_assoc, List.singleton_append]
      rw [Nat.add_assoc, Nat.add_comm 1]

theorem sendKey_pressed (state : PressedInput F) {keycode : KeyCode} {vkCode : UInt16}
    (hvk : keycodeToVk keycode = some vkCode) (modifiers : KeyModifiers) (wire : Wire F) :
    (state.sendKey control (.pressed keycode modifiers)).run wire =
      ((.ok true, { state with keys := state.keys.insert vkCode }),
        { wire with
          turn := wire.turn + 1
          delivered := wire.delivered ++
            [.keyboard vkCode .press (remoteModifiers modifiers)] }) := by
  simp only [PressedInput.sendKey, hvk, StateT.run_bind, deliver_reliable h]
  rfl

theorem sendKey_released (state : PressedInput F) {keycode : KeyCode} {vkCode : UInt16}
    (hvk : keycodeToVk keycode = some vkCode) (modifiers : KeyModifiers) (wire : Wire F) :
    (state.sendKey control (.released keycode modifiers)).run wire =
      ((.ok true, { state with keys := state.keys.erase vkCode }),
        { wire with
          turn := wire.turn + 1
          delivered := wire.delivered ++
            [.keyboard vkCode .release (remoteModifiers modifiers)] }) := by
  simp only [PressedInput.sendKey, hvk, StateT.run_bind, deliver_reliable h]
  rfl

theorem releaseMouse_reliable (state : PressedInput F) (wire : Wire F) :
    (state.releaseMouse (some control)).run wire =
      ((.ok (), { state with mouseButtons := 0, suppressedMouseButtons := 0 }),
        { wire with
          turn := wire.turn +
            (PressedInput.buttonReleases state.mouseButtons : List (Input F)).length
          delivered := wire.delivered ++ PressedInput.buttonReleases state.mouseButtons }) := by
  simp only [PressedInput.releaseMouse, StateT.run_bind, deliverEach_reliable h]
  rfl

theorem sendMouseButton_reliable (state : PressedInput F) (button : MouseButton) (pressed : Bool)
    (wire : Wire F) :
    (state.sendMouseButton control button pressed).run wire =
      ((.ok (), { state with
          mouseButtons :=
            if pressed then state.mouseButtons ||| mouseButtonBit button
            else state.mouseButtons &&& ~~~mouseButtonBit button }),
        { wire with
          turn := wire.turn + 1
          delivered := wire.delivered ++
            [.mouseButton button (if pressed then .press else .release)] }) := by
  simp only [PressedInput.sendMouseButton, StateT.run_bind, deliver_reliable h]
  rfl

omit h in
/-- The sends of `release_all`, one after the other. -/
theorem releaseAll_run_eq [F32 F] (state : PressedInput F) (wire : Wire F) :
    (state.releaseAll (some control)).run wire =
      let touches := (control.touches state.touches.releaseTo).run wire
      let keys := (control.deliverEach (state.keys.toList.map fun keyCode =>
        .keyboard keyCode .release {}) touches.1.1).run touches.2
      let buttons := (control.deliverEach
        (PressedInput.buttonReleases state.mouseButtons) keys.1).run keys.2
      ((buttons.1, { suppressedShortcutKeys := state.suppressedShortcutKeys }), buttons.2) := rfl

/-- `release_all` releases every tracked key and button. -/
theorem releaseAll_reliable [F32 F] (state : PressedInput F) (wire : Wire F) :
    ∃ (result : Except InputError Unit) (turn : Nat),
      (state.releaseAll (some control)).run wire =
        ((result, { suppressedShortcutKeys := state.suppressedShortcutKeys }),
          { wire with
            turn
            delivered := wire.delivered ++
              (state.touches.releaseTo (control.touchSink wire.turn)).delivered.map .ofTouch ++
                (state.keys.toList.map fun keyCode => .keyboard keyCode .release {}) ++
                  PressedInput.buttonReleases state.mouseButtons }) := by
  rw [releaseAll_run_eq]
  dsimp only
  rw [deliverEach_reliable h, deliverEach_reliable h]
  exact ⟨_, _, rfl⟩

end Reliable

/-! ## What the handlers do to the keys -/

theorem heldAfter_append (delivered new : List (Input F)) :
    heldAfter (delivered ++ new) = new.foldl receiveKey (heldAfter delivered) :=
  List.foldl_append

theorem foldl_unchanged {α β : Type} {f : β → α → β} {items : List α} {b : β}
    (h : ∀ a ∈ items, f b a = b) : items.foldl f b = b := by
  induction items with
  | nil => rfl
  | cons a items ih =>
      rw [List.foldl_cons, h a List.mem_cons_self]
      exact ih fun a hmem => h a (List.mem_cons_of_mem _ hmem)

/-- Everything in the list is released. -/
theorem foldl_update_false {α : Type} [DecidableEq α] (items : List α) (held : α → Bool) :
    items.foldl (fun held item => Function.update held item false) held =
      fun item => held item && !decide (item ∈ items) := by
  induction items generalizing held with
  | nil => simp
  | cons first items ih =>
      rw [List.foldl_cons, ih]
      funext item
      by_cases hitem : item = first <;> simp [hitem]

theorem foldl_receiveKey_other {inputs : List (Input F)} (held : UInt16 → Bool)
    (h : ∀ keyCode action modifiers, .keyboard keyCode action modifiers ∉ inputs) :
    inputs.foldl receiveKey held = held := by
  apply foldl_unchanged
  intro input hmem
  cases input with
  | keyboard keyCode action modifiers => exact absurd hmem (h keyCode action modifiers)
  | _ => rfl

theorem foldl_receiveKey_releases (keys : List UInt16) (held : UInt16 → Bool) :
    (keys.map fun keyCode => (.keyboard keyCode .release {} : Input F)).foldl receiveKey held =
      fun vkCode => held vkCode && !decide (vkCode ∈ keys) := by
  rw [List.foldl_map]
  exact foldl_update_false keys held

/-- The host, the tracked keys and the suppressed shortcuts stay as they are. -/
structure KeepsKeys (app next : MoonlightApp F) : Prop where
  control : next.streamControl = app.streamControl
  keys : next.remoteInput.keys = app.remoteInput.keys
  held : heldAfter next.wire.delivered = heldAfter app.wire.delivered

theorem KeepsKeys.refl (app : MoonlightApp F) : KeepsKeys app app := ⟨rfl, rfl, rfl⟩

theorem keyboard_not_mem_buttonReleases (buttons : BitVec 8) (keyCode : UInt16)
    (action : InputAction) (modifiers : KeyboardModifiers) :
    (.keyboard keyCode action modifiers : Input F) ∉ PressedInput.buttonReleases buttons := by
  simp [PressedInput.buttonReleases]

theorem keyboard_not_mem_ofTouch (packets : List (Touch.Sent F)) (keyCode : UInt16)
    (action : InputAction) (modifiers : KeyboardModifiers) :
    .keyboard keyCode action modifiers ∉ packets.map Input.ofTouch := by
  simp only [List.mem_map, not_exists, not_and]
  intro packet _
  cases packet <;> simp [Input.ofTouch]

section Handlers

variable {app : MoonlightApp F} {control : ConnectionControl F}
  (hcontrol : app.streamControl = some control) (h : control.Reliable)

include hcontrol

theorem releaseGamepads_keys : KeepsKeys app app.releaseGamepads := by
  unfold MoonlightApp.releaseGamepads
  rw [hcontrol]
  refine ⟨hcontrol.symm, rfl, ?_⟩
  refine (heldAfter_append _ _).trans (foldl_receiveKey_other _ ?_)
  simp

include h

theorem releasePointerLock_keys : KeepsKeys app app.releasePointerLock := by
  unfold MoonlightApp.releasePointerLock MoonlightApp.withInput
  rw [hcontrol, releaseMouse_reliable h]
  refine ⟨hcontrol.symm, rfl, ?_⟩
  refine (heldAfter_append _ _).trans (foldl_receiveKey_other _ ?_)
  exact keyboard_not_mem_buttonReleases _

theorem releaseInput_keys [F32 F] :
    app.releaseInput.streamControl = app.streamControl ∧
      app.releaseInput.remoteInput.keys = ∅ ∧
        heldAfter app.releaseInput.wire.delivered = fun vkCode =>
          heldAfter app.wire.delivered vkCode && !decide (vkCode ∈ app.remoteInput.keys) := by
  have hrun := releaseAll_reliable h app.remoteInput app.wire
  rw [← hcontrol] at hrun
  obtain ⟨result, turn, hrun⟩ := hrun
  unfold MoonlightApp.releaseInput MoonlightApp.withInput
  rw [hrun]
  refine ⟨rfl, rfl, ?_⟩
  dsimp only
  rw [heldAfter_append, heldAfter_append, heldAfter_append,
    foldl_receiveKey_other _ (keyboard_not_mem_ofTouch _), foldl_receiveKey_releases,
    foldl_receiveKey_other _ (keyboard_not_mem_buttonReleases _)]
  simp only [SortedSet.mem_toList]

end Handlers

/-! ## Sessions -/

/-- While every send succeeds, the tracked keys are the keys down on the host. -/
structure Tracks (control : ConnectionControl F) (app : MoonlightApp F) : Prop where
  control : app.streamControl = some control
  keys : ∀ vkCode, heldAfter app.wire.delivered vkCode = true ↔ vkCode ∈ app.remoteInput.keys

theorem KeepsKeys.tracks {control : ConnectionControl F} {app next : MoonlightApp F}
    (h : KeepsKeys app next) (htracks : Tracks control app) : Tracks control next where
  control := h.control.trans htracks.control
  keys vkCode := by
    rw [h.held, h.keys]
    exact htracks.keys vkCode

section Session

variable [F32 F] {control : ConnectionControl F} (h : control.Reliable)

include h

/-- Releasing everything leaves nothing down on the host. -/
theorem Tracks.releaseInput {app : MoonlightApp F} (htracks : Tracks control app) :
    Tracks control app.releaseInput ∧
      ∀ vkCode, heldAfter app.releaseInput.wire.delivered vkCode = false := by
  obtain ⟨hsame, hkeys, hheld⟩ := releaseInput_keys htracks.control h
  have hnone : ∀ vkCode, heldAfter app.releaseInput.wire.delivered vkCode = false := by
    intro vkCode
    rw [hheld]
    dsimp only
    cases hdown : heldAfter app.wire.delivered vkCode with
    | false => rfl
    | true => simp [(htracks.keys vkCode).mp hdown]
  exact ⟨⟨hsame.trans htracks.control, fun vkCode => by simp [hnone, hkeys]⟩, hnone⟩

theorem Tracks.stopStream {app : MoonlightApp F} (htracks : Tracks control app) :
    Tracks control app.stopStream ∧
      ∀ vkCode, heldAfter app.stopStream.wire.delivered vkCode = false := by
  have hpads := (releaseGamepads_keys htracks.control).tracks htracks
  obtain ⟨hreleased, hnone⟩ := hpads.releaseInput h
  have hcontrol : app.leaveStreamMode.streamControl = some control := hreleased.control
  unfold MoonlightApp.stopStream
  dsimp only
  rw [hcontrol]
  exact ⟨⟨rfl, hreleased.keys⟩, hnone⟩

theorem Tracks.onFocusChanged {app : MoonlightApp F} (htracks : Tracks control app)
    (windowId : UInt32) :
    Tracks control (app.onFocusChanged windowId) ∧
      ∀ vkCode, heldAfter (app.onFocusChanged windowId).wire.delivered vkCode = true →
        heldAfter app.wire.delivered vkCode = true := by
  unfold MoonlightApp.onFocusChanged
  split
  · exact ⟨htracks, fun _ hdown => hdown⟩
  · have hpads := (releaseGamepads_keys htracks.control).tracks htracks
    obtain ⟨hreleased, hnone⟩ := hpads.releaseInput h
    exact ⟨hreleased, fun vkCode hdown => by simp [hnone] at hdown⟩

theorem Tracks.command {app : MoonlightApp F} (htracks : Tracks control app)
    (shortcut : StreamShortcut) (remoteInput : PressedInput F)
    (hkeys : remoteInput.keys = app.remoteInput.keys) :
    let app' : MoonlightApp F := { app with remoteInput }
    let next := match shortcut with
      | .toggleCapture => app'.togglePointerLock
      | .disconnect => app'.stopStream
      | .toggleFullscreen => app'.toggleFullscreen
    Tracks control next ∧ ∀ vkCode, heldAfter next.wire.delivered vkCode = true →
      heldAfter app.wire.delivered vkCode = true := by
  intro app'
  have happ' : Tracks control app' := ⟨htracks.control, fun vkCode => hkeys ▸ htracks.keys vkCode⟩
  have hkeeps : ∀ {next : MoonlightApp F}, KeepsKeys app' next → Tracks control next ∧
      ∀ vkCode, heldAfter next.wire.delivered vkCode = true →
        heldAfter app.wire.delivered vkCode = true := by
    intro next hnext
    refine ⟨hnext.tracks happ', fun vkCode hdown => ?_⟩
    rwa [hnext.held] at hdown
  cases shortcut with
  | toggleCapture =>
      dsimp only
      unfold MoonlightApp.togglePointerLock
      split
      · exact hkeeps (releasePointerLock_keys happ'.control h)
      · unfold MoonlightApp.requestPointerLock
        split
        · exact hkeeps (.refl app')
        · exact hkeeps ⟨rfl, rfl, rfl⟩
  | disconnect =>
      obtain ⟨hstopped, hnone⟩ := happ'.stopStream h
      exact ⟨hstopped, fun vkCode hdown => by simp [hnone] at hdown⟩
  | toggleFullscreen => exact hkeeps ⟨rfl, rfl, rfl⟩

omit h in
theorem handleStreamKey_forwarded {app : MoonlightApp F} {event : KeyEvent}
    (hcontrol : app.streamControl = some control)
    (hclass : app.remoteInput.classifyShortcut event = (.notShortcut, app.remoteInput)) :
    (app.handleStreamKey event).2 =
      (app.withInput fun input => input.sendKey control event).2 := by
  unfold MoonlightApp.handleStreamKey
  rw [hclass]
  dsimp only
  split
  · simp_all
  · rename_i control' hcontrol'
    obtain rfl : control' = control := by simpa [hcontrol'] using hcontrol
    split <;> rename_i hsent <;> rw [hsent]

omit [F32 F] in
/-- A forwarded press puts the key down. -/
theorem Tracks.forwardPress {app : MoonlightApp F} (htracks : Tracks control app)
    {keycode : KeyCode} {vkCode : UInt16} (modifiers : KeyModifiers)
    (hvk : keycodeToVk keycode = some vkCode) :
    let next := (app.withInput fun input =>
      input.sendKey control (.pressed keycode modifiers)).2
    Tracks control next ∧
      heldAfter next.wire.delivered =
        Function.update (heldAfter app.wire.delivered) vkCode true := by
  rw [MoonlightApp.withInput, sendKey_pressed h _ hvk]
  dsimp only
  have hheld : heldAfter (app.wire.delivered ++
      [.keyboard vkCode .press (remoteModifiers modifiers)]) =
        Function.update (heldAfter app.wire.delivered) vkCode true := heldAfter_append _ _
  refine ⟨⟨htracks.control, fun other => ?_⟩, hheld⟩
  rw [hheld, SortedSet.mem_insert, ← htracks.keys]
  by_cases hother : other = vkCode <;> simp [hother, Function.update_of_ne]

omit [F32 F] in
/-- A forwarded release takes the key up. -/
theorem Tracks.forwardRelease {app : MoonlightApp F} (htracks : Tracks control app)
    {keycode : KeyCode} {vkCode : UInt16} (modifiers : KeyModifiers)
    (hvk : keycodeToVk keycode = some vkCode) :
    let next := (app.withInput fun input =>
      input.sendKey control (.released keycode modifiers)).2
    Tracks control next ∧
      heldAfter next.wire.delivered =
        Function.update (heldAfter app.wire.delivered) vkCode false := by
  rw [MoonlightApp.withInput, sendKey_released h _ hvk]
  dsimp only
  have hheld : heldAfter (app.wire.delivered ++
      [.keyboard vkCode .release (remoteModifiers modifiers)]) =
        Function.update (heldAfter app.wire.delivered) vkCode false := heldAfter_append _ _
  refine ⟨⟨htracks.control, fun other => ?_⟩, hheld⟩
  rw [hheld, SortedSet.mem_erase, ← htracks.keys]
  by_cases hother : other = vkCode <;> simp [hother, Function.update_of_ne]

theorem Tracks.pressed {app : MoonlightApp F} (htracks : Tracks control app)
    {keycode : KeyCode} {vkCode : UInt16} (modifiers : KeyModifiers)
    (hvk : keycodeToVk keycode = some vkCode) :
    let next := (app.handleStreamKey (.pressed keycode modifiers)).2
    Tracks control next ∧ ∀ other, heldAfter next.wire.delivered other = true →
      heldAfter app.wire.delivered other = true ∨ other = vkCode := by
  have hforward : app.remoteInput.classifyShortcut (.pressed keycode modifiers) =
      (.notShortcut, app.remoteInput) →
        let next := (app.handleStreamKey (.pressed keycode modifiers)).2
        Tracks control next ∧ ∀ other, heldAfter next.wire.delivered other = true →
          heldAfter app.wire.delivered other = true ∨ other = vkCode := by
    intro hclass
    rw [handleStreamKey_forwarded htracks.control hclass]
    obtain ⟨hnext, hheld⟩ := htracks.forwardPress h modifiers hvk
    refine ⟨hnext, fun other hdown => ?_⟩
    rw [hheld] at hdown
    by_cases hother : other = vkCode
    · exact Or.inr hother
    · rw [Function.update_of_ne hother] at hdown
      exact Or.inl hdown
  by_cases hmods : moonlightShortcutModifiers modifiers
  · cases hcommand : shortcutCommand vkCode with
    | none => exact hforward (by simp [PressedInput.classifyShortcut, hvk, hmods, hcommand])
    | some shortcut =>
        by_cases hsuppressed : vkCode ∈ app.remoteInput.suppressedShortcutKeys
        · have hclass : app.remoteInput.classifyShortcut (.pressed keycode modifiers) =
              (.consumed, app.remoteInput) := by
            simp [PressedInput.classifyShortcut, hvk, hmods, hcommand, hsuppressed]
          unfold MoonlightApp.handleStreamKey
          rw [hclass]
          exact ⟨htracks, fun _ => Or.inl⟩
        · have hclass : app.remoteInput.classifyShortcut (.pressed keycode modifiers) =
              (.command shortcut, { app.remoteInput with
                suppressedShortcutKeys :=
                  app.remoteInput.suppressedShortcutKeys.insert vkCode }) := by
            simp [PressedInput.classifyShortcut, hvk, hmods, hcommand, hsuppressed]
          unfold MoonlightApp.handleStreamKey
          rw [hclass]
          obtain ⟨hnext, hheld⟩ := htracks.command h shortcut { app.remoteInput with
            suppressedShortcutKeys :=
              app.remoteInput.suppressedShortcutKeys.insert vkCode } rfl
          cases shortcut <;> exact ⟨hnext, fun other hdown => Or.inl (hheld other hdown)⟩
  · exact hforward (by simp [PressedInput.classifyShortcut, hvk, hmods])

theorem Tracks.released {app : MoonlightApp F} (htracks : Tracks control app)
    {keycode : KeyCode} {vkCode : UInt16} (modifiers : KeyModifiers)
    (hvk : keycodeToVk keycode = some vkCode) :
    let next := (app.handleStreamKey (.released keycode modifiers)).2
    Tracks control next ∧ ∀ other, heldAfter next.wire.delivered other = true ↔
      heldAfter app.wire.delivered other = true ∧
        (other = vkCode → vkCode ∈ app.remoteInput.suppressedShortcutKeys) := by
  by_cases hsuppressed : vkCode ∈ app.remoteInput.suppressedShortcutKeys
  · have hclass : app.remoteInput.classifyShortcut (.released keycode modifiers) =
        (.consumed, { app.remoteInput with
          suppressedShortcutKeys := app.remoteInput.suppressedShortcutKeys.erase vkCode }) := by
      simp [PressedInput.classifyShortcut, hvk, hsuppressed]
    unfold MoonlightApp.handleStreamKey
    rw [hclass]
    exact ⟨⟨htracks.control, htracks.keys⟩, fun other => by simp [hsuppressed]⟩
  · have hclass : app.remoteInput.classifyShortcut (.released keycode modifiers) =
        (.notShortcut, app.remoteInput) := by
      simp [PressedInput.classifyShortcut, hvk, hsuppressed]
    rw [handleStreamKey_forwarded htracks.control hclass]
    obtain ⟨hnext, hheld⟩ := htracks.forwardRelease h modifiers hvk
    refine ⟨hnext, fun other => ?_⟩
    rw [hheld]
    by_cases hother : other = vkCode <;> simp [hother, hsuppressed, Function.update_of_ne]

omit h in
/-- An event without a virtual key does nothing. -/
theorem handleStreamKey_unmapped {app : MoonlightApp F}
    (hcontrol : app.streamControl = some control) {event : KeyEvent}
    (hvkCode : event.vkCode = none) : (app.handleStreamKey event).2 = app := by
  have hclass : app.remoteInput.classifyShortcut event = (.notShortcut, app.remoteInput) := by
    cases event with
    | char character => rfl
    | pressed keycode modifiers =>
        rw [KeyEvent.vkCode] at hvkCode
        simp only [PressedInput.classifyShortcut, hvkCode]
    | released keycode modifiers =>
        rw [KeyEvent.vkCode] at hvkCode
        simp only [PressedInput.classifyShortcut, hvkCode]
  have hsend : (app.remoteInput.sendKey control event).run app.wire =
      ((.ok false, app.remoteInput), app.wire) := by
    cases event with
    | char character => rfl
    | pressed keycode modifiers =>
        rw [KeyEvent.vkCode] at hvkCode
        simp only [PressedInput.sendKey, hvkCode]
        rfl
    | released keycode modifiers =>
        rw [KeyEvent.vkCode] at hvkCode
        simp only [PressedInput.sendKey, hvkCode]
        rfl
  rw [handleStreamKey_forwarded hcontrol hclass, MoonlightApp.withInput, hsend]

end Session

/-- The app when a connection starts: nothing was sent to its host yet. -/
def MoonlightApp.started (app : MoonlightApp F) (control : ConnectionControl F) :
    MoonlightApp F :=
  { app with
    streamControl := some control
    wire := {}
    remoteInput := { app.remoteInput with keys := ∅ } }

/-- The app and the virtual keys that are physically down. -/
structure KeySession (F : Type) where
  app : MoonlightApp F
  down : UInt16 → Bool

inductive KeyOp
  | key (event : KeyEvent)
  | focusChanged (windowId : UInt32)

namespace KeySession

def step [F32 F] (session : KeySession F) : KeyOp → Option (KeySession F)
  | .key event => some ⟨(session.app.handleStreamKey event).2, event.move session.down⟩
  | .focusChanged windowId => some ⟨session.app.onFocusChanged windowId, session.down⟩

/-- The host holds only keys that are physically down. -/
def Contained (session : KeySession F) : Prop :=
  ∀ vkCode, heldAfter session.app.wire.delivered vkCode = true → session.down vkCode = true

/-- The event is the release of a key that is tracked as sent and suppressed as a
shortcut at once. -/
def Swallows (session : KeySession F) : KeyOp → Prop
  | .key (.released keycode _) => ∃ vkCode, keycodeToVk keycode = some vkCode ∧
      vkCode ∈ session.app.remoteInput.keys ∧
        vkCode ∈ session.app.remoteInput.suppressedShortcutKeys
  | .key (.pressed _ _) => False
  | .key (.char _) => False
  | .focusChanged _ => False

section

variable [F32 F] {control : ConnectionControl F} (h : control.Reliable)

include h

theorem step_tracks {session next : KeySession F} {op : KeyOp}
    (htracks : Tracks control session.app) (hstep : session.step op = some next) :
    Tracks control next.app := by
  cases op with
  | focusChanged windowId =>
      cases hstep
      exact (htracks.onFocusChanged h windowId).1
  | key event =>
      cases hstep
      dsimp only
      cases hvkCode : event.vkCode with
      | none => exact (handleStreamKey_unmapped htracks.control hvkCode).symm ▸ htracks
      | some vkCode =>
          cases event with
          | char character => cases hvkCode
          | pressed keycode modifiers => exact (htracks.pressed h modifiers hvkCode).1
          | released keycode modifiers => exact (htracks.released h modifiers hvkCode).1

theorem step_contained {session next : KeySession F} {op : KeyOp}
    (htracks : Tracks control session.app) (hcontained : session.Contained)
    (hstep : session.step op = some next) : next.Contained ↔ ¬session.Swallows op := by
  cases op with
  | focusChanged windowId =>
      cases hstep
      exact iff_of_true (fun vkCode hdown =>
        hcontained vkCode ((htracks.onFocusChanged h windowId).2 vkCode hdown)) id
  | key event =>
      cases hstep
      cases hvkCode : event.vkCode with
      | none =>
          have hnext := handleStreamKey_unmapped htracks.control hvkCode
          rw [KeyEvent.move, hvkCode, hnext]
          apply iff_of_true hcontained
          cases event with
          | char character => exact id
          | pressed keycode modifiers => exact id
          | released keycode modifiers =>
              rintro ⟨vkCode, hvk, -⟩
              rw [KeyEvent.vkCode, hvk] at hvkCode
              cases hvkCode
      | some vkCode =>
          rw [KeyEvent.move, hvkCode]
          cases event with
          | char character => cases hvkCode
          | pressed keycode modifiers =>
              refine iff_of_true (fun other hdown => ?_) id
              by_cases hother : other = vkCode
              · simp [hother, KeyEvent.isPress]
              · rcases (htracks.pressed h modifiers hvkCode).2 other hdown with hdown | hsame
                · simpa [hother] using hcontained other hdown
                · exact absurd hsame hother
          | released keycode modifiers =>
              have hheld := (htracks.released h modifiers hvkCode).2
              constructor
              · rintro hnext ⟨swallowed, hvk, hkey, hsuppressed⟩
                obtain rfl : swallowed = vkCode := by
                  rw [KeyEvent.vkCode, hvk] at hvkCode
                  exact Option.some.inj hvkCode
                have hdown := hnext swallowed
                  ((hheld swallowed).mpr ⟨(htracks.keys swallowed).mpr hkey, fun _ => hsuppressed⟩)
                simp [KeyEvent.isPress] at hdown
              · intro hforwarded other hdown
                obtain ⟨hbefore, hkept⟩ := (hheld other).mp hdown
                by_cases hother : other = vkCode
                · subst hother
                  exact absurd ⟨other, hvkCode, (htracks.keys other).mp hbefore, hkept rfl⟩
                    hforwarded
                · simpa [hother] using hcontained other hbefore

end

end KeySession

/-- In every run over a reliable connection the host holds only keys that are
physically down, exactly if no release of a sent key is kept back for a shortcut. -/
theorem held_keys_down_iff [F32 F] {control : ConnectionControl F} (h : control.Reliable)
    (app : MoonlightApp F) (down : UInt16 → Bool) (ops : List KeyOp) :
    Always KeySession.step KeySession.Contained ⟨app.started control, down⟩ ops ↔
      Meets KeySession.step (fun session op => ¬session.Swallows op)
        ⟨app.started control, down⟩ ops := by
  have hinit : Tracks control (app.started control) :=
    ⟨rfl, fun vkCode => by simp [MoonlightApp.started, heldAfter]⟩
  exact always_iff_meets (J := fun session => Tracks control session.app) (L := fun _ => True)
    (fun _ _ _ _ => KeySession.step_tracks h)
    (fun _ _ _ _ => KeySession.step_contained h) hinit
    (fun vkCode hdown => by simp [MoonlightApp.started, heldAfter] at hdown) fun _ _ => trivial

/-- A press of Z went out before Ctrl, Alt and Shift turned its repeat into a
shortcut; the release is then kept back. -/
theorem stuck_after_shortcut :
    let control : ConnectionControl Rat := ⟨fun _ => .ok false, fun _ _ => .ok ()⟩
    let z : KeyCode := .char 'z'
    let shortcut : KeyModifiers := { shift := true, control := true, alt := true }
    ∃ session, run KeySession.step ⟨({} : MoonlightApp Rat).started control, fun _ => false⟩
        [.key (.pressed z {}), .key (.pressed z shortcut), .key (.released z {})] =
          some session ∧
      heldAfter session.app.wire.delivered 0x5A = true ∧ session.down 0x5A = false :=
  ⟨_, rfl, by decide +kernel, by decide +kernel⟩

/-- A key that is pressed before the focus is lost and released after it. -/
theorem held_keys_down_iff_focus_loss :
    let control : ConnectionControl Rat := ⟨fun _ => .ok false, fun _ _ => .ok ()⟩
    Always KeySession.step KeySession.Contained
      ⟨({} : MoonlightApp Rat).started control, fun _ => false⟩
      [.key (.pressed .up {}), .focusChanged 7, .key (.released .up {})] := by
  intro control
  refine (held_keys_down_iff (fun _ _ => rfl) {} _ _).mpr ?_
  rintro _ ⟨⟩
  refine ⟨id, ?_⟩
  rintro _ ⟨⟩
  refine ⟨id, ?_⟩
  rintro _ ⟨⟩
  refine ⟨?_, trivial⟩
  rintro ⟨vkCode, ⟨⟩, -, hsuppressed⟩
  exact absurd hsuppressed (by decide +kernel)

end MoonlightScarlet.App
