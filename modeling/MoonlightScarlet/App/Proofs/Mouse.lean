import MoonlightScarlet.App.Window
import MoonlightScarlet.App.Proofs.Keys
import MoonlightScarlet.Support.Words
/-!
# Mouse buttons across changes of the capture

`Mouse` is what the handlers keep about the buttons, as sets of buttons.  The
handlers of the application act on it like its own operations, and the joint
invariant of the host, the masks and the lock is kept by these.
-/

namespace MoonlightScarlet.App

open Sys Support Support.Runs

variable {F : Type}

def receiveButton (held : MouseButton → Bool) : Input F → MouseButton → Bool
  | .mouseButton button .press => Function.update held button true
  | .mouseButton button .release => Function.update held button false
  | _ => held

/-- The mouse buttons that are down on the host after these inputs. -/
def buttonsAfter (delivered : List (Input F)) : MouseButton → Bool :=
  delivered.foldl receiveButton fun _ => false

/-- The buttons of a mask. -/
def buttonIn (mask : BitVec 8) (button : MouseButton) : Bool :=
  mask &&& mouseButtonBit button != 0

/-! ## The buttons as sets -/

@[ext] structure Mouse where
  held : MouseButton → Bool
  tracked : MouseButton → Bool
  suppressed : MouseButton → Bool
  applied : Bool

namespace Mouse

def forward (mouse : Mouse) (button : MouseButton) (pressed : Bool) : Mouse :=
  { mouse with
    held := Function.update mouse.held button pressed
    tracked := Function.update mouse.tracked button pressed }

def suppress (mouse : Mouse) (button : MouseButton) (pressed : Bool) : Mouse :=
  { mouse with suppressed := Function.update mouse.suppressed button pressed }

/-- A press before the capture only asks for it, and its release stays local too. -/
def button (mouse : Mouse) (button : MouseButton) (pressed : Bool) : Mouse :=
  if !pressed && mouse.suppressed button then mouse.suppress button false
  else if mouse.applied then mouse.forward button pressed
  else if pressed then mouse.suppress button true
  else mouse

section Button

variable {mouse : Mouse} {button : MouseButton}

theorem button_forward {pressed : Bool} (happlied : mouse.applied = true)
    (hkept : pressed = true ∨ mouse.suppressed button = false) :
    mouse.button button pressed = mouse.forward button pressed := by
  unfold Mouse.button
  rw [if_neg (by rcases hkept with hkept | hkept <;> simp [hkept]), if_pos happlied]

theorem button_early (happlied : mouse.applied = false) :
    mouse.button button true = mouse.suppress button true := by
  simp [Mouse.button, happlied]

theorem button_consumed (hkept : mouse.suppressed button = true) :
    mouse.button button false = mouse.suppress button false := by
  simp [Mouse.button, hkept]

theorem button_missed (hkept : mouse.suppressed button = false) (happlied : mouse.applied = false) :
    mouse.button button false = mouse := by
  simp [Mouse.button, hkept, happlied]

end Button

def letGo (mouse : Mouse) : Mouse where
  held button := mouse.held button && !mouse.tracked button
  tracked _ := false
  suppressed _ := false
  applied := mouse.applied

def changed (mouse : Mouse) (locked : Bool) : Mouse :=
  if locked then { mouse with applied := locked }
  else { mouse with applied := locked }.letGo

/-- The host holds the tracked buttons; they and the suppressed ones are physically
down and differ; and none is tracked without the lock. -/
structure Sound (mouse : Mouse) (down : MouseButton → Bool) : Prop where
  held : mouse.held = mouse.tracked
  tracked : ∀ button, mouse.tracked button = true → down button = true
  applied : mouse.applied = false → ∀ button, mouse.tracked button = false
  suppressed : ∀ button, mouse.suppressed button = true →
    down button = true ∧ mouse.tracked button = false

section Sound

variable {mouse : Mouse} {down : MouseButton → Bool} (h : mouse.Sound down)

include h

theorem Sound.letGo : mouse.letGo.Sound down where
  held := by
    funext button
    simp [Mouse.letGo, h.held]
  tracked button htracked := by simp [Mouse.letGo] at htracked
  applied _ _ := rfl
  suppressed button hsuppressed := by simp [Mouse.letGo] at hsuppressed

theorem Sound.changed (locked : Bool) : (mouse.changed locked).Sound down := by
  cases locked with
  | true =>
      exact ⟨h.held, h.tracked, fun hlocked => by simp [Mouse.changed] at hlocked, h.suppressed⟩
  | false =>
      have hgone := h.letGo
      exact ⟨hgone.held, hgone.tracked, fun _ _ => rfl, hgone.suppressed⟩

theorem Sound.forward {button : MouseButton} {pressed : Bool} (happlied : mouse.applied = true)
    (hdown : down button = !pressed)
    (hconsumed : pressed = true ∨ mouse.suppressed button = false) :
    (mouse.forward button pressed).Sound (Function.update down button pressed) where
  held := by
    simp only [Mouse.forward, h.held]
  tracked other htracked := by
    simp only [Mouse.forward] at htracked
    by_cases hother : other = button
    · simpa [hother] using htracked
    · simp only [Function.update_of_ne hother] at htracked ⊢
      exact h.tracked other htracked
  applied hnot := by simp [Mouse.forward, happlied] at hnot
  suppressed other hsuppressed := by
    simp only [Mouse.forward] at hsuppressed ⊢
    obtain ⟨hphysical, hnot⟩ := h.suppressed other hsuppressed
    by_cases hother : other = button
    · subst hother
      -- A suppressed button is down, so this is its release, which is not forwarded.
      rw [hphysical] at hdown
      simp_all
    · simp only [Function.update_of_ne hother]
      exact ⟨hphysical, hnot⟩

theorem Sound.suppress_press {button : MouseButton} (hdown : down button = false) :
    (mouse.suppress button true).Sound (Function.update down button true) where
  held := h.held
  tracked other htracked := by
    by_cases hother : other = button
    · simp [hother]
    · simpa [hother] using h.tracked other htracked
  applied := h.applied
  suppressed other hsuppressed := by
    simp only [Mouse.suppress] at hsuppressed ⊢
    by_cases hother : other = button
    · subst hother
      refine ⟨by simp, ?_⟩
      cases htracked : mouse.tracked other with
      | false => rfl
      | true => simp [h.tracked other htracked] at hdown
    · simp only [Function.update_of_ne hother] at hsuppressed ⊢
      exact h.suppressed other hsuppressed

theorem Sound.suppress_release {button : MouseButton}
    (hsuppressed : mouse.suppressed button = true) :
    (mouse.suppress button false).Sound (Function.update down button false) where
  held := h.held
  tracked other htracked := by
    by_cases hother : other = button
    · subst hother
      exact absurd ((h.suppressed other hsuppressed).2.symm.trans htracked) Bool.false_ne_true
    · simpa [hother] using h.tracked other htracked
  applied := h.applied
  suppressed other hother := by
    simp only [Mouse.suppress] at hother ⊢
    by_cases hsame : other = button
    · simp [hsame] at hother
    · simp only [Function.update_of_ne hsame] at hother ⊢
      exact h.suppressed other hother

theorem Sound.released_elsewhere {button : MouseButton} (happlied : mouse.applied = false)
    (hconsumed : mouse.suppressed button = false) :
    mouse.Sound (Function.update down button false) where
  held := h.held
  tracked other htracked := by simp [h.applied happlied other] at htracked
  applied := h.applied
  suppressed other hsuppressed := by
    by_cases hother : other = button
    · simp [hother, hconsumed] at hsuppressed
    · simpa [hother] using h.suppressed other hsuppressed

/-- One event of a physical button keeps the invariant. -/
theorem Sound.button {button : MouseButton} {pressed : Bool} (hdown : down button = !pressed) :
    (mouse.button button pressed).Sound (Function.update down button pressed) := by
  cases pressed with
  | true =>
      cases happlied : mouse.applied with
      | true =>
          rw [button_forward happlied (Or.inl rfl)]
          exact h.forward happlied hdown (Or.inl rfl)
      | false =>
          rw [button_early happlied]
          exact h.suppress_press hdown
  | false =>
      cases hsuppressed : mouse.suppressed button with
      | true =>
          rw [button_consumed hsuppressed]
          exact h.suppress_release hsuppressed
      | false =>
          cases happlied : mouse.applied with
          | true =>
              rw [button_forward happlied (Or.inr hsuppressed)]
              exact h.forward happlied hdown (Or.inr hsuppressed)
          | false =>
              rw [button_missed hsuppressed happlied]
              exact h.released_elsewhere happlied hsuppressed

end Sound

end Mouse

/-! ## Masks and packets -/

theorem buttonIn_zero (button : MouseButton) : buttonIn 0 button = false := by
  cases button <;> rfl

/-- The place of a button's bit. -/
def buttonPlace : MouseButton → Nat
  | .left => 0
  | .middle => 1
  | .right => 2

theorem buttonPlace_lt (button : MouseButton) : buttonPlace button < 8 := by
  cases button <;> decide

theorem buttonPlace_inj {button other : MouseButton} :
    buttonPlace button = buttonPlace other ↔ button = other := by
  cases button <;> cases other <;> decide

theorem mouseButtonBit_eq (button : MouseButton) :
    mouseButtonBit button = BitVec.twoPow 8 (buttonPlace button) := by
  cases button <;> rfl

theorem buttonIn_eq (mask : BitVec 8) (button : MouseButton) :
    buttonIn mask button = mask.getLsbD (buttonPlace button) := by
  rw [Bool.eq_iff_iff, buttonIn, bne_iff_ne, mouseButtonBit_eq]
  exact Support.Words.and_twoPow_ne_zero mask (buttonPlace_lt button)

theorem buttonIn_or (mask : BitVec 8) (button : MouseButton) :
    buttonIn (mask ||| mouseButtonBit button) = Function.update (buttonIn mask) button true := by
  funext other
  rw [Function.update_apply, buttonIn_eq, buttonIn_eq, mouseButtonBit_eq, BitVec.getLsbD_or,
    BitVec.getLsbD_twoPow]
  by_cases heq : other = button
  · simp [heq, buttonPlace_lt]
  · simp [heq, Ne.symm heq, buttonPlace_inj]

theorem buttonIn_and_not (mask : BitVec 8) (button : MouseButton) :
    buttonIn (mask &&& ~~~mouseButtonBit button) =
      Function.update (buttonIn mask) button false := by
  funext other
  rw [Function.update_apply, buttonIn_eq, buttonIn_eq, mouseButtonBit_eq, BitVec.getLsbD_and,
    BitVec.getLsbD_not, BitVec.getLsbD_twoPow]
  by_cases heq : other = button
  · simp [heq, buttonPlace_lt]
  · simp [heq, Ne.symm heq, buttonPlace_inj, buttonPlace_lt]

theorem buttonsAfter_append (delivered new : List (Input F)) :
    buttonsAfter (delivered ++ new) = new.foldl receiveButton (buttonsAfter delivered) :=
  List.foldl_append

theorem foldl_receiveButton_other {inputs : List (Input F)} (held : MouseButton → Bool)
    (h : ∀ button action, .mouseButton button action ∉ inputs) :
    inputs.foldl receiveButton held = held := by
  apply foldl_unchanged
  intro input hmem
  cases input with
  | mouseButton button action => exact absurd hmem (h button action)
  | _ => rfl

theorem buttonReleases_eq_map (mask : BitVec 8) :
    (PressedInput.buttonReleases mask : List (Input F)) =
      (([.left, .middle, .right] : List MouseButton).filter (buttonIn mask)).map
        fun button => .mouseButton button .release := by
  rw [PressedInput.buttonReleases, ← List.filterMap_eq_map, List.filterMap_filter]
  apply List.filterMap_congr
  intro button _
  simp [buttonIn]

theorem foldl_receiveButton_releases (mask : BitVec 8) (held : MouseButton → Bool) :
    (PressedInput.buttonReleases mask : List (Input F)).foldl receiveButton held =
      fun button => held button && !buttonIn mask button := by
  have hall (button : MouseButton) : button ∈ ([.left, .middle, .right] : List MouseButton) := by
    cases button <;> simp
  rw [buttonReleases_eq_map, List.foldl_map]
  refine (foldl_update_false _ held).trans (funext fun button => ?_)
  simp only [List.mem_filter, hall, true_and, Bool.decide_eq_true]

/-! ## The handlers act on the sets -/

def MoonlightApp.mouse (app : MoonlightApp F) : Mouse where
  held := buttonsAfter app.wire.delivered
  tracked := buttonIn app.remoteInput.mouseButtons
  suppressed := buttonIn app.remoteInput.suppressedMouseButtons
  applied := app.pointerLockApplied

/-- No contact is played as the left mouse button. -/
def NoFallback (touches : Touch.TouchInput F) : Prop :=
  touches.native = some true ∨ touches.contacts = []

/-- A handler that acts on the mouse as `act`, within one connection. -/
structure Acts (control : ConnectionControl F) (act : Mouse → Mouse) (app next : MoonlightApp F) :
    Prop where
  control : next.streamControl = some control
  touches : NoFallback next.remoteInput.touches
  mouse : next.mouse = act app.mouse

theorem Acts.trans {control : ConnectionControl F} {act act' : Mouse → Mouse}
    {app next final : MoonlightApp F} (h : Acts control act app next)
    (h' : Acts control act' next final) :
    Acts control (fun mouse => act' (act mouse)) app final where
  control := h'.control
  touches := h'.touches
  mouse := h'.mouse.trans (congrArg act' h.mouse)

theorem button_not_mem_releaseTo [F32 F] {touches : Touch.TouchInput F} (h : NoFallback touches)
    (sink : Touch.TouchSink F) (button : MouseButton) (action : InputAction) :
    .mouseButton button action ∉ (touches.releaseTo sink).delivered.map Input.ofTouch := by
  unfold Touch.TouchInput.releaseTo
  split
  · simp
  · rename_i hcontacts
    have hnative : touches.native = some true := by
      rcases h with hnative | hnone
      · exact hnative
      · simp [hnone] at hcontacts
    rw [if_pos hnative]
    rcases Touch.attempt_cases sink (.touch .cancelAll 0 F32.zero F32.zero) with
      ⟨-, hsent⟩ | ⟨error, -, hsent⟩ <;> rw [hsent] <;> simp [Input.ofTouch]

theorem consumeSuppressed_of_in {state : PressedInput F} {button : MouseButton}
    (h : buttonIn state.suppressedMouseButtons button = true) :
    state.consumeSuppressedMouseRelease button =
      (true, { state with
        suppressedMouseButtons := state.suppressedMouseButtons &&& ~~~mouseButtonBit button }) :=
  if_neg (bne_iff_ne.mp h)

theorem consumeSuppressed_of_not_in {state : PressedInput F} {button : MouseButton}
    (h : buttonIn state.suppressedMouseButtons button = false) :
    state.consumeSuppressedMouseRelease button = (false, state) :=
  if_pos (bne_eq_false_iff_eq.mp h)

theorem handleStreamMouseButton_forwarded {app : MoonlightApp F} {control : ConnectionControl F}
    (hcontrol : app.streamControl = some control) (happlied : app.pointerLockApplied = true)
    {button : MouseButton} {pressed : Bool}
    (hkept : pressed = true ∨ buttonIn app.remoteInput.suppressedMouseButtons button = false) :
    (app.handleStreamMouseButton button pressed).2 =
      (app.withInput fun input => input.sendMouseButton control button pressed).2 := by
  have hdispatch : (if pressed then (false, app.remoteInput)
      else app.remoteInput.consumeSuppressedMouseRelease button) = (false, app.remoteInput) := by
    rcases hkept with rfl | hkept
    · rfl
    · rw [consumeSuppressed_of_not_in hkept, ite_self]
  unfold MoonlightApp.handleStreamMouseButton
  rw [hdispatch]
  dsimp only
  rw [if_neg Bool.false_ne_true, if_neg (by simp [happlied])]
  split <;> rename_i hsome
  · simp [hcontrol] at hsome
  · obtain rfl := Option.some.inj (hcontrol.symm.trans hsome)
    rfl

theorem handleStreamMouseButton_early {app : MoonlightApp F}
    (happlied : app.pointerLockApplied = false) (button : MouseButton) :
    (app.handleStreamMouseButton button true).2 =
      { app with
        remoteInput := app.remoteInput.suppressCaptureClick button }.requestPointerLock := by
  unfold MoonlightApp.handleStreamMouseButton
  rw [if_pos rfl]
  dsimp only
  rw [if_neg Bool.false_ne_true, if_pos (by simp [happlied]), if_pos rfl]

theorem handleStreamMouseButton_consumed {app : MoonlightApp F} {button : MouseButton}
    (hkept : buttonIn app.remoteInput.suppressedMouseButtons button = true) :
    (app.handleStreamMouseButton button false).2 =
      { app with remoteInput := { app.remoteInput with
        suppressedMouseButtons :=
          app.remoteInput.suppressedMouseButtons &&& ~~~mouseButtonBit button } } := by
  unfold MoonlightApp.handleStreamMouseButton
  rw [if_neg Bool.false_ne_true, consumeSuppressed_of_in hkept]
  rfl

theorem handleStreamMouseButton_missed {app : MoonlightApp F} {button : MouseButton}
    (hkept : buttonIn app.remoteInput.suppressedMouseButtons button = false)
    (happlied : app.pointerLockApplied = false) :
    (app.handleStreamMouseButton button false).2 = app := by
  unfold MoonlightApp.handleStreamMouseButton
  rw [if_neg Bool.false_ne_true, consumeSuppressed_of_not_in hkept]
  dsimp only
  rw [if_neg Bool.false_ne_true, if_pos (by simp [happlied]), if_neg Bool.false_ne_true]

section Handlers

variable {app : MoonlightApp F} {control : ConnectionControl F}
  (hcontrol : app.streamControl = some control) (htouches : NoFallback app.remoteInput.touches)

include hcontrol htouches

theorem Acts.of_same {next : MoonlightApp F} (hsame : next.streamControl = app.streamControl)
    (htouch : next.remoteInput.touches = app.remoteInput.touches)
    (hmouse : next.mouse = app.mouse) : Acts control id app next :=
  ⟨hsame.trans hcontrol, htouch ▸ htouches, hmouse⟩

theorem requestPointerLock_acts : Acts control id app app.requestPointerLock := by
  unfold MoonlightApp.requestPointerLock
  split <;> exact .of_same hcontrol htouches rfl rfl rfl

theorem releaseGamepads_acts : Acts control id app app.releaseGamepads := by
  unfold MoonlightApp.releaseGamepads
  rw [hcontrol]
  refine ⟨rfl, htouches, ?_⟩
  have hheld (deliveries : List Gamepad.Delivery) :
      buttonsAfter (app.wire.delivered ++ deliveries.map fun delivery =>
        .controller delivery.packet) = buttonsAfter app.wire.delivered := by
    rw [buttonsAfter_append]
    exact foldl_receiveButton_other _ (by simp)
  exact Mouse.ext (hheld _) rfl rfl rfl

variable (h : control.Reliable)

include h

theorem releaseMouse_acts :
    Acts control Mouse.letGo app
      (app.withInput fun input => input.releaseMouse app.streamControl).2 := by
  unfold MoonlightApp.withInput
  rw [hcontrol, releaseMouse_reliable h]
  refine ⟨rfl, htouches, ?_⟩
  refine Mouse.ext ?_ (funext buttonIn_zero) (funext buttonIn_zero) rfl
  exact (buttonsAfter_append _ _).trans (foldl_receiveButton_releases _ _)

theorem releasePointerLock_acts : Acts control Mouse.letGo app app.releasePointerLock :=
  have hreleased := releaseMouse_acts hcontrol htouches h
  ⟨hreleased.control, hreleased.touches, hreleased.mouse⟩

theorem releaseInput_acts [F32 F] : Acts control Mouse.letGo app app.releaseInput := by
  have hrun := releaseAll_reliable h app.remoteInput app.wire
  rw [← hcontrol] at hrun
  obtain ⟨result, turn, hrun⟩ := hrun
  unfold MoonlightApp.releaseInput MoonlightApp.withInput
  rw [hrun]
  refine ⟨hcontrol, Or.inr rfl, ?_⟩
  refine Mouse.ext ?_ (funext buttonIn_zero) (funext buttonIn_zero) rfl
  have hkeys (button : MouseButton) (action : InputAction) : .mouseButton button action ∉
      app.remoteInput.keys.toList.map fun keyCode => (.keyboard keyCode .release {} : Input F) := by
    simp
  show buttonsAfter _ = _
  rw [buttonsAfter_append, buttonsAfter_append, buttonsAfter_append,
    foldl_receiveButton_other _ (button_not_mem_releaseTo htouches _),
    foldl_receiveButton_other _ hkeys, foldl_receiveButton_releases]
  rfl

theorem togglePointerLock_acts :
    ∃ act, (act = id ∨ act = Mouse.letGo) ∧ Acts control act app app.togglePointerLock := by
  unfold MoonlightApp.togglePointerLock
  split
  · exact ⟨_, Or.inr rfl, releasePointerLock_acts hcontrol htouches h⟩
  · exact ⟨_, Or.inl rfl, requestPointerLock_acts hcontrol htouches⟩

theorem leaveStreamMode_acts [F32 F] : Acts control Mouse.letGo app app.leaveStreamMode :=
  have hpads := releaseGamepads_acts hcontrol htouches
  have hreleased := hpads.trans (releaseInput_acts hpads.control hpads.touches h)
  ⟨hreleased.control, hreleased.touches, hreleased.mouse⟩

theorem onFocusChanged_acts [F32 F] (windowId : UInt32) :
    ∃ act, (act = id ∨ act = Mouse.letGo) ∧ Acts control act app (app.onFocusChanged windowId) := by
  unfold MoonlightApp.onFocusChanged
  split
  · exact ⟨_, Or.inl rfl, .of_same hcontrol htouches rfl rfl rfl⟩
  · have hpads := releaseGamepads_acts hcontrol htouches
    exact ⟨_, Or.inr rfl, hpads.trans (releaseInput_acts hpads.control hpads.touches h)⟩

theorem sendMouseButton_acts (button : MouseButton) (pressed : Bool) :
    Acts control (fun mouse => mouse.forward button pressed) app
      (app.withInput fun input => input.sendMouseButton control button pressed).2 := by
  unfold MoonlightApp.withInput
  rw [sendMouseButton_reliable h]
  refine ⟨hcontrol, htouches, ?_⟩
  cases pressed with
  | true => exact Mouse.ext (buttonsAfter_append _ _) (buttonIn_or _ _) rfl rfl
  | false => exact Mouse.ext (buttonsAfter_append _ _) (buttonIn_and_not _ _) rfl rfl

theorem handleStreamMouseButton_acts (button : MouseButton) (pressed : Bool) :
    Acts control (fun mouse => mouse.button button pressed) app
      (app.handleStreamMouseButton button pressed).2 := by
  have hforward (happlied : app.pointerLockApplied = true)
      (hkept : pressed = true ∨ buttonIn app.remoteInput.suppressedMouseButtons button = false) :
      Acts control (fun mouse => mouse.button button pressed) app
        (app.handleStreamMouseButton button pressed).2 := by
    rw [handleStreamMouseButton_forwarded hcontrol happlied hkept]
    have hsent := sendMouseButton_acts hcontrol htouches h button pressed
    exact ⟨hsent.control, hsent.touches,
      hsent.mouse.trans (Mouse.button_forward happlied hkept).symm⟩
  cases pressed with
  | true =>
      cases happlied : app.pointerLockApplied with
      | true => exact hforward happlied (Or.inl rfl)
      | false =>
          rw [handleStreamMouseButton_early happlied]
          let asking : MoonlightApp F :=
            { app with remoteInput := app.remoteInput.suppressCaptureClick button }
          have hasked : Acts control id asking asking.requestPointerLock :=
            requestPointerLock_acts hcontrol htouches
          refine ⟨hasked.control, hasked.touches, hasked.mouse.trans ?_⟩
          rw [Mouse.button_early happlied]
          exact Mouse.ext rfl rfl (buttonIn_or _ _) rfl
  | false =>
      cases hsuppressed : buttonIn app.remoteInput.suppressedMouseButtons button with
      | true =>
          rw [handleStreamMouseButton_consumed hsuppressed]
          refine ⟨hcontrol, htouches, ?_⟩
          rw [Mouse.button_consumed hsuppressed]
          exact Mouse.ext rfl rfl (buttonIn_and_not _ _) rfl
      | false =>
          cases happlied : app.pointerLockApplied with
          | true => exact hforward happlied (Or.inr hsuppressed)
          | false =>
              rw [handleStreamMouseButton_missed hsuppressed happlied]
              exact ⟨hcontrol, htouches, (Mouse.button_missed hsuppressed happlied).symm⟩

end Handlers

/-! ## Runs of one connection -/

/-- The app when a connection starts, with no button tracked and no input sent yet. -/
def WindowApp.connected (app : WindowApp F) (control : ConnectionControl F) : WindowApp F :=
  { app with
    streamControl := some control
    wire := {}
    remoteInput := { app.remoteInput with mouseButtons := 0, suppressedMouseButtons := 0 } }

/-- The app and the mouse buttons that are physically down. -/
structure MouseSession (F : Type) where
  app : WindowApp F
  down : MouseButton → Bool

inductive MouseOp
  | button (button : MouseButton) (pressed : Bool)
  | requestPointerLock
  | releasePointerLock
  | togglePointerLock
  | leaveStreamMode
  | pointerLockChanged (locked : Bool)
  | focusChanged (windowId : UInt32)

namespace MouseSession

/-- The events of one physical button alternate. -/
def step [F32 F] (session : MouseSession F) : MouseOp → Option (MouseSession F)
  | .button button pressed =>
      if session.down button = pressed then none
      else
        some ⟨session.app.onStream fun app => (app.handleStreamMouseButton button pressed).2,
          Function.update session.down button pressed⟩
  | .requestPointerLock => some ⟨session.app.onStream (·.requestPointerLock), session.down⟩
  | .releasePointerLock => some ⟨session.app.onStream (·.releasePointerLock), session.down⟩
  | .togglePointerLock => some ⟨session.app.onStream (·.togglePointerLock), session.down⟩
  | .leaveStreamMode => some ⟨session.app.onStream (·.leaveStreamMode), session.down⟩
  | .pointerLockChanged locked =>
      some ⟨session.app.onWindowPointerLockChanged locked, session.down⟩
  | .focusChanged windowId =>
      some ⟨session.app.onStream (·.onFocusChanged windowId), session.down⟩

/-- The mouse buttons that are down on the host. -/
def held (session : MouseSession F) : MouseButton → Bool :=
  buttonsAfter session.app.wire.delivered

def tracked (session : MouseSession F) : MouseButton → Bool :=
  buttonIn session.app.remoteInput.mouseButtons

def suppressed (session : MouseSession F) : MouseButton → Bool :=
  buttonIn session.app.remoteInput.suppressedMouseButtons

structure Unstuck [F32 F] (session : MouseSession F) : Prop where
  tracked : session.held = session.tracked
  contained : ∀ button, session.held button = true → session.down button = true
  unapplied : session.app.pointerLockApplied = false → ∀ button, session.held button = false
  /-- A press without the lock is not sent. -/
  local_press : ∀ button next, session.app.pointerLockApplied = false →
    session.step (.button button true) = some next → next.app.wire = session.app.wire
  suppressed : ∀ button, session.suppressed button = true →
    session.down button = true ∧ session.held button = false
  released : ∀ button next, session.step (.button button false) = some next →
    next.held button = false ∧ next.tracked button = false ∧ next.suppressed button = false

/-- The invariant of one connection. -/
structure Kept (control : ConnectionControl F) (session : MouseSession F) : Prop where
  control : session.app.streamControl = some control
  touches : NoFallback session.app.remoteInput.touches
  sound : session.app.mouse.Sound session.down

theorem Kept.of_letGo {control : ConnectionControl F} {session : MouseSession F}
    (hkept : Kept control session) {act : Mouse → Mouse} (hact : act = id ∨ act = Mouse.letGo)
    {next : MoonlightApp F} (hacts : Acts control act session.app.toMoonlightApp next) :
    Kept control ⟨session.app.onStream fun _ => next, session.down⟩ := by
  refine ⟨hacts.control, hacts.touches, ?_⟩
  show Mouse.Sound next.mouse session.down
  rw [hacts.mouse]
  rcases hact with rfl | rfl
  · exact hkept.sound
  · exact hkept.sound.letGo

section

variable [F32 F] {control : ConnectionControl F} (h : control.Reliable)

include h

omit [F32 F] in
theorem Kept.pointerLockChanged {session : MouseSession F} (hkept : Kept control session)
    (locked : Bool) :
    Kept control ⟨session.app.onWindowPointerLockChanged locked, session.down⟩ := by
  have hsound := hkept.sound.changed locked
  cases locked with
  | true => exact ⟨hkept.control, hkept.touches, hsound⟩
  | false =>
      let unlocked : MoonlightApp F := { session.app.toMoonlightApp with
        pointerLockApplied := false, pointerLockDesired := false }
      have hreleased : Acts control Mouse.letGo unlocked
          (unlocked.withInput fun input => input.releaseMouse unlocked.streamControl).2 :=
        releaseMouse_acts hkept.control hkept.touches h
      have hmouse : Mouse.Sound
          (unlocked.withInput fun input => input.releaseMouse unlocked.streamControl).2.mouse
          session.down := by
        rw [hreleased.mouse]
        exact hsound
      unfold WindowApp.onWindowPointerLockChanged
      dsimp only
      rw [if_neg Bool.false_ne_true]
      split <;> exact ⟨hreleased.control, hreleased.touches, hmouse⟩

theorem step_kept {session next : MouseSession F} {op : MouseOp} (hkept : Kept control session)
    (hstep : session.step op = some next) : Kept control next := by
  have hcontrol := hkept.control
  have htouches := hkept.touches
  cases op with
  | button button pressed =>
      simp only [step] at hstep
      split at hstep
      · cases hstep
      · rename_i hdown
        cases hstep
        have hacts := handleStreamMouseButton_acts hcontrol htouches h button pressed
        refine ⟨hacts.control, hacts.touches, ?_⟩
        show Mouse.Sound
          (session.app.toMoonlightApp.handleStreamMouseButton button pressed).2.mouse _
        rw [hacts.mouse]
        exact hkept.sound.button (Bool.eq_not_of_ne hdown)
  | requestPointerLock =>
      cases hstep
      exact hkept.of_letGo (Or.inl rfl) (requestPointerLock_acts hcontrol htouches)
  | releasePointerLock =>
      cases hstep
      exact hkept.of_letGo (Or.inr rfl) (releasePointerLock_acts hcontrol htouches h)
  | togglePointerLock =>
      cases hstep
      obtain ⟨act, hact, hacts⟩ := togglePointerLock_acts hcontrol htouches h
      exact hkept.of_letGo hact hacts
  | leaveStreamMode =>
      cases hstep
      exact hkept.of_letGo (Or.inr rfl) (leaveStreamMode_acts hcontrol htouches h)
  | pointerLockChanged locked =>
      cases hstep
      exact hkept.pointerLockChanged h locked
  | focusChanged windowId =>
      cases hstep
      obtain ⟨act, hact, hacts⟩ := onFocusChanged_acts hcontrol htouches h windowId
      exact hkept.of_letGo hact hacts

theorem Kept.unstuck {session : MouseSession F} (hkept : Kept control session) :
    session.Unstuck where
  tracked := hkept.sound.held
  contained button hheld := hkept.sound.tracked button (hkept.sound.held ▸ hheld)
  unapplied happlied button :=
    (congrFun hkept.sound.held button).trans (hkept.sound.applied happlied button)
  local_press button next happlied hstep := by
    simp only [step] at hstep
    split at hstep
    · cases hstep
    · cases hstep
      simp only [WindowApp.onStream, handleStreamMouseButton_early happlied]
      unfold MoonlightApp.requestPointerLock
      split <;> rfl
  suppressed button hsuppressed :=
    have hdown := hkept.sound.suppressed button hsuppressed
    ⟨hdown.1, (congrFun hkept.sound.held button).trans hdown.2⟩
  released button next hstep := by
    have hnext := (step_kept h hkept hstep).sound
    have hup : next.down button = false := by
      simp only [step] at hstep
      split at hstep
      · cases hstep
      · cases hstep
        exact Function.update_self ..
    have htracked : next.tracked button = false := by
      cases htracked : next.tracked button with
      | false => rfl
      | true => exact absurd (hup.symm.trans (hnext.tracked button htracked)) Bool.false_ne_true
    refine ⟨(congrFun hnext.held button).trans htracked, htracked, ?_⟩
    cases hsuppressed : next.suppressed button with
    | false => rfl
    | true =>
        exact absurd (hup.symm.trans (hnext.suppressed button hsuppressed).1) Bool.false_ne_true

end

end MouseSession

/-- Over a reliable connection without fallback contacts no mouse button gets stuck,
whatever becomes of the capture. -/
theorem mouse_buttons_unstuck [F32 F] {control : ConnectionControl F} (h : control.Reliable)
    (app : WindowApp F) (htouches : NoFallback app.remoteInput.touches)
    (down : MouseButton → Bool) (ops : List MouseOp) :
    Always MouseSession.step MouseSession.Unstuck ⟨app.connected control, down⟩ ops := by
  have hnone (button : MouseButton) : buttonIn 0 button = false := buttonIn_zero button
  have hinit : MouseSession.Kept control ⟨app.connected control, down⟩ := by
    refine ⟨rfl, htouches, ?_, ?_, ?_, ?_⟩
    · exact funext fun button => (hnone button).symm
    · exact fun button htracked => absurd ((hnone button).symm.trans htracked) Bool.false_ne_true
    · exact fun _ => hnone
    · exact fun button hsuppressed =>
        absurd ((hnone button).symm.trans hsuppressed) Bool.false_ne_true
  exact Always.of_invariant (fun _ _ _ => MouseSession.step_kept h)
    (fun _ hkept => hkept.unstuck h) hinit ops

/-- The left button goes down before the capture and comes up after it was granted;
the right one goes down during the capture and comes up after it was revoked. -/
theorem mouse_buttons_unstuck_grant :
    let control : ConnectionControl Rat := ⟨fun _ => .ok false, fun _ _ => .ok ()⟩
    Always MouseSession.step MouseSession.Unstuck
      ⟨({} : WindowApp Rat).connected control, fun _ => false⟩
      [.button .left true, .pointerLockChanged true, .button .left false, .button .right true,
        .pointerLockChanged false, .button .right false] :=
  mouse_buttons_unstuck (fun _ _ => rfl) {} (Or.inr rfl) _ _

end MoonlightScarlet.App
