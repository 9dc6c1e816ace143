import MoonlightScarlet.App.Window
import MoonlightScarlet.Support.Reconcile
import MoonlightScarlet.Support.Runs
/-!
# Pointer lock and fullscreen follow the latest intent

Both features are settings that the window system applies.  A report replaces the
wish it answers and every wish after it, so an answer that comes late undoes an intent.
-/

namespace MoonlightScarlet.App

open Sys Support.Reconcile Support.Runs

variable {F : Type}

inductive Feature
  | pointerLock
  | fullscreen
  deriving DecidableEq

namespace WindowApp

def setting (app : WindowApp F) : Feature → Setting Bool
  | .pointerLock => ⟨app.pointerLockDesired, app.pointerLockApplied, app.pointerLockPending⟩
  | .fullscreen => ⟨app.fullscreenDesired, app.fullscreenApplied, app.fullscreenPending⟩

/-- The changed notification of a feature. -/
def onChanged (app : WindowApp F) (value : Bool) : Feature → WindowApp F
  | .pointerLock => app.onWindowPointerLockChanged value
  | .fullscreen => app.onWindowFullscreenChanged value

end WindowApp

inductive WindowOp (F : Type)
  | setControl (control : Option (ConnectionControl F))
  | requestPointerLock
  | releasePointerLock
  | togglePointerLock
  | toggleFullscreen
  | leaveStreamMode
  | resetStreamWindowState
  | sync (answers : WindowAnswers)
  | answer (feature : Feature) (value : Bool)
  | unsolicited (feature : Feature) (value : Bool)

namespace WindowOp

def apply [F32 F] (app : WindowApp F) : WindowOp F → WindowApp F
  | .setControl control => app.onStream fun app => { app with streamControl := control }
  | .requestPointerLock => app.onStream (·.requestPointerLock)
  | .releasePointerLock => app.onStream (·.releasePointerLock)
  | .togglePointerLock => app.onStream (·.togglePointerLock)
  | .toggleFullscreen => app.onStream (·.toggleFullscreen)
  | .leaveStreamMode => app.onStream (·.leaveStreamMode)
  | .resetStreamWindowState => app.onStream (·.resetStreamWindowState)
  | .sync answers => app.onWindowSync answers
  | .answer feature value => app.onChanged value feature
  | .unsolicited feature value => app.onChanged value feature

/-- What an operation is to a feature.  A request for the pointer lock without a
connection is turned down at once and is no intent. -/
def event (app : WindowApp F) : Feature → WindowOp F → Option (Event Bool)
  | .pointerLock, .requestPointerLock =>
      if app.streamControl.isSome then some (.intend true) else none
  | .pointerLock, .releasePointerLock => some (.intend false)
  | .pointerLock, .togglePointerLock =>
      if app.pointerLockDesired || app.pointerLockApplied then some (.intend false)
      else if app.streamControl.isSome then some (.intend true)
      else none
  | .fullscreen, .toggleFullscreen => some (.intend !app.fullscreenDesired)
  | _, .leaveStreamMode => some (.intend false)
  | _, .resetStreamWindowState => some (.intend false)
  | .pointerLock, .sync answers => some (.ask answers.pointerLock)
  | .fullscreen, .sync answers => some (.ask answers.fullscreen)
  | feature, .answer about value => if about = feature then some (.answer value) else none
  | feature, .unsolicited about value => if about = feature then some (.report value) else none
  | _, _ => none

end WindowOp

theorem WindowOp.event_answer {app : WindowApp F} {feature : Feature} {value : Bool}
    {op : WindowOp F} (h : op.event app feature = some (.answer value)) :
    op = .answer feature value := by
  cases op <;> cases feature <;> grind [WindowOp.event]

/-! ## The application keeps its settings -/

section Settings

variable (app : WindowApp F)

theorem applied_releaseGamepads (app : MoonlightApp F) :
    app.releaseGamepads.pointerLockApplied = app.pointerLockApplied := by
  unfold MoonlightApp.releaseGamepads
  split <;> rfl

theorem setting_leaveStreamMode [F32 F] (feature : Feature) :
    (app.onStream (·.leaveStreamMode)).setting feature =
      (app.setting feature).after (.intend false) := by
  cases feature with
  | pointerLock =>
      have happlied := applied_releaseGamepads app.toMoonlightApp
      exact congrArg (Setting.mk false · app.pointerLockPending) happlied
  | fullscreen => rfl

theorem setting_requestPointerLock (feature : Feature) :
    (app.onStream (·.requestPointerLock)).setting feature =
      ((WindowOp.requestPointerLock.event app feature).elim (app.setting feature)
        (app.setting feature).after) := by
  cases hcontrol : app.streamControl <;> cases feature <;>
    simp [WindowApp.setting, WindowOp.event, WindowApp.onStream, MoonlightApp.requestPointerLock,
      hcontrol, Setting.after]

theorem setting_togglePointerLock (feature : Feature) :
    (app.onStream (·.togglePointerLock)).setting feature =
      ((WindowOp.togglePointerLock.event app feature).elim (app.setting feature)
        (app.setting feature).after) := by
  have htoggle : app.onStream (·.togglePointerLock) =
      if app.pointerLockDesired || app.pointerLockApplied then app.onStream (·.releasePointerLock)
      else app.onStream (·.requestPointerLock) := by
    unfold WindowApp.onStream MoonlightApp.togglePointerLock
    dsimp only
    split <;> rfl
  rw [htoggle]
  split
  · rename_i hheld
    cases feature with
    | pointerLock =>
        simp only [WindowOp.event, hheld, if_true]
        rfl
    | fullscreen => rfl
  · rename_i hheld
    rw [setting_requestPointerLock]
    cases feature with
    | pointerLock => simp only [WindowOp.event, hheld, Bool.false_eq_true, if_false]
    | fullscreen => rfl

theorem setting_syncGamepads (feature : Feature) :
    app.syncGamepads.setting feature = app.setting feature := by
  unfold WindowApp.syncGamepads
  split <;> cases feature <;> rfl

theorem setting_syncGamepadInput (accepted : Bool) (feature : Feature) :
    (app.syncGamepadInput accepted).setting feature = app.setting feature := by
  unfold WindowApp.syncGamepadInput
  dsimp only
  split <;> cases feature <;> rfl

theorem setting_syncPointerLock (accepted : Bool) (feature : Feature) :
    (app.syncPointerLock accepted).setting feature =
      match feature with
      | .pointerLock => (app.setting .pointerLock).after (.ask accepted)
      | .fullscreen => app.setting .fullscreen := by
  unfold WindowApp.syncPointerLock
  cases feature <;> cases accepted <;> split <;>
    simp_all [WindowApp.setting, Setting.after, Setting.Due]

theorem setting_syncFullscreen (accepted : Bool) (feature : Feature) :
    (app.syncFullscreen accepted).setting feature =
      match feature with
      | .pointerLock => app.setting .pointerLock
      | .fullscreen => (app.setting .fullscreen).after (.ask accepted) := by
  unfold WindowApp.syncFullscreen
  cases feature <;> cases accepted <;> split <;>
    simp_all [WindowApp.setting, Setting.after, Setting.Due]

theorem setting_onWindowSync (answers : WindowAnswers) (feature : Feature) :
    (app.onWindowSync answers).setting feature =
      (app.setting feature).after (.ask (match feature with
        | .pointerLock => answers.pointerLock
        | .fullscreen => answers.fullscreen)) := by
  have hstill (feature : Feature) :
      ((app.syncGamepadInput answers.gamepadInput).syncGamepads.syncTitle).setting feature =
        app.setting feature := by
    calc
      ((app.syncGamepadInput answers.gamepadInput).syncGamepads.syncTitle).setting feature
          = (app.syncGamepadInput answers.gamepadInput).syncGamepads.setting feature := by
            cases feature <;> rfl
      _ = (app.syncGamepadInput answers.gamepadInput).setting feature :=
            setting_syncGamepads _ feature
      _ = app.setting feature := setting_syncGamepadInput app _ feature
  unfold WindowApp.onWindowSync
  dsimp only
  rw [setting_syncFullscreen]
  cases feature with
  | pointerLock =>
      dsimp only
      rw [setting_syncPointerLock, hstill]
  | fullscreen =>
      dsimp only
      rw [setting_syncPointerLock]
      dsimp only
      rw [hstill]

theorem setting_onChanged (value : Bool) (about feature : Feature) :
    (app.onChanged value about).setting feature =
      if about = feature then (app.setting feature).reported value else app.setting feature := by
  cases about with
  | pointerLock =>
      unfold WindowApp.onChanged WindowApp.onWindowPointerLockChanged
      cases value with
      | true => cases feature <;> rfl
      | false =>
          dsimp only
          rw [if_neg Bool.false_ne_true]
          split <;> cases feature <;> rfl
  | fullscreen => cases feature <;> rfl

/-- Each operation is to each feature the event that it is said to be. -/
theorem setting_apply [F32 F] (op : WindowOp F) (feature : Feature) :
    (op.apply app).setting feature =
      (op.event app feature).elim (app.setting feature) (app.setting feature).after := by
  cases op with
  | setControl control => cases feature <;> rfl
  | requestPointerLock => exact setting_requestPointerLock app feature
  | releasePointerLock => cases feature <;> rfl
  | togglePointerLock => exact setting_togglePointerLock app feature
  | toggleFullscreen => cases feature <;> rfl
  | leaveStreamMode =>
      rw [WindowOp.apply, setting_leaveStreamMode]
      cases feature <;> rfl
  | resetStreamWindowState => cases feature <;> rfl
  | sync answers =>
      rw [WindowOp.apply, setting_onWindowSync]
      cases feature <;> rfl
  | answer about value =>
      rw [WindowOp.apply, setting_onChanged, WindowOp.event]
      split <;> rfl
  | unsolicited about value =>
      rw [WindowOp.apply, setting_onChanged, WindowOp.event]
      split <;> rfl

end Settings

/-! ## Runs -/

/-- The app and what has become of the requests for each feature. -/
structure WindowSession (F : Type) where
  app : WindowApp F
  history : Feature → History Bool

namespace WindowSession

def new : WindowSession F := ⟨{}, fun _ => ⟨[], false, false⟩⟩

/-- Only a value that was asked for and accepted can be answered. -/
def Enabled (session : WindowSession F) : WindowOp F → Prop
  | .answer feature value => value ∈ (session.history feature).inFlight
  | _ => True

instance (session : WindowSession F) (op : WindowOp F) : Decidable (session.Enabled op) := by
  cases op <;> unfold Enabled <;> infer_instance

def step [F32 F] (session : WindowSession F) (op : WindowOp F) : Option (WindowSession F) :=
  if session.Enabled op then
    some ⟨op.apply session.app, fun feature =>
      (op.event session.app feature).elim (session.history feature)
        ((session.history feature).after (session.app.setting feature))⟩
  else none

/-- A feature with no request pending and nothing left to ask for is as the latest
intent wants it, unless a refusal or an unsolicited notification has come since. -/
def Followed (session : WindowSession F) : Prop :=
  ∀ feature, Settled (session.app.setting feature) (session.history feature)

/-- An answer comes while the intent that it answers is still the latest one, or after
a refusal or an unsolicited notification. -/
def InTime (session : WindowSession F) : WindowOp F → Prop
  | .answer feature value =>
      (session.history feature).excused = false → value = (session.history feature).intent
  | _ => True

section

variable [F32 F] {session next : WindowSession F} {op : WindowOp F}

theorem step_some (hstep : session.step op = some next) (feature : Feature) :
    next.app.setting feature = (op.event session.app feature).elim (session.app.setting feature)
        (session.app.setting feature).after ∧
      next.history feature = (op.event session.app feature).elim (session.history feature)
        ((session.history feature).after (session.app.setting feature)) := by
  unfold step at hstep
  split at hstep
  · cases hstep
    exact ⟨setting_apply session.app op feature, rfl⟩
  · cases hstep

omit [F32 F] in
theorem InTime.timely (h : session.InTime op) {feature : Feature} {event : Event Bool}
    (hevent : op.event session.app feature = some event) :
    Timely (session.history feature) event := by
  cases event with
  | answer value =>
      obtain rfl := WindowOp.event_answer hevent
      exact h
  | intend value => exact trivial
  | ask accepted => exact trivial
  | report value => exact trivial

theorem step_faithful (hfaithful : ∀ feature,
      Faithful (session.app.setting feature) (session.history feature))
    (htime : session.InTime op) (hstep : session.step op = some next) (feature : Feature) :
    Faithful (next.app.setting feature) (next.history feature) := by
  obtain ⟨hsetting, hhistory⟩ := step_some hstep feature
  rw [hsetting, hhistory]
  cases hevent : op.event session.app feature with
  | none => exact hfaithful feature
  | some event => exact (hfaithful feature).after (htime.timely hevent)

/-- A late answer breaks the promise at once. -/
theorem step_late (hlate : ¬session.InTime op) (hstep : session.step op = some next) :
    ¬next.Followed := by
  cases op with
  | answer feature value =>
      obtain ⟨hsetting, hhistory⟩ := step_some hstep feature
      rw [WindowOp.event, if_pos rfl] at hsetting hhistory
      intro hfollowed
      have hsettled := hfollowed feature
      rw [hsetting, hhistory] at hsettled
      have hbroken : ¬Settled ((session.app.setting feature).after (.answer value))
          ((session.history feature).after (session.app.setting feature) (.answer value)) :=
        not_settled_of_untimely hlate
      exact hbroken hsettled
  | _ => exact absurd trivial hlate

end

end WindowSession

/-- In a run from the start of the program pointer lock and fullscreen follow the latest
intent, exactly if every answer comes while the intent that it answers is the latest. -/
theorem intents_followed_iff [F32 F] (ops : List (WindowOp F)) :
    Always WindowSession.step WindowSession.Followed WindowSession.new ops ↔
      Meets WindowSession.step WindowSession.InTime WindowSession.new ops :=
  always_iff_meets_of_breaks
    (I := fun session => ∀ feature,
      Faithful (session.app.setting feature) (session.history feature))
    (P := WindowSession.Followed) (C := WindowSession.InTime)
    (fun _ _ _ hfaithful htime hstep => WindowSession.step_faithful hfaithful htime hstep)
    (fun _ hfaithful feature => (hfaithful feature).settled)
    (fun _ _ _ _ hlate hstep => WindowSession.step_late hlate hstep)
    (fun feature _ => by cases feature <;> rfl) ops

/-- The stream is left before the capture is granted: the grant then captures the mouse
on the page that follows. -/
theorem captured_after_leaving :
    let control : ConnectionControl Rat := ⟨fun _ => .ok false, fun _ _ => .ok ()⟩
    ∃ session, run WindowSession.step WindowSession.new
        [.setControl (some control), .requestPointerLock, .sync ⟨true, true, true⟩,
          .leaveStreamMode, .answer .pointerLock true] = some session ∧
      session.app.pointerLockApplied = true ∧ session.app.pointerLockDesired = true ∧
      session.app.pointerLockPending = false ∧ ¬session.Followed := by
  refine ⟨_, rfl, rfl, rfl, rfl, fun hfollowed => ?_⟩
  exact absurd (hfollowed .pointerLock rfl rfl rfl) (by decide)

end MoonlightScarlet.App
