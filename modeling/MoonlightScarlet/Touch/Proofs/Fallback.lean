import MoonlightScarlet.Touch.Host
/-!
# One contact drags the left mouse button

Without native touch a contact is the left mouse button.  A step either keeps the
two in agreement or is an Up that loses its final position: then the button goes
up and the contact stays.
-/

namespace MoonlightScarlet.Touch

open Sys Support.Runs

variable {F : Type}

/-- The sends of an Up whose final position fails while its release succeeds. -/
def TouchSink.LosesPosition (sink : TouchSink F) (phase : TouchPhase) (point : F × F) : Prop :=
  phase = .up ∧ (∃ error, sink.send (.position point.1 point.2) = .error error) ∧
    sink.send (.button false) = .ok ()

/-- What one call can do to the number of contacts and to the button.  `lost` says
that the call is an Up which loses its position. -/
inductive Dragged (lost : Prop) (contacts : Nat) (pressed : Bool) : Nat → Bool → Prop
  | kept (h : ¬lost) : Dragged lost contacts pressed contacts pressed
  | pressed (h : ¬lost) (hfree : contacts = 0) : Dragged lost contacts pressed 1 true
  | released (h : ¬lost) (left : Nat) (hleft : left < contacts) :
      Dragged lost contacts pressed left false
  | stranded (h : lost) (hdrag : 0 < contacts) : Dragged lost contacts pressed contacts false

/-- From agreement, a step leads to agreement exactly if it loses no position. -/
theorem Dragged.agree_iff {lost : Prop} {contacts contacts' : Nat} {pressed pressed' : Bool}
    (h : Dragged lost contacts pressed contacts' pressed')
    (hagree : pressed = true ↔ contacts = 1) (hone : contacts ≤ 1) :
    ((pressed' = true ↔ contacts' = 1) ∧ contacts' ≤ 1) ↔ ¬lost := by
  cases h with
  | kept h => exact iff_of_true ⟨hagree, hone⟩ h
  | pressed h hfree => exact iff_of_true ⟨by simp, le_rfl⟩ h
  | released h _ hleft =>
      have hnone : contacts' = 0 := by omega
      subst hnone
      exact iff_of_true ⟨by simp, by omega⟩ h
  | stranded h hdrag =>
      have htracked : contacts = 1 := by omega
      subst htracked
      exact iff_of_false (by simp) (not_not_intro h)

/-! ## Inversion of `route` -/

theorem begin_dragged {input : TouchInput F} {change : TouchChange} {sink : TouchSink F}
    (point : Option (F × F)) (hnative : input.native ≠ some true)
    (hsink : sink.supportsTouch ≠ .ok true) (pressed : Bool) :
    let outcome := input.begin change point sink
    outcome.input.native ≠ some true ∧
      Dragged False input.contacts.length pressed outcome.input.contacts.length
        (outcome.delivered.foldl receiveButton pressed) := by
  unfold TouchInput.begin
  rcases point with _ | ⟨x, y⟩
  · exact ⟨hnative, .kept id⟩
  dsimp only
  cases hanswer : input.native.elim sink.supportsTouch .ok with
  | error error => exact ⟨hnative, .kept id⟩
  | ok native =>
      have hnow : native = false := by
        cases hsome : input.native with
        | none =>
            rw [hsome] at hanswer
            cases native with
            | true => exact absurd hanswer hsink
            | false => rfl
        | some value =>
            rw [hsome] at hanswer hnative
            cases hanswer
            cases native with
            | true => exact absurd rfl hnative
            | false => rfl
      subst hnow
      dsimp only
      by_cases hempty : input.contacts = []
      · rw [if_neg (by simp [hempty])]
        cases hfree : freeRemoteId input.contacts with
        | none => exact ⟨by simp, .kept id⟩
        | some id =>
            dsimp only
            rw [if_neg (by simp), Attempt.andThen]
            rcases attempt_cases sink (.position x y) with ⟨-, hmoved⟩ | ⟨error, -, hfailed⟩
            · rw [hmoved]
              dsimp only
              rcases attempt_cases sink (.button true) with ⟨-, hsent⟩ | ⟨error, -, hfailed⟩
              · rw [hsent, hempty]
                exact ⟨by simp, .pressed not_false rfl⟩
              · rw [hfailed]
                exact ⟨by simp, .kept not_false⟩
            · rw [hfailed]
              exact ⟨by simp, .kept not_false⟩
      · rw [if_pos (by simp [hempty])]
        exact ⟨by simp, .kept not_false⟩

theorem follow_dragged {input : TouchInput F} {change : TouchChange} (sink : TouchSink F)
    (index : Fin input.contacts.length) (point : Option (F × F))
    (hphase : change.phase ≠ .down) (hnative : input.native ≠ some true) (pressed : Bool) :
    let outcome := input.follow index change point sink
    Dragged (sink.LosesPosition change.phase (point.getD (input.contacts.get index).position))
      input.contacts.length pressed outcome.input.contacts.length
        (outcome.delivered.foldl receiveButton pressed) := by
  have hdrag : 0 < input.contacts.length := Nat.zero_lt_of_lt index.isLt
  have hfewer : (input.contacts.eraseIdx index).length < input.contacts.length := by
    rw [List.length_eraseIdx_of_lt index.isLt]
    omega
  unfold TouchInput.follow
  dsimp only
  generalize point.getD (input.contacts.get index).position = position
  rw [TouchSink.follow, if_neg hnative]
  cases hchange : change.phase with
  | down => exact absurd hchange hphase
  | move =>
      have hkeep : ¬sink.LosesPosition .move position := fun h => nomatch h.1
      rw [if_neg (by simp [TouchPhase.ending]), if_neg (by simp [TouchPhase.ending]),
        List.length_set]
      rcases attempt_cases sink (.position position.1 position.2) with
        ⟨-, hmoved⟩ | ⟨error, -, hfailed⟩
      · rw [hmoved]
        exact .kept hkeep
      · rw [hfailed]
        exact .kept hkeep
  | up =>
      rcases attempt_cases sink (.position position.1 position.2) with
        ⟨hpos, hmoved⟩ | ⟨error, hpos, hlost⟩ <;>
      rcases attempt_cases sink (.button false) with
        ⟨hbtn, hreleased⟩ | ⟨error', hbtn, hfailed⟩ <;>
      simp only [TouchPhase.ending, Attempt.and, *]
      · exact .released (by simp [TouchSink.LosesPosition, hpos]) _ hfewer
      · exact (List.length_set ..).symm ▸ .kept (by simp [TouchSink.LosesPosition, hbtn])
      · exact (List.length_set ..).symm ▸ .stranded ⟨rfl, ⟨error, hpos⟩, hbtn⟩ hdrag
      · exact (List.length_set ..).symm ▸ .kept (by simp [TouchSink.LosesPosition, hbtn])
  | cancel =>
      have hkeep : ¬sink.LosesPosition .cancel position := fun h => nomatch h.1
      rcases attempt_cases sink (.button false) with ⟨-, hreleased⟩ | ⟨error, -, hfailed⟩
      · simp only [TouchPhase.ending, Attempt.and, hreleased]
        exact .released hkeep _ hfewer
      · simp only [TouchPhase.ending, Attempt.and, hfailed]
        exact (List.length_set ..).symm ▸ .kept hkeep

/-! ## Sessions -/

section Session

variable [F32 F]

/-- The call is an Up of a tracked contact whose final position fails while its
release succeeds. -/
def Session.LosesPosition (session : Session F) : Op F → Prop
  | .route change viewport video sink =>
      ∃ index, session.input.existing change = some index ∧
        sink.LosesPosition change.phase
          ((videoPosition change.x change.y viewport video true).getD
            (session.input.contacts.get index).position)
  | .releaseTo _ => False

/-- A Down inside the video whose sends succeed presses the button. -/
def Session.Presses (session : Session F) : Prop :=
  ∀ (change : TouchChange) (viewport video : UInt32 × UInt32) (sink : TouchSink F) (x y : F),
    change.phase = .down → videoPosition change.x change.y viewport video false = some (x, y) →
      sink.supportsTouch = .ok false → sink.send (.position x y) = .ok () →
        sink.send (.button true) = .ok () →
          let outcome := session.input.route change viewport video sink
          outcome.result = .ok true ∧ outcome.delivered = [.position x y, .button true]

/-- The button is down exactly while one contact is tracked, there is never a
second one, and a free button can be pressed. -/
def Session.OneFinger (session : Session F) : Prop :=
  (buttonAfter session.delivered = true ↔ session.input.contacts.length = 1) ∧
    session.input.contacts.length ≤ 1 ∧
    (buttonAfter session.delivered = false → session.input.contacts = [] → session.Presses)

theorem presses_of_idle {session : Session F} (hnative : session.input.native ≠ some true)
    (hcontacts : session.input.contacts = []) : session.Presses := by
  intro change viewport video sink x y hdown hpoint hsupports hposition hbutton
  have hexisting : session.input.existing change = none := by
    cases h : session.input.existing change with
    | none => rfl
    | some index => exact absurd index.isLt (by simp [hcontacts])
  have hanswer : session.input.native.elim sink.supportsTouch .ok = .ok false := by
    cases h : session.input.native with
    | none => exact hsupports
    | some native =>
        cases native with
        | true => exact absurd h hnative
        | false => rfl
  have hfree : freeRemoteId ([] : List (Contact F)) = some 0 := rfl
  rw [hsupports] at hanswer
  simp [TouchInput.route, TouchInput.begin, TouchSink.attempt, Attempt.andThen, *]

theorem step_dragged {session next : Session F} {op : Op F}
    (hsink : op.sink.supportsTouch ≠ .ok true) (hnative : session.input.native ≠ some true)
    (hstep : session.step op = some next) :
    next.input.native ≠ some true ∧
      Dragged (session.LosesPosition op) session.input.contacts.length
        (buttonAfter session.delivered) next.input.contacts.length
        (buttonAfter next.delivered) := by
  cases op with
  | route change viewport video sink =>
      rw [Op.sink] at hsink
      cases hstep
      rw [buttonAfter_append, Session.LosesPosition]
      generalize buttonAfter session.delivered = pressed
      unfold TouchInput.route
      dsimp only
      cases hexisting : session.input.existing change with
      | none =>
          by_cases hphase : change.phase = .down
          · rw [if_pos hphase, if_neg (by simp)]
            simpa using begin_dragged _ hnative hsink pressed
          · rw [if_neg hphase]
            exact ⟨hnative, .kept (by simp)⟩
      | some index =>
          by_cases hphase : change.phase = .down
          · rw [if_pos hphase, if_pos (by simp)]
            exact ⟨hnative, .kept (by simp [hphase, TouchSink.LosesPosition])⟩
          · rw [if_neg hphase]
            refine ⟨hnative, ?_⟩
            simpa [hphase] using follow_dragged sink index _ hphase hnative pressed
  | releaseTo sink =>
      simp only [Session.step, Option.ite_none_right_eq_some, Option.some.injEq] at hstep
      obtain ⟨hok, rfl⟩ := hstep
      rw [buttonAfter_append, Session.LosesPosition]
      cases hcontacts : session.input.contacts with
      | nil =>
          have hsame : session.input.releaseTo sink = ⟨session.input, [], .ok ()⟩ := by
            simp [TouchInput.releaseTo, hcontacts]
          rw [hsame, hcontacts]
          exact ⟨hnative, .kept not_false⟩
      | cons contact contacts =>
          have hrelease : session.input.releaseTo sink =
              ⟨{}, (sink.attempt (.button false)).delivered,
                (sink.attempt (.button false)).result⟩ := by
            simp [TouchInput.releaseTo, hcontacts, hnative]
          rw [hrelease] at hok ⊢
          rcases attempt_cases sink (.button false) with ⟨-, hsent⟩ | ⟨error, -, hfailed⟩
          · rw [hsent]
            exact ⟨by simp, .released not_false 0 (by simp)⟩
          · rw [hfailed] at hok
            cases hok

/-- The button follows the contact along a run exactly if no Up in it loses its
final position. -/
theorem one_finger_iff {ops : List (Op F)}
    (hsinks : ∀ op ∈ ops, op.sink.supportsTouch ≠ .ok true) :
    Always Session.step Session.OneFinger {} ops ↔
      Meets Session.step (fun session op => ¬session.LosesPosition op) {} ops := by
  refine always_iff_meets (J := fun session : Session F => session.input.native ≠ some true)
    (fun s op t hsink hs hstep => (step_dragged hsink hs hstep).1)
    (fun s op t hsink hs hone hstep => ?_) (by simp)
    ⟨by simp [buttonAfter], by simp, fun _ hidle => presses_of_idle (by simp) hidle⟩ hsinks
  obtain ⟨hnative, hdragged⟩ := step_dragged hsink hs hstep
  rw [← hdragged.agree_iff hone.1 hone.2.1]
  exact ⟨fun h => ⟨h.1, h.2.1⟩,
    fun h => ⟨h.1, h.2, fun _ hidle => presses_of_idle hnative hidle⟩⟩

end Session

/-- The Up of the only contact moves the pointer in vain but lifts the button. -/
theorem lost_position_strands_contact :
    let answers (position : Except InputError Unit) : TouchSink Rat :=
      ⟨.ok false, fun packet => if packet matches .position _ _ then position else .ok ()⟩
    let route (id : UInt64) (phase : TouchPhase) : TouchSink Rat → Op Rat :=
      .route ⟨0, id, phase, 400, 400⟩ (800, 800) (1920, 1080)
    let good := answers (.ok ())
    let lossy := answers (.error .connectionInactive)
    ∃ session, run Session.step {} [route 1 .down good, route 1 .up lossy] = some session ∧
      ¬session.OneFinger ∧ buttonAfter session.delivered = false ∧
      session.input.contacts.length = 1 ∧
      (session.input.route ⟨0, 2, .down, 400, 400⟩ (800, 800) (1920, 1080) good).result =
        .ok false := by
  intro answers route good lossy
  have hrun : run Session.step {} [route 1 .down good, route 1 .up lossy] = some _ := rfl
  refine ⟨_, hrun, fun hone => ?_, by decide +kernel, by decide +kernel, by decide +kernel⟩
  exact absurd (hone.1.mpr (by decide +kernel)) (by decide +kernel)

/-- A drag in which every send succeeds. -/
theorem one_finger_iff_drag :
    let sink : TouchSink Rat := ⟨.ok false, fun _ => .ok ()⟩
    let route (phase : TouchPhase) : Op Rat :=
      .route ⟨0, 1, phase, 400, 400⟩ (800, 800) (1920, 1080) sink
    Always Session.step Session.OneFinger {} [route .down, route .move, route .up] := by
  intro sink route
  refine (one_finger_iff (by simp [route, sink, Op.sink])).mpr ?_
  simp [Meets, route, sink, Session.LosesPosition, TouchSink.LosesPosition]

end MoonlightScarlet.Touch
