import MoonlightScarlet.Support.Runs
import MoonlightScarlet.Sys.Proofs.AttemptMoves
/-!
# The diagnostics of failed attempts

An attempt gathers the stage and the stage error after it has given the connection slot
away.  They are its own when no other attempt stores to them before it has read them.
-/

namespace MoonlightScarlet.Sys.StartAttempt

open Support.Runs Support.Threads

variable {T : Type}

/-! ## What the core reported during an attempt -/

namespace Event

def connection : Event → Option ConnId
  | .alreadyActive => none
  | .stage c _ => some c
  | .stageError c _ => some c
  | .audioError c _ => some c
  | .returned c _ => some c
  | .failed c _ => some c

def stageOf (c : ConnId) : Event → Option Int32
  | .stage d reported => if d = c then some reported else none
  | _ => none

def stageErrorOf (c : ConnId) : Event → Option Int32
  | .stageError d code => if d = c then some code else none
  | _ => none

def audioErrorOf (c : ConnId) : Event → Option String
  | .audioError d error => if d = c then some error else none
  | _ => none

def returnedOf (c : ConnId) : Event → Option Int32
  | .returned d code => if d = c then some code else none
  | _ => none

end Event

/-- The last stage that the core reported. -/
def reportedStage (c : ConnId) (log : List Event) : Option Int32 :=
  log.findSome? (Event.stageOf c)

def reportedStageError (c : ConnId) (log : List Event) : Option Int32 :=
  log.findSome? (Event.stageErrorOf c)

def returnedCode (c : ConnId) (log : List Event) : Option Int32 :=
  log.findSome? (Event.returnedOf c)

def firstAudioError (c : ConnId) (log : List Event) : Option String :=
  log.reverse.findSome? (Event.audioErrorOf c)

/-- The error of a failed attempt is what the core reported during the attempt. -/
def Describes (before : List Event) : Event → Prop
  | .failed c (.audio error) => firstAudioError c before = some error
  | .failed c (.startFailed code stage stageError) =>
      returnedCode c before = some code ∧ stage = (reportedStage c before).getD stageNone ∧
        stageError = reportedStageError c before
  | _ => True

/-- A failed attempt leaves a free slot and no renderer, until a later attempt takes the
slot and installs its own. -/
structure OwnFailures (s : Shared T) : Prop where
  described : Logged Describes s.log
  cleared : ∀ c error, .failed c error ∈ s.log →
    (s.connectionActive = none ∧ s.audioRenderer = none) ∨
      ∃ hold, s.connectionActive = some hold ∧ c < hold.connection ∧
        (s.audioRenderer = none ∨ s.audioRenderer = some hold.connection)

/-! ## The condition -/

/-- The slot is given away and the stage is still to be read. -/
def Pc.readsStage : Pc → Bool
  | .start _ (.readStage _) => true
  | _ => false

def Pc.readsStageError : Pc → Bool
  | .start _ (.readStage _) => true
  | .start _ (.readStageError _ _) => true
  | _ => false

/-- No stage is stored while another attempt has yet to read its own, and the core does not
report the value that stands for no error. -/
structure Undisturbed (s : System T) (label : T × Action) : Prop where
  stage : (s.pcs label.1).stores label.2 = .stage → ∀ u, (s.pcs u).readsStage = false
  stageError : ((s.pcs label.1).stores label.2).isStageError →
    ∀ u, (s.pcs u).readsStageError = false
  error : (s.pcs label.1).stores label.2 ≠ .stageError (some noReportedError)

instance Undisturbed.decidable (s : System Bool) (label : Bool × Action) :
    Decidable (Undisturbed s label) :=
  decidable_of_iff
    (((s.pcs label.1).stores label.2 = .stage → ∀ u, (s.pcs u).readsStage = false) ∧
      (((s.pcs label.1).stores label.2).isStageError →
        ∀ u, (s.pcs u).readsStageError = false) ∧
      (s.pcs label.1).stores label.2 ≠ .stageError (some noReportedError))
    ⟨fun ⟨hstage, hstageError, herror⟩ => ⟨hstage, hstageError, herror⟩,
      fun h => ⟨h.stage, h.stageError, h.error⟩⟩

/-! ## What a phase says about the shared data -/

structure Quiet (audioStream : Option ConnId) (audioCallback : Option T) : Prop where
  stream : audioStream = none
  callback : audioCallback = none

/-- The core has reported nothing during the attempt. -/
def Silent (c : ConnId) (log : List Event) : Prop := ∀ event ∈ log, event.connection ≠ some c

/-- The stage error that the bridge holds for what the core reported. -/
structure ErrorTold (c : ConnId) (log : List Event) (stageError : Int32) : Prop where
  value : stageError = (reportedStageError c log).getD noReportedError
  reported : reportedStageError c log ≠ some noReportedError

structure Told (c : ConnId) (log : List Event) (lastStage stageError : Int32)
    (audioError : Option String) : Prop where
  stage : lastStage = (reportedStage c log).getD stageNone
  stageError : ErrorTold c log stageError
  audio : audioError = firstAudioError c log

/-- The attempt has given the slot away; a later one may have it. -/
structure Past (c : ConnId) (connectionActive : Option (Hold T)) (attempts : Nat) : Prop where
  attempt : c < attempts
  later : ∀ hold, connectionActive = some hold → c < hold.connection

/-- The attempt that has the slot by a thread. -/
def Phase.holder : Phase → Option ConnId
  | .outside => none
  | .decoding _ => none
  | .reading _ _ => none
  | .readingError _ _ _ => none
  | .fresh c => some c
  | .cleared c => some c
  | .staged c => some c
  | .core c => some c
  | .initializing c => some c
  | .returned c _ => some c
  | .settled c _ _ => some c
  | .dropped c _ _ => some c
  | .stopping c => some c
  | .stopped c => some c
  | .emptied c => some c

def Shared.Quiet (s : Shared T) : Prop := StartAttempt.Quiet s.audioStream s.audioCallback

def Shared.Told (s : Shared T) (c : ConnId) : Prop :=
  StartAttempt.Told c s.log s.lastStage s.stageError s.audioError

def Shared.Past (s : Shared T) (c : ConnId) : Prop :=
  StartAttempt.Past c s.connectionActive s.attempts

def Facts (t : T) (s : Shared T) : Phase → Prop
  | .outside => True
  | .fresh c => s.Quiet ∧ Silent c s.log
  | .cleared c => s.Quiet ∧ Silent c s.log ∧ s.audioError = none
  | .staged c => s.Quiet ∧ Silent c s.log ∧ s.audioError = none ∧ s.lastStage = stageNone
  | .core c => s.Told c
  | .initializing c => s.Told c ∧ s.audioCallback = some t
  | .decoding c => s.audioStream = some c ∧ s.audioCallback = some t
  | .returned c code => s.Quiet ∧ s.Told c ∧ returnedCode c s.log = some code
  | .settled c code error =>
      s.Quiet ∧ s.Told c ∧ returnedCode c s.log = some code ∧ firstAudioError c s.log = error
  | .dropped c code error =>
      s.Quiet ∧ s.Told c ∧ returnedCode c s.log = some code ∧ firstAudioError c s.log = error ∧
        s.audioRenderer = none
  | .reading c code =>
      s.Past c ∧ returnedCode c s.log = some code ∧
        s.lastStage = (reportedStage c s.log).getD stageNone ∧ ErrorTold c s.log s.stageError
  | .readingError c code stage =>
      s.Past c ∧ returnedCode c s.log = some code ∧
        stage = (reportedStage c s.log).getD stageNone ∧ ErrorTold c s.log s.stageError
  | .stopping _ => True
  | .stopped _ => s.Quiet
  | .emptied _ => s.Quiet ∧ s.audioRenderer = none

structure Invariant (s : Shared T) (pcs : T → Pc) : Prop where
  holds : ∀ t c, (pcs t).phase.holder = some c → s.connectionActive = some ⟨c, some t⟩
  facts : ∀ t, Facts t s (pcs t).phase
  rest : s.connectionActive = none → s.audioCallback = none
  stream : ∀ c, s.audioStream = some c → ∃ thread, s.connectionActive = some ⟨c, thread⟩
  renderer : ∀ c, s.audioRenderer = some c → ∃ thread, s.connectionActive = some ⟨c, thread⟩
  active : ∀ hold, s.connectionActive = some hold → hold.connection < s.attempts
  logged : ∀ event ∈ s.log, ∀ c, event.connection = some c → c < s.attempts
  past : ∀ c error, .failed c error ∈ s.log → s.Past c
  described : Logged Describes s.log

theorem Invariant.init : Invariant ({} : Shared T) fun _ => .idle where
  holds _ _ := nofun
  facts _ := trivial
  rest _ := rfl
  stream _ := nofun
  renderer _ := nofun
  active _ := nofun
  logged _ := nofun
  past _ _ := nofun
  described := trivial

/-- No thread can have the slot while nothing has it. -/
theorem Invariant.quiet_of_free {s : Shared T} {pcs : T → Pc} (h : Invariant s pcs)
    (hfree : s.connectionActive = none) : s.Quiet ∧ s.audioRenderer = none := by
  refine ⟨⟨?_, h.rest hfree⟩, ?_⟩
  · rw [Option.eq_none_iff_forall_ne_some]
    intro c hstream
    obtain ⟨thread, hactive⟩ := h.stream c hstream
    rw [hfree] at hactive
    cases hactive
  · rw [Option.eq_none_iff_forall_ne_some]
    intro c hrenderer
    obtain ⟨thread, hactive⟩ := h.renderer c hrenderer
    rw [hfree] at hactive
    cases hactive

/-! ## Reports in a growing log -/

section Reports

variable {c : ConnId} {event : Event} {log : List Event}

theorem reportedStage_cons :
    reportedStage c (event :: log) = (event.stageOf c).or (reportedStage c log) := by
  rw [reportedStage, List.findSome?_cons]
  cases event.stageOf c <;> rfl

theorem reportedStageError_cons :
    reportedStageError c (event :: log) =
      (event.stageErrorOf c).or (reportedStageError c log) := by
  rw [reportedStageError, List.findSome?_cons]
  cases event.stageErrorOf c <;> rfl

theorem returnedCode_cons :
    returnedCode c (event :: log) = (event.returnedOf c).or (returnedCode c log) := by
  rw [returnedCode, List.findSome?_cons]
  cases event.returnedOf c <;> rfl

theorem firstAudioError_cons :
    firstAudioError c (event :: log) = (firstAudioError c log).or (event.audioErrorOf c) := by
  rw [firstAudioError, List.reverse_cons, List.findSome?_append]
  cases h : event.audioErrorOf c <;> simp [h, firstAudioError]

theorem reportedStage_skip (h : event.stageOf c = none) :
    reportedStage c (event :: log) = reportedStage c log := by
  rw [reportedStage_cons, h, Option.none_or]

theorem returnedCode_skip (h : event.returnedOf c = none) :
    returnedCode c (event :: log) = returnedCode c log := by
  rw [returnedCode_cons, h, Option.none_or]

theorem firstAudioError_skip (h : event.audioErrorOf c = none) :
    firstAudioError c (event :: log) = firstAudioError c log := by
  rw [firstAudioError_cons, h, Option.or_none]

theorem ErrorTold.skip {stageError : Int32} (htold : ErrorTold c log stageError)
    (h : event.stageErrorOf c = none) : ErrorTold c (event :: log) stageError := by
  have hsame : reportedStageError c (event :: log) = reportedStageError c log := by
    rw [reportedStageError_cons, h, Option.none_or]
  exact ⟨hsame ▸ htold.value, hsame ▸ htold.reported⟩

/-- An event of another attempt reports nothing of this one. -/
structure Foreign (c : ConnId) (event : Event) : Prop where
  stage : event.stageOf c = none
  stageError : event.stageErrorOf c = none
  returned : event.returnedOf c = none
  audioError : event.audioErrorOf c = none

theorem Foreign.of_ne (h : event.connection ≠ some c) : Foreign c event := by
  cases event with
  | alreadyActive => exact ⟨rfl, rfl, rfl, rfl⟩
  | failed d error => exact ⟨rfl, rfl, rfl, rfl⟩
  | stage d stage => exact ⟨if_neg fun hd => h (congrArg some hd), rfl, rfl, rfl⟩
  | stageError d code => exact ⟨rfl, if_neg fun hd => h (congrArg some hd), rfl, rfl⟩
  | audioError d error => exact ⟨rfl, rfl, rfl, if_neg fun hd => h (congrArg some hd)⟩
  | returned d code => exact ⟨rfl, rfl, if_neg fun hd => h (congrArg some hd), rfl⟩

theorem Silent.reports (h : Silent c log) :
    reportedStage c log = none ∧ reportedStageError c log = none ∧
      firstAudioError c log = none := by
  refine ⟨List.findSome?_eq_none_iff.mpr fun event hevent => ?_,
    List.findSome?_eq_none_iff.mpr fun event hevent => ?_,
    List.findSome?_eq_none_iff.mpr fun event hevent => ?_⟩
  · exact (Foreign.of_ne (h event hevent)).stage
  · exact (Foreign.of_ne (h event hevent)).stageError
  · exact (Foreign.of_ne (h event (List.mem_reverse.mp hevent))).audioError

theorem Silent.cons (h : Silent c log) (hevent : event.connection ≠ some c) :
    Silent c (event :: log) := List.forall_mem_cons.mpr ⟨hevent, h⟩

/-- An attempt of which nothing was reported is described by what `start_with_audio` and
`mls_start_connection` set. -/
theorem Silent.told (h : Silent c log) : Told c log stageNone noReportedError none := by
  obtain ⟨hstage, herror, haudio⟩ := h.reports
  exact ⟨by rw [hstage]; rfl, ⟨by rw [herror]; rfl, by rw [herror]; nofun⟩, haudio.symm⟩

section Told

variable {lastStage stageError : Int32} {audioError : Option String}

theorem Told.skip (h : Told c log lastStage stageError audioError) (hevent : Foreign c event) :
    Told c (event :: log) lastStage stageError audioError where
  stage := by rw [reportedStage_skip hevent.stage, h.stage]
  stageError := h.stageError.skip hevent.stageError
  audio := by rw [firstAudioError_skip hevent.audioError, h.audio]

theorem Told.report_stage (h : Told c log lastStage stageError audioError) (stage : Int32) :
    Told c (.stage c stage :: log) stage stageError audioError where
  stage := by
    rw [reportedStage_cons, Event.stageOf, if_pos rfl]
    rfl
  stageError := h.stageError.skip rfl
  audio := by rw [firstAudioError_skip rfl, h.audio]

theorem Told.report_error (h : Told c log lastStage stageError audioError) {code : Int32}
    (hcode : code ≠ noReportedError) :
    Told c (.stageError c code :: log) lastStage code audioError := by
  have hreport : reportedStageError c (.stageError c code :: log) = some code := by
    rw [reportedStageError_cons, Event.stageErrorOf, if_pos rfl]
    rfl
  refine ⟨?_, ⟨?_, ?_⟩, ?_⟩
  · rw [reportedStage_skip rfl, h.stage]
  · rw [hreport]
    rfl
  · rw [hreport]
    exact fun hsome => hcode (Option.some.inj hsome)
  · rw [firstAudioError_skip rfl, h.audio]

/-- Only the first audio error is kept. -/
theorem Told.report_audio (h : Told c log lastStage stageError audioError) (error : String) :
    Told c (.audioError c error :: log) lastStage stageError
      (if audioError = none then some error else audioError) := by
  refine ⟨?_, h.stageError.skip rfl, ?_⟩
  · rw [reportedStage_skip rfl, h.stage]
  · rw [firstAudioError_cons, Event.audioErrorOf, if_pos rfl, ← h.audio]
    cases audioError <;> rfl

theorem Told.report_return (h : Told c log lastStage stageError audioError) (code : Int32) :
    Told c (.returned c code :: log) lastStage stageError audioError where
  stage := by rw [reportedStage_skip rfl, h.stage]
  stageError := h.stageError.skip rfl
  audio := by rw [firstAudioError_skip rfl, h.audio]

end Told

end Reports

/-! ## One step -/

theorem reportedError_of_told {c : ConnId} {log : List Event} {stageError : Int32}
    (h : ErrorTold c log stageError) : reportedError stageError = reportedStageError c log := by
  obtain ⟨hvalue, hreported⟩ := h
  unfold reportedError
  cases hreport : reportedStageError c log with
  | none =>
      rw [hreport, Option.getD_none] at hvalue
      rw [hvalue, if_neg (not_not_intro rfl)]
  | some code =>
      rw [hreport, Option.getD_some] at hvalue
      rw [hvalue, if_pos fun hcode => hreported (hreport.trans (congrArg some hcode))]

section Step

variable {t u : T} {s s' : Shared T} {pcs : T → Pc} {store : Store} {p p' : Phase} {c : ConnId}

theorem Callback.holder_returnTo {callback : Callback}
    (h : (callback.returnTo c).phase.holder = some d) : (callback.phase c).holder = some d := by
  cases callback with
  | init => exact h
  | decode => cases h

/-- What the thread that steps knows afterwards. -/
theorem own_holds (h : ∀ c, p.holder = some c → s.connectionActive = some ⟨c, some t⟩)
    (hmove : Move t s store p s' p') (hc : p'.holder = some c) :
    s'.connectionActive = some ⟨c, some t⟩ := by
  cases hmove with
  | claim hfree =>
      cases hc
      rfl
  | stop d hactive =>
      cases hc
      rfl
  | callbackReturns callback d rendererLock => exact h c (Callback.holder_returnTo hc)
  | recordError callback d error => exact h c (Callback.holder_returnTo hc)
  | succeeded d code => cases hc
  | releaseAudio d code error => cases hc
  | release d code => cases hc
  | stopRelease d => cases hc
  | decode d hstream hserial => cases hc
  | readStage d code => cases hc
  | readStageError d code stage => cases hc
  | refused => cases hc
  | _ => exact h c hc

theorem own_facts (h : Invariant s pcs)
    (hholds : ∀ c, p.holder = some c → s.connectionActive = some ⟨c, some t⟩)
    (hfacts : Facts t s p) (hmove : Move t s store p s' p')
    (hstore : store ≠ .stageError (some noReportedError)) : Facts t s' p' := by
  cases hmove with
  | quiet phase rendererLock errorLock audioFailed => cases p <;> exact hfacts
  | claim hfree =>
      refine ⟨(h.quiet_of_free hfree).1, fun event hevent hconnection => ?_⟩
      exact Nat.lt_irrefl _ (h.logged event hevent _ hconnection)
  | refused => trivial
  | install c renderer => exact hfacts
  | clearError c =>
      obtain ⟨hquiet, hsilent⟩ := hfacts
      exact ⟨hquiet, hsilent, rfl⟩
  | resetStage c =>
      obtain ⟨hquiet, hsilent, haudio⟩ := hfacts
      exact ⟨hquiet, hsilent, haudio, rfl⟩
  | resetStageError c =>
      obtain ⟨-, hsilent, haudio, hstage⟩ := hfacts
      have htold := hsilent.told
      rw [← hstage, ← haudio] at htold
      exact htold
  | stage c stage => exact hfacts.report_stage stage
  | stageFailed c code =>
      exact hfacts.report_error fun hcode => hstore (congrArg (Store.stageError ∘ some) hcode)
  | audioInit c hserial => exact ⟨hfacts, rfl⟩
  | audioStarted c => exact hfacts
  | succeeded c code => trivial
  | returned c code hjoined =>
      refine ⟨⟨rfl, hjoined⟩, hfacts.report_return code, ?_⟩
      rw [Shared.record, returnedCode_cons, Event.returnedOf, if_pos rfl]
      rfl
  | readAudioError c code =>
      obtain ⟨hquiet, htold, hcode⟩ := hfacts
      exact ⟨hquiet, htold, hcode, htold.audio.symm⟩
  | clear c code error =>
      obtain ⟨hquiet, htold, hcode, herror⟩ := hfacts
      exact ⟨hquiet, htold, hcode, herror, rfl⟩
  | releaseAudio c code error => trivial
  | release c code =>
      obtain ⟨-, htold, hcode, -, -⟩ := hfacts
      exact ⟨⟨h.active _ (hholds c rfl), nofun⟩, hcode, htold.stage, htold.stageError⟩
  | readStage c code => exact hfacts
  | readStageError c code stage => trivial
  | decode c hstream hserial => exact ⟨hstream, rfl⟩
  | callbackReturns callback c rendererLock =>
      cases callback with
      | init => exact hfacts.1
      | decode => trivial
  | recordError callback c error =>
      cases callback with
      | init => exact hfacts.1.report_audio error
      | decode => trivial
  | stop c hactive => trivial
  | stopReturns c hjoined => exact ⟨rfl, hjoined⟩
  | stopClear c => exact ⟨hfacts, rfl⟩
  | stopRelease c => trivial

/-- The slot stays with the attempt, or is given away without a renderer and with the core
at rest. -/
theorem kept_or_released {thread : Option T}
    (hholds : ∀ c, p.holder = some c → s.connectionActive = some ⟨c, some t⟩)
    (hfacts : Facts t s p) (hmove : Move t s store p s' p')
    (hactive : s.connectionActive = some ⟨c, thread⟩) :
    (∃ thread, s'.connectionActive = some ⟨c, thread⟩) ∨
      (s'.connectionActive = none ∧ s'.Quiet ∧ s'.audioRenderer = none) := by
  cases hmove with
  | claim hfree =>
      rw [hfree] at hactive
      cases hactive
  | succeeded d code =>
      have hd := hholds d rfl
      rw [hactive] at hd
      cases hd
      exact .inl ⟨none, rfl⟩
  | releaseAudio d code error => exact .inr ⟨rfl, hfacts.1, hfacts.2.2.2.2⟩
  | release d code => exact .inr ⟨rfl, hfacts.1, hfacts.2.2.2.2⟩
  | stop d hd =>
      rw [hactive] at hd
      cases hd
      exact .inl ⟨some t, rfl⟩
  | stopRelease d => exact .inr ⟨rfl, hfacts.1, hfacts.2⟩
  | _ => exact .inl ⟨thread, hactive⟩

theorem stream_step (hholds : ∀ c, p.holder = some c → s.connectionActive = some ⟨c, some t⟩)
    (hmove : Move t s store p s' p') (hstream : s'.audioStream = some c) :
    s.audioStream = some c ∨ s.connectionActive = some ⟨c, some t⟩ := by
  cases hmove with
  | audioStarted d =>
      cases hstream
      exact .inr (hholds c rfl)
  | returned d code hjoined => cases hstream
  | stopReturns d hjoined => cases hstream
  | _ => exact .inl hstream

theorem renderer_step (hholds : ∀ c, p.holder = some c → s.connectionActive = some ⟨c, some t⟩)
    (hmove : Move t s store p s' p') (hrenderer : s'.audioRenderer = some c) :
    s.audioRenderer = some c ∨ s.connectionActive = some ⟨c, some t⟩ := by
  cases hmove with
  | install d renderer =>
      cases renderer with
      | true =>
          cases hrenderer
          exact .inr (hholds c rfl)
      | false => cases hrenderer
  | clear d code error => cases hrenderer
  | stopClear d => cases hrenderer
  | _ => exact .inl hrenderer

/-- What is logged is of the attempt that has the slot, or the end of a past attempt. -/
theorem log_step (hholds : ∀ c, p.holder = some c → s.connectionActive = some ⟨c, some t⟩)
    (hfacts : Facts t s p)
    (hstream : ∀ c, s.audioStream = some c → ∃ thread, s.connectionActive = some ⟨c, thread⟩)
    (hmove : Move t s store p s' p') :
    s'.log = s.log ∨ ∃ event, s'.log = event :: s.log ∧ Describes s.log event ∧
      ∀ c, event.connection = some c →
        (∃ thread, s.connectionActive = some ⟨c, thread⟩) ∨
          s.Past c ∧ ∃ error, event = .failed c error := by
  cases hmove with
  | refused => exact .inr ⟨_, rfl, trivial, fun c hc => nomatch hc⟩
  | stage | stageFailed | succeeded | returned =>
      exact .inr ⟨_, rfl, trivial, fun c hc => .inl ⟨some t, hholds c hc⟩⟩
  | releaseAudio d code error =>
      exact .inr ⟨_, rfl, hfacts.2.2.2.1, fun c hc => .inl ⟨some t, hholds c hc⟩⟩
  | readStageError d code stage =>
      obtain ⟨hpast, hcode, hstage, herror⟩ := hfacts
      refine .inr ⟨_, rfl, ⟨hcode, hstage, reportedError_of_told herror⟩, fun c hc => .inr ?_⟩
      cases hc
      exact ⟨hpast, _, rfl⟩
  | recordError callback d error =>
      refine .inr ⟨_, rfl, trivial, fun c hc => .inl ?_⟩
      cases hc
      cases callback with
      | init => exact ⟨some t, hholds d rfl⟩
      | decode => exact hstream d hfacts.1
  | _ => exact .inl rfl

theorem past_step (hholds : ∀ c, p.holder = some c → s.connectionActive = some ⟨c, some t⟩)
    (hmove : Move t s store p s' p') (hpast : s.Past c) : s'.Past c := by
  cases hmove with
  | claim hfree =>
      refine ⟨Nat.lt_succ_of_lt hpast.attempt, fun hold hhold => ?_⟩
      cases hhold
      exact hpast.attempt
  | succeeded d code =>
      refine ⟨hpast.attempt, fun hold hhold => ?_⟩
      cases hhold
      have hlater := hpast.later _ (hholds d rfl)
      exact hlater
  | stop d hactive =>
      refine ⟨hpast.attempt, fun hold hhold => ?_⟩
      cases hhold
      have hlater := hpast.later _ hactive
      exact hlater
  | releaseAudio d code error => exact ⟨hpast.attempt, nofun⟩
  | release d code => exact ⟨hpast.attempt, nofun⟩
  | stopRelease d => exact ⟨hpast.attempt, nofun⟩
  | _ => exact hpast

theorem lastStage_step (hmove : Move t s store p s' p') (hstore : store ≠ .stage) :
    s'.lastStage = s.lastStage := by
  cases hmove with
  | resetStage d => exact absurd rfl hstore
  | stage d stage => exact absurd rfl hstore
  | _ => rfl

theorem stageError_step (hmove : Move t s store p s' p') (hstore : ¬store.isStageError) :
    s'.stageError = s.stageError := by
  cases hmove with
  | resetStageError d => exact absurd rfl hstore
  | stageFailed d code => exact absurd rfl hstore
  | _ => rfl

/-- An audio callback keeps the core from joining its thread and from the next callback. -/
theorem callback_step (hfacts : Facts t s p) (hmove : Move t s store p s' p') (hne : u ≠ t)
    (hu : s.audioCallback = some u) : s'.audioCallback = some u := by
  have hother : s.audioCallback ≠ some t := fun ht => hne (Option.some.inj (hu.symm.trans ht))
  have hcalls : ∀ callback : Callback, ∀ d, p = callback.phase d → s.audioCallback = some t := by
    intro callback d hp
    subst hp
    cases callback with
    | init => exact hfacts.2
    | decode => exact hfacts.2
  cases hmove with
  | audioInit d hserial =>
      rw [hserial] at hu
      cases hu
  | decode d hstream hserial =>
      rw [hserial] at hu
      cases hu
  | callbackReturns callback d rendererLock => exact absurd (hcalls callback d rfl) hother
  | recordError callback d error => exact absurd (hcalls callback d rfl) hother
  | _ => exact hu

theorem stream_kept (hholds : ∀ c, p.holder = some c → s.connectionActive = some ⟨c, some t⟩)
    (hstream : ∀ c, s.audioStream = some c → ∃ thread, s.connectionActive = some ⟨c, thread⟩)
    (hmove : Move t s store p s' p') (hu : s.audioCallback = some u)
    (hc : s.audioStream = some c) : s'.audioStream = some c := by
  cases hmove with
  | audioStarted d =>
      obtain ⟨thread, hactive⟩ := hstream c hc
      have hd := hholds d rfl
      rw [hactive] at hd
      cases hd
      rfl
  | returned d code hjoined =>
      rw [hjoined] at hu
      cases hu
  | stopReturns d hjoined =>
      rw [hjoined] at hu
      cases hu
  | _ => exact hc

theorem callback_free (hholds : ∀ c, p.holder = some c → s.connectionActive = some ⟨c, some t⟩)
    (hmove : Move t s store p s' p') (hfree : s.connectionActive = none) (hquiet : s.Quiet) :
    s'.audioCallback = none := by
  cases hmove with
  | audioInit d hserial => exact nomatch hfree.symm.trans (hholds d rfl)
  | decode d hstream hserial => exact nomatch hquiet.stream.symm.trans hstream
  | callbackReturns callback d rendererLock => rfl
  | recordError callback d error => rfl
  | _ => exact hquiet.callback

theorem attempts_le (hmove : Move t s store p s' p') : s.attempts ≤ s'.attempts := by
  cases hmove with
  | claim hfree => exact Nat.le_succ s.attempts
  | _ => exact Nat.le_refl s.attempts

theorem active_step (hholds : ∀ c, p.holder = some c → s.connectionActive = some ⟨c, some t⟩)
    (hactive : ∀ hold, s.connectionActive = some hold → hold.connection < s.attempts)
    (hmove : Move t s store p s' p') (hold : Hold T) (hhold : s'.connectionActive = some hold) :
    hold.connection < s'.attempts := by
  cases hmove with
  | claim hfree =>
      cases hhold
      exact Nat.lt_succ_self s.attempts
  | succeeded d code =>
      have hlt := hactive _ (hholds d rfl)
      cases hhold
      exact hlt
  | stop d hd =>
      have hlt := hactive _ hd
      cases hhold
      exact hlt
  | releaseAudio d code error => cases hhold
  | release d code => cases hhold
  | stopRelease d => cases hhold
  | _ => exact hactive hold hhold

theorem failed_step (hholds : ∀ c, p.holder = some c → s.connectionActive = some ⟨c, some t⟩)
    (hfacts : Facts t s p)
    (hactive : ∀ hold, s.connectionActive = some hold → hold.connection < s.attempts)
    (hmove : Move t s store p s' p') {error : ConnectionError}
    (hfailed : .failed c error ∈ s'.log) :
    .failed c error ∈ s.log ∨ s'.Past c := by
  cases hmove with
  | releaseAudio d code error =>
      obtain heq | hmem := List.mem_cons.mp hfailed
      · cases heq
        exact .inr ⟨hactive _ (hholds _ rfl), nofun⟩
      · exact .inl hmem
  | readStageError d code stage =>
      obtain heq | hmem := List.mem_cons.mp hfailed
      · cases heq
        exact .inr hfacts.1
      · exact .inl hmem
  | refused | stage | stageFailed | succeeded | returned | recordError =>
      exact .inl ((List.mem_cons.mp hfailed).resolve_left nofun)
  | _ => exact .inl hfailed

/-- The slot and what is told of its attempt, when another thread than its own steps. -/
structure Guest (c : ConnId) (s s' : Shared T) : Prop where
  active : s'.connectionActive = s.connectionActive
  lastStage : s'.lastStage = s.lastStage
  audioRenderer : s'.audioRenderer = s.audioRenderer
  told : s.Told c → s'.Told c
  quiet : s.Quiet → s'.Quiet ∧ s'.audioError = s.audioError
  log : s.Quiet → s'.log = s.log ∨
    ∃ event, s'.log = event :: s.log ∧ event.connection ≠ some c

theorem guest_step (hfacts : Facts t s p) (hp : p.holder = none)
    (hstream : ∀ c, s.audioStream = some c → ∃ thread, s.connectionActive = some ⟨c, thread⟩)
    (hmove : Move t s store p s' p') (hu : s.connectionActive = some ⟨c, some u⟩) :
    Guest c s s' := by
  cases hmove with
  | quiet phase rendererLock errorLock audioFailed =>
      exact ⟨rfl, rfl, rfl, id, fun hquiet => ⟨hquiet, rfl⟩, fun _ => .inl rfl⟩
  | claim hfree =>
      rw [hfree] at hu
      cases hu
  | refused =>
      exact ⟨rfl, rfl, rfl, fun htold => htold.skip ⟨rfl, rfl, rfl, rfl⟩,
        fun hquiet => ⟨hquiet, rfl⟩, fun _ => .inr ⟨_, rfl, nofun⟩⟩
  | readStage d code => exact ⟨rfl, rfl, rfl, id, fun hquiet => ⟨hquiet, rfl⟩, fun _ => .inl rfl⟩
  | readStageError d code stage =>
      refine ⟨rfl, rfl, rfl, fun htold => htold.skip ⟨rfl, rfl, rfl, rfl⟩,
        fun hquiet => ⟨hquiet, rfl⟩, fun _ => .inr ⟨_, rfl, fun hc => ?_⟩⟩
      cases hc
      exact Nat.lt_irrefl _ (hfacts.1.later _ hu)
  | decode d hd hserial =>
      refine ⟨rfl, rfl, rfl, id, fun hquiet => ?_, fun hquiet => ?_⟩
      · exact nomatch hquiet.stream.symm.trans hd
      · exact nomatch hquiet.stream.symm.trans hd
  | callbackReturns callback d rendererLock =>
      cases callback with
      | init => cases hp
      | decode =>
          exact ⟨rfl, rfl, rfl, id, fun hquiet => ⟨⟨hquiet.stream, rfl⟩, rfl⟩, fun _ => .inl rfl⟩
  | recordError callback d error =>
      cases callback with
      | init => cases hp
      | decode =>
          obtain ⟨hd, -⟩ := hfacts
          obtain ⟨thread, hactive⟩ := hstream d hd
          rw [hu] at hactive
          cases hactive
          refine ⟨rfl, rfl, rfl, fun htold => htold.report_audio error, fun hquiet => ?_,
            fun hquiet => ?_⟩
          · exact nomatch hquiet.stream.symm.trans hd
          · exact nomatch hquiet.stream.symm.trans hd
  | stop d hd =>
      rw [hd] at hu
      cases hu
  | install | clearError | resetStage | resetStageError | stage | stageFailed | audioInit
  | audioStarted | succeeded | returned | readAudioError | clear | releaseAudio | release
  | stopReturns | stopClear | stopRelease => cases hp

theorem Guest.silent (h : Guest c s s') (hquiet : s.Quiet) (hsilent : Silent c s.log) :
    Silent c s'.log := by
  obtain hlog | ⟨event, hlog, hevent⟩ := h.log hquiet
  · rw [hlog]
    exact hsilent
  · rw [hlog]
    exact hsilent.cons hevent

theorem Guest.reports (h : Guest c s s') (hquiet : s.Quiet) :
    returnedCode c s'.log = returnedCode c s.log ∧
      firstAudioError c s'.log = firstAudioError c s.log := by
  obtain hlog | ⟨event, hlog, hevent⟩ := h.log hquiet
  · rw [hlog]
    exact ⟨rfl, rfl⟩
  · have hforeign := Foreign.of_ne hevent
    rw [hlog]
    exact ⟨returnedCode_skip hforeign.returned, firstAudioError_skip hforeign.audioError⟩

theorem Guest.facts (h : Guest c s s') {q : Phase} (hq : q.holder = some c) (hfacts : Facts u s q)
    (hcallback : s.audioCallback = some u → s'.audioCallback = some u) : Facts u s' q := by
  cases q with
  | fresh d =>
      cases hq
      obtain ⟨hquiet, hsilent⟩ := hfacts
      exact ⟨(h.quiet hquiet).1, h.silent hquiet hsilent⟩
  | cleared d =>
      cases hq
      obtain ⟨hquiet, hsilent, haudio⟩ := hfacts
      exact ⟨(h.quiet hquiet).1, h.silent hquiet hsilent, (h.quiet hquiet).2.trans haudio⟩
  | staged d =>
      cases hq
      obtain ⟨hquiet, hsilent, haudio, hstage⟩ := hfacts
      exact ⟨(h.quiet hquiet).1, h.silent hquiet hsilent, (h.quiet hquiet).2.trans haudio,
        h.lastStage.trans hstage⟩
  | core d =>
      cases hq
      exact h.told hfacts
  | initializing d =>
      cases hq
      exact ⟨h.told hfacts.1, hcallback hfacts.2⟩
  | returned d code =>
      cases hq
      obtain ⟨hquiet, htold, hcode⟩ := hfacts
      exact ⟨(h.quiet hquiet).1, h.told htold, (h.reports hquiet).1.trans hcode⟩
  | settled d code error =>
      cases hq
      obtain ⟨hquiet, htold, hcode, herror⟩ := hfacts
      exact ⟨(h.quiet hquiet).1, h.told htold, (h.reports hquiet).1.trans hcode,
        (h.reports hquiet).2.trans herror⟩
  | dropped d code error =>
      cases hq
      obtain ⟨hquiet, htold, hcode, herror, hrenderer⟩ := hfacts
      exact ⟨(h.quiet hquiet).1, h.told htold, (h.reports hquiet).1.trans hcode,
        (h.reports hquiet).2.trans herror, h.audioRenderer.trans hrenderer⟩
  | stopping d => trivial
  | stopped d => exact (h.quiet hfacts).1
  | emptied d => exact ⟨(h.quiet hfacts.1).1, h.audioRenderer.trans hfacts.2⟩
  | outside | decoding | reading | readingError => cases hq

/-- Nothing more is reported of a past attempt. -/
theorem reports_of_past (hpast : s.Past c)
    (hlog : s'.log = s.log ∨ ∃ event, s'.log = event :: s.log ∧ Describes s.log event ∧
      ∀ c, event.connection = some c →
        (∃ thread, s.connectionActive = some ⟨c, thread⟩) ∨
          s.Past c ∧ ∃ error, event = .failed c error) :
    returnedCode c s'.log = returnedCode c s.log ∧
      reportedStage c s'.log = reportedStage c s.log ∧
      ∀ stageError, ErrorTold c s.log stageError → ErrorTold c s'.log stageError := by
  obtain hlog | ⟨event, hlog, -, howner⟩ := hlog
  · rw [hlog]
    exact ⟨rfl, rfl, fun _ h => h⟩
  · have hforeign : Foreign c event := by
      by_cases hc : event.connection = some c
      · obtain ⟨thread, hactive⟩ | ⟨-, error, rfl⟩ := howner c hc
        · exact absurd (hpast.later _ hactive) (Nat.lt_irrefl _)
        · exact ⟨rfl, rfl, rfl, rfl⟩
      · exact Foreign.of_ne hc
    rw [hlog]
    exact ⟨returnedCode_skip hforeign.returned, reportedStage_skip hforeign.stage,
      fun _ h => h.skip hforeign.stageError⟩

end Step

theorem Pc.readsStage_of_phase {pc : Pc} {c : ConnId} {code : Int32}
    (h : pc.phase = .reading c code) :
    pc.readsStage = true ∧ pc.readsStageError = true := by
  cases pc with
  | start d pc =>
      cases pc with
      | readStage code => exact ⟨rfl, rfl⟩
      | _ => cases h
  | idle => cases h
  | stop d pc => cases pc <;> cases h
  | audio callback d pc => cases callback <;> cases h

theorem Pc.readsStageError_of_phase {pc : Pc} {c : ConnId} {code stage : Int32}
    (h : pc.phase = .readingError c code stage) : pc.readsStageError = true := by
  cases pc with
  | start d pc =>
      cases pc with
      | readStageError code stage => rfl
      | _ => cases h
  | idle => cases h
  | stop d pc => cases pc <;> cases h
  | audio callback d pc => cases callback <;> cases h

/-- What the other threads know afterwards. -/
theorem other_facts [DecidableEq T] {s : System T} {t u : T} {action : Action} {s' : Shared T}
    {p' : Phase} (h : Invariant s.shared s.pcs) (hundisturbed : Undisturbed s (t, action))
    (hmove : Move t s.shared ((s.pcs t).stores action) (s.pcs t).phase s' p') (hne : u ≠ t) :
    (∀ c, (s.pcs u).phase.holder = some c → s'.connectionActive = some ⟨c, some u⟩) ∧
      Facts u s' (s.pcs u).phase := by
  have hfacts := h.facts u
  have hcallback := fun hu => callback_step (h.facts t) hmove hne hu
  have hlog := log_step (h.holds t) (h.facts t) h.stream hmove
  have hguest : ∀ c, (s.pcs u).phase.holder = some c → Guest c s.shared s' := by
    intro c hc
    have hu := h.holds u c hc
    refine guest_step (h.facts t) ?_ h.stream hmove hu
    rw [Option.eq_none_iff_forall_ne_some]
    intro d hd
    have ht := h.holds t d hd
    rw [hu] at ht
    cases ht
    exact hne rfl
  refine ⟨fun c hc => (hguest c hc).active.trans (h.holds u c hc), ?_⟩
  cases hq : (s.pcs u).phase with
  | outside => trivial
  | decoding c =>
      rw [hq] at hfacts
      exact ⟨stream_kept (h.holds t) h.stream hmove hfacts.2 hfacts.1, hcallback hfacts.2⟩
  | reading c code =>
      rw [hq] at hfacts
      obtain ⟨hpast, hcode, hstage, herror⟩ := hfacts
      obtain ⟨hcode', hstage', herror'⟩ := reports_of_past hpast hlog
      have hreads := Pc.readsStage_of_phase hq
      have hsame := lastStage_step hmove fun hstore =>
        Bool.false_ne_true ((hundisturbed.stage hstore u).symm.trans hreads.1)
      have hsameError := stageError_step hmove fun hstore =>
        Bool.false_ne_true ((hundisturbed.stageError hstore u).symm.trans hreads.2)
      refine ⟨past_step (h.holds t) hmove hpast, hcode'.trans hcode, ?_, ?_⟩
      · rw [hsame, hstage', hstage]
      · rw [hsameError]
        exact herror' _ herror
  | readingError c code stage =>
      rw [hq] at hfacts
      obtain ⟨hpast, hcode, hstage, herror⟩ := hfacts
      obtain ⟨hcode', hstage', herror'⟩ := reports_of_past hpast hlog
      have hreads := Pc.readsStageError_of_phase hq
      have hsameError := stageError_step hmove fun hstore =>
        Bool.false_ne_true ((hundisturbed.stageError hstore u).symm.trans hreads)
      refine ⟨past_step (h.holds t) hmove hpast, hcode'.trans hcode, ?_, ?_⟩
      · rw [hstage', hstage]
      · rw [hsameError]
        exact herror' _ herror
  | _ =>
      rw [hq] at hfacts hguest
      exact (hguest _ rfl).facts rfl hfacts hcallback

theorem Invariant.step [DecidableEq T] {s : System T} {t : T} {action : Action} {s' : Shared T}
    {pc' : Pc} (h : Invariant s.shared s.pcs) (hundisturbed : Undisturbed s (t, action))
    (hstep : advance t s.shared (s.pcs t) action = some (s', pc')) :
    Invariant s' (Function.update s.pcs t pc') := by
  have hmove := advance_move hstep
  have hholds := h.holds t
  have hfacts := h.facts t
  have hlog := log_step hholds hfacts h.stream hmove
  have hslot : ∀ c thread, s.shared.connectionActive = some ⟨c, thread⟩ →
      (∃ thread, s'.connectionActive = some ⟨c, thread⟩) ∨
        (s'.connectionActive = none ∧ s'.Quiet ∧ s'.audioRenderer = none) :=
    fun c thread => kept_or_released hholds hfacts hmove
  refine ⟨?_, ?_, ?_, ?_, ?_, ?_, ?_, ?_, ?_⟩
  · intro u c hc
    by_cases hu : u = t
    · subst hu
      rw [Function.update_self] at hc
      exact own_holds hholds hmove hc
    · rw [Function.update_of_ne hu] at hc
      exact (other_facts h hundisturbed hmove hu).1 c hc
  · intro u
    by_cases hu : u = t
    · subst hu
      rw [Function.update_self]
      exact own_facts h hholds hfacts hmove hundisturbed.error
    · rw [Function.update_of_ne hu]
      exact (other_facts h hundisturbed hmove hu).2
  · intro hfree
    cases hactive : s.shared.connectionActive with
    | none => exact callback_free hholds hmove hactive (h.quiet_of_free hactive).1
    | some hold =>
        obtain ⟨thread, hkept⟩ | ⟨-, hquiet, -⟩ := hslot hold.connection hold.thread hactive
        · rw [hkept] at hfree
          cases hfree
        · exact hquiet.callback
  · intro c hstream
    have hactive : ∃ thread, s.shared.connectionActive = some ⟨c, thread⟩ :=
      (stream_step hholds hmove hstream).elim (h.stream c) fun hactive => ⟨_, hactive⟩
    obtain ⟨thread, hactive⟩ := hactive
    refine (hslot c thread hactive).resolve_right fun ⟨_, hquiet, _⟩ => ?_
    exact nomatch hquiet.stream.symm.trans hstream
  · intro c hrenderer
    have hactive : ∃ thread, s.shared.connectionActive = some ⟨c, thread⟩ :=
      (renderer_step hholds hmove hrenderer).elim (h.renderer c) fun hactive => ⟨_, hactive⟩
    obtain ⟨thread, hactive⟩ := hactive
    refine (hslot c thread hactive).resolve_right fun ⟨_, _, hnone⟩ => ?_
    exact nomatch hnone.symm.trans hrenderer
  · exact active_step hholds h.active hmove
  · intro event hevent c hc
    have hle := attempts_le hmove
    have hlogged : ∀ event ∈ s.shared.log, event.connection = some c → c < s.shared.attempts :=
      fun event hevent => h.logged event hevent c
    obtain hsame | ⟨new, hnew, -, howner⟩ := hlog
    · rw [hsame] at hevent
      exact Nat.lt_of_lt_of_le (hlogged event hevent hc) hle
    · rw [hnew] at hevent
      obtain rfl | hmem := List.mem_cons.mp hevent
      · obtain ⟨thread, hactive⟩ | ⟨hpast, -⟩ := howner c hc
        · exact Nat.lt_of_lt_of_le (h.active _ hactive) hle
        · exact Nat.lt_of_lt_of_le hpast.attempt hle
      · exact Nat.lt_of_lt_of_le (hlogged event hmem hc) hle
  · intro c error hfailed
    obtain hmem | hpast := failed_step hholds hfacts h.active hmove hfailed
    · exact past_step hholds hmove (h.past c error hmem)
    · exact hpast
  · obtain hsame | ⟨new, hnew, hdescribes, -⟩ := hlog
    · rw [hsame]
      exact h.described
    · rw [hnew]
      exact ⟨hdescribes, h.described⟩

/-! ## Whole runs -/

theorem Invariant.ownFailures {s : Shared T} {pcs : T → Pc} (h : Invariant s pcs) :
    OwnFailures s where
  described := h.described
  cleared c error hfailed := by
    cases hactive : s.connectionActive with
    | none => exact .inl ⟨rfl, (h.quiet_of_free hactive).2⟩
    | some hold =>
        refine .inr ⟨hold, rfl, (h.past c error hfailed).later hold hactive, ?_⟩
        cases hrenderer : s.audioRenderer with
        | none => exact .inl rfl
        | some d =>
            obtain ⟨thread, hd⟩ := h.renderer d hrenderer
            rw [hactive] at hd
            cases hd
            exact .inr rfl

theorem start_failures [DecidableEq T] (schedule : List (T × Action))
    (h : Meets step Undisturbed System.init schedule) :
    Always step (fun s => OwnFailures s.shared) System.init schedule := by
  refine Always.of_meets (I := fun s => Invariant s.shared s.pcs) ?_
    (fun s => Invariant.ownFailures) Invariant.init h
  intro s label s' hs hundisturbed hstep
  obtain ⟨⟨shared, pc⟩, hadvance, rfl⟩ := Option.map_eq_some_iff.mp hstep
  exact hs.step hundisturbed hadvance

/-- Two attempts, where `steps` are taken between the release of the first and its reads. -/
def overlapping (steps : Nat) : List (Bool × Action) :=
  (false, .start true) :: List.replicate 7 (false, .run) ++
    [(false, .stageFailed 3 11), (false, .run), (false, .startReturns 5)] ++
    List.replicate 5 (false, .run) ++
    (true, .start false) :: List.replicate steps (true, .run) ++ List.replicate 2 (false, .run)

/-- The second attempt may take the slot and install its renderer, but not reset the stage. -/
theorem start_failures_early :
    Always step (fun s => OwnFailures s.shared) System.init (overlapping 5) ∧
      (run step System.init (overlapping 5)).map (fun s => s.shared.log.head?) =
        some (some (.failed 0 (.startFailed 5 3 (some 11)))) :=
  ⟨start_failures (overlapping 5) (by decide +kernel), by decide +kernel⟩

/-- The first attempt reports the stage that the second attempt has reset. -/
theorem start_failures_mixed :
    ¬∀ schedule : List (Bool × Action),
      Always step (fun s => OwnFailures s.shared) System.init schedule := by
  intro hall
  have hlog : (run step System.init (overlapping 6)).map (fun s => s.shared.log) =
      some [.failed 0 (.startFailed 5 0 (some 11)), .returned 0 5, .stageError 0 11,
        .stage 0 3] := by
    decide +kernel
  obtain ⟨s, hrun, hs⟩ := Option.map_eq_some_iff.mp hlog
  have hdescribed := ((hall _).of_run hrun).described
  rw [hs] at hdescribed
  obtain ⟨⟨-, hstage, -⟩, -⟩ := hdescribed
  exact absurd hstage (by decide)

end MoonlightScarlet.Sys.StartAttempt
