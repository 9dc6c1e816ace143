/-!
# Settings that another party applies

A setting is asked of a party that answers every accepted request later, by
reporting the value that it has applied, and that may report values unasked.  The
owner of the setting takes each report as its new wish.
-/

namespace Support.Reconcile

variable {α : Type} [DecidableEq α]

structure Setting (α : Type) where
  desired : α
  applied : α
  pending : Bool

/-- What happens to a setting: its owner wants a value or asks for the one that it
wants, and the other party answers a request or reports a value unasked. -/
inductive Event (α : Type)
  | intend (value : α)
  | ask (accepted : Bool)
  | answer (value : α)
  | report (value : α)

namespace Setting

/-- There is something to ask for, and no request is pending. -/
def Due (setting : Setting α) : Prop :=
  setting.desired ≠ setting.applied ∧ setting.pending = false

instance (setting : Setting α) : Decidable setting.Due := by
  unfold Due
  infer_instance

def reported (_ : Setting α) (value : α) : Setting α := ⟨value, value, false⟩

def after (setting : Setting α) : Event α → Setting α
  | .intend value => { setting with desired := value }
  | .ask accepted =>
      if setting.Due then
        if accepted then { setting with pending := true }
        else { setting with desired := setting.applied }
      else setting
  | .answer value => setting.reported value
  | .report value => setting.reported value

end Setting

/-- The values of the accepted requests that were not answered yet, the latest intent,
and whether since then a request was refused or a value reported unasked. -/
structure History (α : Type) where
  inFlight : List α
  intent : α
  excused : Bool

def History.after (history : History α) (setting : Setting α) : Event α → History α
  | .intend value => { history with intent := value, excused := false }
  | .ask accepted =>
      if setting.Due then
        if accepted then { history with inFlight := history.inFlight ++ [setting.desired] }
        else { history with excused := true }
      else history
  | .answer value => { history with inFlight := history.inFlight.erase value }
  | .report _ => { history with excused := true }

/-- Nothing is pending or left to ask for, and the applied value is the latest intent
unless something else has come since. -/
def Settled (setting : Setting α) (history : History α) : Prop :=
  setting.pending = false → setting.desired = setting.applied → history.excused = false →
    setting.applied = history.intent

/-- The owner still wants its latest intent. -/
def Faithful (setting : Setting α) (history : History α) : Prop :=
  history.excused = false → setting.desired = history.intent

/-- An answer reports the latest intent, unless something else has come since. -/
def Timely (history : History α) : Event α → Prop
  | .answer value => history.excused = false → value = history.intent
  | _ => True

variable {setting : Setting α} {history : History α}

omit [DecidableEq α] in
theorem Faithful.settled (h : Faithful setting history) : Settled setting history :=
  fun _ hdone hexcused => hdone ▸ h hexcused

theorem Faithful.after (h : Faithful setting history) {event : Event α}
    (htimely : Timely history event) :
    Faithful (setting.after event) (history.after setting event) := by
  cases event with
  | intend value => exact fun _ => rfl
  | ask accepted =>
      unfold Setting.after History.after
      dsimp only
      split
      · cases accepted with
        | true => exact h
        | false => exact fun hexcused => nomatch hexcused
      · exact h
  | answer value => exact htimely
  | report value => exact fun hexcused => nomatch hexcused

/-- A late answer leaves a setting that is at rest on a value nobody wants. -/
theorem not_settled_of_untimely {event : Event α} (h : ¬Timely history event) :
    ¬Settled (setting.after event) (history.after setting event) := by
  cases event with
  | answer value =>
      intro hsettled
      exact h fun hexcused => hsettled rfl rfl hexcused
  | intend value => exact absurd trivial h
  | ask accepted => exact absurd trivial h
  | report value => exact absurd trivial h

end Support.Reconcile
