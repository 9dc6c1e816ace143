import MoonlightScarlet.Control.Client
import MoonlightScarlet.Support.Fallible
/-!
# What an operation adds to the trace

`Sofar t new` holds of the traces that extend `t` by the events `new`.  Each basic
operation has a rule for what follows it, in these terms.
-/

namespace MoonlightScarlet.Control

open Support.Fallible

@[simp] theorem ofExcept_ok_bind {α β : Type} (a : α) (next : α → ControlM β) :
    (ofExcept (.ok a) >>= next) = next a := rfl

@[simp] theorem ofExcept_error_bind {α β : Type} (error : ControlError)
    (next : α → ControlM β) :
    (ofExcept (.error error) >>= next) = throw (.error error) := rfl

@[simp] theorem throw_bind {α β : Type} (failure : Failure) (next : α → ControlM β) :
    ((throw failure : ControlM α) >>= next) = throw failure := rfl

/-- What passes the check of a flag is "1". -/
theorem eq_one_of_check {text : Except ControlError String} {refusal : ControlError}
    (h : (do if (← text) = "1" then return () else throw refusal : Except ControlError Unit) =
      .ok ()) : text = .ok "1" := by
  obtain ⟨value, rfl, hvalue⟩ := bind_eq_ok.mp h
  by_cases hone : value = "1"
  · rw [hone]
  · rw [if_neg hone] at hvalue
    cases hvalue

/-- The events since `start` are `new`. -/
def Sofar (start : Trace) (new : List Event) (trace : Trace) : Prop :=
  trace.events = start.events ++ new

/-- The operation returned an error, and the events since `start` are in `Q`. -/
def Failed (start : Trace) (Q : List Event → Prop) (failure : Failure) (trace : Trace) : Prop :=
  (∃ error, failure = .error error) ∧ ∃ new, Sofar start new trace ∧ Q new

/-- The run of `x` from `start` ends with `result` and adds the events `new`. -/
def Ran {α : Type} (x : ControlM α) (start : Trace) (result : Except Failure α)
    (new : List Event) : Prop :=
  match x start with
  | .ok a trace => result = .ok a ∧ Sofar start new trace
  | .error failure trace => result = .error failure ∧ Sofar start new trace

theorem Ran.of_ok {α : Type} {x : ControlM α} {start trace : Trace} {a : α} {new : List Event}
    (hx : x start = .ok a trace) (htrace : Sofar start new trace) :
    Ran x start (.ok a) new := by
  rw [Ran, hx]
  exact ⟨rfl, htrace⟩

theorem Ran.of_error {α : Type} {x : ControlM α} {start trace : Trace} {failure : Failure}
    {new : List Event} (hx : x start = .error failure trace) (htrace : Sofar start new trace) :
    Ran x start (.error failure) new := by
  rw [Ran, hx]
  exact ⟨rfl, htrace⟩

theorem Ran.unique {α : Type} {x : ControlM α} {start : Trace} {result result' : Except Failure α}
    {new new' : List Event} (h : Ran x start result new) (h' : Ran x start result' new') :
    result = result' ∧ new = new' := by
  unfold Ran at h h'
  cases hx : x start with
  | ok a trace =>
      rw [hx] at h h'
      exact ⟨h.1.trans h'.1.symm, List.append_cancel_left (h.2.symm.trans h'.2)⟩
  | error failure trace =>
      rw [hx] at h h'
      exact ⟨h.1.trans h'.1.symm, List.append_cancel_left (h.2.symm.trans h'.2)⟩

theorem Sofar.log {start trace : Trace} {new : List Event} (h : Sofar start new trace)
    (event : Event) : Sofar start (new ++ [event]) (trace.log event) := by
  rw [Sofar, Trace.log, h, List.append_assoc]

section Rules

variable {β : Type} {start : Trace} {new : List Event} {Q : List Event → Prop}
  {R : β → Trace → Prop}

theorem failed_triple {error : ControlError} (hQ : Q new) :
    Triple (Sofar start new) (throw (.error error) : ControlM β) R (Failed start Q) :=
  .throw fun _ htrace => ⟨⟨error, rfl⟩, new, htrace, hQ⟩

theorem report_bind {progress : ConnectProgress} {next : Unit → ControlM β}
    {E : Failure → Trace → Prop}
    (h : Triple (Sofar start (new ++ [.progress progress])) (next ()) R E) :
    Triple (Sofar start new) (report progress >>= next) R E := by
  refine .bind (R := fun _ => Sofar start (new ++ [.progress progress]))
    (.intro ?_) fun _ => h
  intro trace htrace
  exact htrace.log (.progress progress)

theorem randomBytes_bind {world : World} {size : Nat} {next : Vector UInt8 size → ControlM β}
    {E : Failure → Trace → Prop}
    (h : ∀ bytes, Triple (Sofar start new) (next bytes) R E) :
    Triple (Sofar start new) (world.randomBytes size >>= next) R E := by
  refine .bind (R := fun _ => Sofar start new) (.intro ?_) h
  intro trace htrace
  exact htrace

theorem ofExcept_bind {α : Type} {value : Except ControlError α} {next : α → ControlM β}
    (hQ : Q new)
    (h : ∀ a, value = .ok a → Triple (Sofar start new) (next a) R (Failed start Q)) :
    Triple (Sofar start new) (ofExcept value >>= next) R (Failed start Q) := by
  cases value with
  | ok a => exact h a rfl
  | error error => exact failed_triple hQ

theorem ofExcept_triple {value : Except ControlError β} (hQ : Q new)
    (h : ∀ a, value = .ok a → ∀ trace, Sofar start new trace → R a trace) :
    Triple (Sofar start new) (ofExcept value) R (Failed start Q) := by
  cases value with
  | ok a => exact .pure fun trace htrace => h a rfl trace htrace
  | error error => exact failed_triple hQ

/-- What follows a request may use that the reply is what the host answers now. -/
theorem request_bind {world : World} {request : Request} {next : String → ControlM β}
    (hQ : ∀ reply, Q (new ++ [.exchange ⟨request, reply⟩]))
    (h : ∀ xml, world.host (start.events ++ new) request = .ok xml →
      Triple (Sofar start (new ++ [.exchange ⟨request, .ok xml⟩])) (next xml) R
        (Failed start Q)) :
    Triple (Sofar start new) (world.request request >>= next) R (Failed start Q) := by
  refine .bind (R := fun xml trace => Sofar start (new ++ [.exchange ⟨request, .ok xml⟩]) trace ∧
    world.host (start.events ++ new) request = .ok xml) (.intro ?_) fun xml => .and_pre (h xml)
  intro trace htrace
  have hrun : (world.request request).run trace =
      (ofExcept (world.host trace.events request)).run
        (trace.log (.exchange ⟨request, world.host trace.events request⟩)) := rfl
  rw [hrun, ← htrace]
  cases world.host trace.events request with
  | ok xml => exact ⟨htrace.log _, rfl⟩
  | error error => exact ⟨⟨error, rfl⟩, _, htrace.log _, hQ (.error error)⟩

end Rules

end MoonlightScarlet.Control
