import MoonlightScarlet.Sys.Input
import MoonlightScarlet.Video.FitSize
/-!
# Direct-touch routing

`TouchInput` maps the contacts of the local seats to the ten pointers of a host
with native touch, or to the left mouse button of a host without it.  A sink
answers every send; `delivered` records, in order, the packets that it accepted.
-/

namespace MoonlightScarlet.Touch

open Sys

variable {F : Type}

inductive TouchPhase
  | down
  | move
  | up
  | cancel
  deriving DecidableEq, Repr

structure TouchChange where
  seatId : UInt32
  id : UInt64
  phase : TouchPhase
  x : Int32
  y : Int32

/-- A packet for the host, as the calls of `TouchSink` describe it. -/
inductive Sent (F : Type)
  | touch (phase : TouchEventType) (id : UInt32) (x y : F)
  | position (x y : F)
  | button (pressed : Bool)
  deriving DecidableEq, Repr

/-- The answers of a sink during one call of `route` or `release_to`.  Neither
makes the same send twice, so the answers are functions of the packet. -/
structure TouchSink (F : Type) where
  supportsTouch : Except InputError Bool
  send : Sent F → Except InputError Unit

structure Contact (F : Type) where
  seat : UInt32
  localId : UInt64
  remoteId : UInt32
  position : F × F

structure TouchInput (F : Type) where
  native : Option Bool := none
  contacts : List (Contact F) := []

/-- Sends already made: how they ended and which of them were delivered. -/
structure Attempt (F : Type) where
  result : Except InputError Unit := .ok ()
  delivered : List (Sent F) := []

def TouchSink.attempt (sink : TouchSink F) (packet : Sent F) : Attempt F :=
  match sink.send packet with
  | .ok () => ⟨.ok (), [packet]⟩
  | .error error => ⟨.error error, []⟩

/-- `first?; second`. -/
def Attempt.andThen (first second : Attempt F) : Attempt F :=
  match first.result with
  | .ok () => ⟨second.result, first.delivered ++ second.delivered⟩
  | .error error => ⟨.error error, first.delivered⟩

/-- Both sends are made and the first error wins, as in `position.and(release)`. -/
def Attempt.and (first second : Attempt F) : Attempt F :=
  match first.result with
  | .ok () => ⟨second.result, first.delivered ++ second.delivered⟩
  | .error error => ⟨.error error, first.delivered ++ second.delivered⟩

/-- What one call returns, leaves behind and has delivered. -/
structure TouchOutcome (F α : Type) where
  input : TouchInput F
  delivered : List (Sent F)
  result : Except InputError α

section Route

variable [F32 F]

def videoPosition (x y : Int32) (viewport video : UInt32 × UInt32) (clamp : Bool) :
    Option (F × F) :=
  let (w, h) := Video.fitSize video.1 video.2 viewport.1 viewport.2
  if w = 0 ∨ h = 0 then none
  else
    let fromU32 (value : UInt32) : F := F32.ofInt (value.toNat : Int)
    let x := F32.div
      (F32.sub (F32.ofInt x.toInt) (F32.mul (fromU32 (viewport.1 - w)) F32.half))
      (fromU32 w)
    let y := F32.div
      (F32.sub (F32.ofInt y.toInt) (F32.mul (fromU32 (viewport.2 - h)) F32.half))
      (fromU32 h)
    if !clamp && (!inUnit x || !inUnit y) then none
    else some (clampUnit x, clampUnit y)

def TouchInput.existing (input : TouchInput F) (change : TouchChange) :
    Option (Fin input.contacts.length) :=
  input.contacts.findFinIdx? fun contact =>
    contact.seat == change.seatId && contact.localId == change.id

/-- `(0..10).find(..)`: the lowest pointer id that no contact uses. -/
def freeRemoteId (contacts : List (Contact F)) : Option UInt32 :=
  ((List.range 10).map UInt32.ofNat).find? fun id =>
    !contacts.any fun contact => contact.remoteId == id

/-- The arm of `route` for a Down of a contact that is not tracked yet. -/
def TouchInput.begin (input : TouchInput F) (change : TouchChange)
    (point : Option (F × F)) (sink : TouchSink F) : TouchOutcome F Bool :=
  match point with
  | none => ⟨input, [], .ok false⟩
  | some (x, y) =>
      match input.native.elim sink.supportsTouch .ok with
      | .error error => ⟨input, [], .error error⟩
      | .ok native =>
          let input := { input with native := some native }
          if !native && !input.contacts.isEmpty then ⟨input, [], .ok false⟩
          else
            match freeRemoteId input.contacts with
            | none => ⟨input, [], .ok false⟩
            | some id =>
                let sends :=
                  if native then sink.attempt (.touch .down id x y)
                  else (sink.attempt (.position x y)).andThen (sink.attempt (.button true))
                match sends.result with
                | .error error => ⟨input, sends.delivered, .error error⟩
                | .ok () =>
                    let contact : Contact F :=
                      { seat := change.seatId, localId := change.id
                        remoteId := id, position := (x, y) }
                    ⟨{ input with contacts := input.contacts ++ [contact] },
                      sends.delivered, .ok true⟩

/-- Down never reaches a tracked contact. -/
def TouchPhase.remote : TouchPhase → TouchEventType
  | .move => .move
  | .up => .up
  | .cancel => .cancel
  | .down => .down

/-- `matches!(change.phase, TouchPhase::Up | TouchPhase::Cancel)`. -/
def TouchPhase.ending (phase : TouchPhase) : Bool := phase == .up || phase == .cancel

/-- The sends of a Move, Up or Cancel for a tracked contact. -/
def TouchSink.follow (sink : TouchSink F) (native : Option Bool) (phase : TouchPhase)
    (contact : Contact F) (point : F × F) : Attempt F :=
  if native = some true then
    sink.attempt (.touch phase.remote contact.remoteId point.1 point.2)
  else if phase.ending then
    -- A failed final position must not leave the mouse button pressed.
    let position := if phase = .up then sink.attempt (.position point.1 point.2) else {}
    position.and (sink.attempt (.button false))
  else sink.attempt (.position point.1 point.2)

/-- The arm of `route` for a Move, Up or Cancel of the tracked contact `index`. -/
def TouchInput.follow (input : TouchInput F) (index : Fin input.contacts.length)
    (change : TouchChange) (point : Option (F × F)) (sink : TouchSink F) :
    TouchOutcome F Bool :=
  let contact := input.contacts[index]
  let position := point.getD contact.position
  let sends := sink.follow input.native change.phase contact position
  let contacts :=
    if change.phase.ending && sends.result.isOk then input.contacts.eraseIdx index
    else input.contacts.set index { contact with position }
  ⟨{ input with contacts }, sends.delivered, sends.result.map fun () => true⟩

def TouchInput.route (input : TouchInput F) (change : TouchChange)
    (viewport video : UInt32 × UInt32) (sink : TouchSink F) : TouchOutcome F Bool :=
  let existing := input.existing change
  let point := videoPosition change.x change.y viewport video (change.phase ≠ .down)
  if change.phase = .down then
    if existing.isSome then ⟨input, [], .ok true⟩
    else input.begin change point sink
  else
    match existing with
    | none => ⟨input, [], .ok false⟩
    | some index => input.follow index change point sink

def TouchInput.releaseTo (input : TouchInput F) (sink : TouchSink F) :
    TouchOutcome F Unit :=
  if input.contacts.isEmpty then ⟨input, [], .ok ()⟩
  else
    let sends :=
      if input.native = some true then
        sink.attempt (.touch .cancelAll 0 F32.zero F32.zero)
      else sink.attempt (.button false)
    ⟨{ native := none, contacts := [] }, sends.delivered, sends.result⟩

end Route

/-- The seat and the seat-local id of a contact. -/
abbrev Owner := UInt32 × UInt64

def TouchChange.owner (change : TouchChange) : Owner := (change.seatId, change.id)

def Contact.owner (contact : Contact F) : Owner := (contact.seat, contact.localId)

theorem attempt_cases (sink : TouchSink F) (packet : Sent F) :
    sink.send packet = .ok () ∧ sink.attempt packet = ⟨.ok (), [packet]⟩ ∨
      ∃ error, sink.send packet = .error error ∧ sink.attempt packet = ⟨.error error, []⟩ := by
  unfold TouchSink.attempt
  cases sink.send packet with
  | ok => exact Or.inl ⟨rfl, rfl⟩
  | error error => exact Or.inr ⟨error, rfl, rfl⟩

theorem freeRemoteId_some {contacts : List (Contact F)} {id : UInt32}
    (h : freeRemoteId contacts = some id) :
    id < 10 ∧ ∀ contact ∈ contacts, contact.remoteId ≠ id := by
  unfold freeRemoteId at h
  have hmem := List.mem_of_find?_eq_some h
  have hfree := List.find?_some h
  obtain ⟨n, hn, rfl⟩ := List.mem_map.mp hmem
  refine ⟨?_, by simpa using hfree⟩
  have hlt : n < 10 := List.mem_range.mp hn
  rw [UInt32.lt_iff_toNat_lt, UInt32.toNat_ofNat', Nat.mod_eq_of_lt (by omega)]
  exact hlt

theorem existing_some {input : TouchInput F} {change : TouchChange}
    {index : Fin input.contacts.length} (h : input.existing change = some index) :
    input.contacts[index].owner = change.owner := by
  have hfound := (List.findFinIdx?_eq_some_iff.mp h).1
  simp only [Bool.and_eq_true, beq_iff_eq] at hfound
  exact Prod.ext hfound.1 hfound.2

theorem existing_none {input : TouchInput F} {change : TouchChange}
    (h : input.existing change = none) :
    ∀ contact ∈ input.contacts, contact.owner ≠ change.owner := by
  intro contact hcontact howner
  have := List.findFinIdx?_eq_none_iff.mp h contact hcontact
  obtain ⟨hseat, hid⟩ := Prod.mk.inj howner
  simp [hseat, hid] at this

end MoonlightScarlet.Touch
