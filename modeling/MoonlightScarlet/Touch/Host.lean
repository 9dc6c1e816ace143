import MoonlightScarlet.Touch.Routing
import MoonlightScarlet.Support.Runs
import Mathlib.Logic.Function.Basic
/-!
# Touch sessions and what the host makes of them

A session interleaves `route` calls with `release_to` calls that succeed.  A host
with native touch keeps a set of pointers that are down; a host without it only
sees the left mouse button.
-/

namespace MoonlightScarlet.Touch

open Sys

variable {F : Type}

/-- A delivered packet and the contact whose change it was sent for, if any. -/
structure Delivery (F : Type) where
  owner : Option Owner
  packet : Sent F

/-- The pointers that are down on the host, each with the contact it stands for. -/
abbrev Pointers := UInt32 → Option Owner

def Pointers.receive (pointers : Pointers) (delivery : Delivery F) : Pointers :=
  match delivery.packet with
  | .touch .down id _ _ => Function.update pointers id delivery.owner
  | .touch .up id _ _ => Function.update pointers id none
  | .touch .cancel id _ _ => Function.update pointers id none
  | .touch .cancelAll _ _ _ => fun _ => none
  | .touch .move _ _ _ => pointers
  | .position _ _ => pointers
  | .button _ => pointers

def pointersAfter (delivered : List (Delivery F)) : Pointers :=
  delivered.foldl Pointers.receive fun _ => none

/-- Down is for a free pointer; Move, Up and Cancel are for a pointer that is down
and stands for the very contact that changed. -/
def Pointers.Expects (pointers : Pointers) (delivery : Delivery F) : Prop :=
  match delivery.packet with
  | .touch .down id _ _ => pointers id = none
  | .touch .move id _ _ => ∃ owner, delivery.owner = some owner ∧ pointers id = some owner
  | .touch .up id _ _ => ∃ owner, delivery.owner = some owner ∧ pointers id = some owner
  | .touch .cancel id _ _ => ∃ owner, delivery.owner = some owner ∧ pointers id = some owner
  | .touch .cancelAll _ _ _ => True
  | .position _ _ => True
  | .button _ => True

def receiveButton (pressed : Bool) : Sent F → Bool
  | .button now => now
  | .touch _ _ _ _ => pressed
  | .position _ _ => pressed

/-- Whether the left mouse button is down on the host. -/
def buttonAfter (delivered : List (Delivery F)) : Bool :=
  (delivered.map Delivery.packet).foldl receiveButton false

inductive Op (F : Type)
  | route (change : TouchChange) (viewport video : UInt32 × UInt32) (sink : TouchSink F)
  | releaseTo (sink : TouchSink F)

def Op.sink : Op F → TouchSink F
  | .route _ _ _ sink => sink
  | .releaseTo sink => sink

structure Session (F : Type) where
  input : TouchInput F := {}
  delivered : List (Delivery F) := []

/-- One call.  A `release_to` that fails is not a step of a session. -/
def Session.step [F32 F] (session : Session F) : Op F → Option (Session F)
  | .route change viewport video sink =>
      let outcome := session.input.route change viewport video sink
      some ⟨outcome.input, session.delivered ++
        outcome.delivered.map fun packet => ⟨some change.owner, packet⟩⟩
  | .releaseTo sink =>
      let outcome := session.input.releaseTo sink
      if outcome.result.isOk then
        some ⟨outcome.input,
          session.delivered ++ outcome.delivered.map fun packet => ⟨none, packet⟩⟩
      else none

@[simp] theorem pointersAfter_append (xs ys : List (Delivery F)) :
    pointersAfter (xs ++ ys) = ys.foldl Pointers.receive (pointersAfter xs) :=
  List.foldl_append

theorem buttonAfter_append (delivered : List (Delivery F)) (owner : Option Owner)
    (packets : List (Sent F)) :
    buttonAfter (delivered ++ packets.map fun packet => ⟨owner, packet⟩) =
      packets.foldl receiveButton (buttonAfter delivered) := by
  simp [buttonAfter, List.foldl_append, Function.comp_def]

end MoonlightScarlet.Touch
