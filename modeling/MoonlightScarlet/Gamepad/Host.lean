import MoonlightScarlet.Gamepad.Tracker
/-!
# The host's side of controller packets

What a GameStream host makes of the packets: an arrival plugs in a neutral
controller, a state packet unplugs every controller whose bit is clear and then
updates its own.  This is the purpose of the tracker, stated without it.
-/

namespace MoonlightScarlet.Gamepad

open Sys

/-- The controllers that the host presents to the game, by slot. -/
abbrev Host := Slot → Option ControllerState

def noControllers : Host := fun _ => none

def Host.receive (host : Host) : Packet → Host
  | .arrival slot _ => Function.update host slot (some {})
  | .state slot mask state => fun other =>
      if mask.getLsbD other then
        if other = slot then some state else host other
      else none

/-- The host after the packets of one connection, oldest first. -/
def hostAfter (packets : List Packet) : Host :=
  packets.foldl Host.receive noControllers

def Packet.mask : Packet → BitVec 16
  | .arrival _ mask => mask
  | .state _ mask _ => mask

/-- `shown` is `reported` with the bits of A (12) and B (13) exchanged iff
`swapAb`, and nothing else changed. -/
def Presents (swapAb : Bool) (reported shown : ControllerState) : Prop :=
  shown = { reported with buttons := shown.buttons } ∧
  ∀ i, shown.buttons.getLsbD i =
    reported.buttons.getLsbD (if swapAb then Equiv.swap 12 13 i else i)

/-- A neutral state packet for `slot` that clears the bit of `slot`. -/
def Packet.Unplugs (slot : Slot) (packet : Packet) : Prop :=
  ∃ mask, packet = .state slot mask {} ∧ mask.getLsbD slot = false

theorem hostAfter_snoc (packets : List Packet) (packet : Packet) :
    hostAfter (packets ++ [packet]) = (hostAfter packets).receive packet := by
  simp [hostAfter]

end MoonlightScarlet.Gamepad
