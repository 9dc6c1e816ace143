import Mathlib.Data.List.Basic
/-!
# Aspect fit of the decoded video

`fit_size` places a source picture inside a destination.  The products are
computed in 64 bits and the quotient is cast back to 32.
-/

namespace MoonlightScarlet.Video

def fitSize (sourceWidth sourceHeight destinationWidth destinationHeight : UInt32) :
    UInt32 × UInt32 :=
  if sourceWidth = 0 ∨ sourceHeight = 0 ∨ destinationWidth = 0 ∨ destinationHeight = 0 then
    (0, 0)
  else
    let widthLimited := destinationWidth.toUInt64 * sourceHeight.toUInt64
      ≤ destinationHeight.toUInt64 * sourceWidth.toUInt64
    if widthLimited then
      let height := (destinationWidth.toUInt64 * sourceHeight.toUInt64
        / sourceWidth.toUInt64).toUInt32
      (destinationWidth, max height 1)
    else
      let width := (destinationHeight.toUInt64 * sourceWidth.toUInt64
        / sourceHeight.toUInt64).toUInt32
      (max width 1, destinationHeight)

example : fitSize 1920 1080 800 800 = (800, 450) := by decide

end MoonlightScarlet.Video
