import Wireframe.Value.Number

/-
  Wireframe.Room — how long lists and texts may get.

  A length is a 64-bit word, and there has to be room for all that is so long. How much room there
  is depends on where the program runs.
-/

namespace Wireframe

/-- Lengths lie below this bound, and not below its opposite. -/
def lengthBound : Int := 9223372036854775808

/-- Is there room for so many items or characters, where there is room for some? Less than none take
    no room. -/
def checkRoom (room length : Int) : Calculation Unit :=
  if length < -lengthBound ∨ lengthBound ≤ length then .error .tooLarge
  else if room < length then .error .noRoom
  else .ok ()

end Wireframe
