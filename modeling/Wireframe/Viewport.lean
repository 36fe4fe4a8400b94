import Wireframe.Text.Blank
import Wireframe.Text.Digit

/-
  Wireframe.Viewport — the sizes of screen that a scaffold is checked at.

  A viewport is written as its width and height with an `x` between, as in `320x640`. Blanks may
  stand around both numbers, and their digits may be of any script.
-/

namespace Wireframe

structure Viewport where
  width : Nat
  height : Nat
  width_pos : 0 < width
  height_pos : 0 < height
  deriving DecidableEq

/-- Why a text is no viewport. -/
inductive ViewportFault where
  | malformed (text : String)
  | notPositive (text : String)
  | tooManyDigits (fault : Text.TooManyDigits)
  deriving DecidableEq

def ViewportFault.message : ViewportFault → String
  | .malformed s => "Invalid viewport '" ++ s ++ "'. Expected format WxH, e.g. 320x640"
  | .notPositive s => "Invalid viewport '" ++ s ++ "'. Width and height must be positive"
  | .tooManyDigits f => f.message

namespace Viewport

def label (v : Viewport) : String := toString v.width ++ "x" ++ toString v.height

/-- The digits of a number with blanks before and after it, and what follows. -/
def paddedDigits? (cs : List Char) : Option (List Char × List Char) :=
  let body := cs.dropWhile Text.isBlank
  let digits := body.takeWhile Text.isDigit
  if digits.isEmpty then none
  else some (digits, (body.dropWhile Text.isDigit).dropWhile Text.isBlank)

/-- The digits of the two numbers of a viewport's text. -/
def digits? (s : String) : Option (List Char × List Char) :=
  match paddedDigits? s.toList with
  | some (w, c :: rest) =>
    if c == 'x' || c == 'X' then
      match paddedDigits? rest with
      | some (h, []) => some (w, h)
      | _ => none
    else none
  | _ => none

def parse (s : String) : Except ViewportFault Viewport :=
  match digits? s with
  | none => .error (.malformed s)
  | some (width, height) => do
    let w ← (Text.readDigits width).mapError .tooManyDigits
    let h ← (Text.readDigits height).mapError .tooManyDigits
    if positive : 0 < w ∧ 0 < h then .ok ⟨w, h, positive.1, positive.2⟩ else .error (.notPositive s)

/-- Narrower, or as wide and less high. -/
def before (v u : Viewport) : Bool := v.width < u.width || (v.width == u.width && v.height < u.height)

/-- The first of the smallest viewports. -/
def smallest? : List Viewport → Option Viewport
  | [] => none
  | v :: rest => some (rest.foldl (fun least u => if u.before least then u else least) v)

end Viewport

end Wireframe
