import Wireframe.Decimal.Text
import Wireframe.Text.Digit

/-
  Wireframe.Value.Number — the numbers of a document.

  A number is a whole number of any size or a double. Comparison is by value, exactly, also
  between the two kinds; not-a-number is in no order with anything. `Value/Arithmetic` holds how
  numbers are calculated with.
-/

namespace Wireframe

inductive Number where
  | int (n : Int)
  | float (x : Float)
  deriving DecidableEq

/-- Why a calculation has no result. -/
inductive CalculationFault where
  /-- Not-a-number has no whole part. -/
  | notANumber
  /-- An infinity has no whole part. -/
  | infinite
  /-- A whole number beyond the range of doubles, or of words, where one is needed. -/
  | tooLarge
  | zeroDivisor
  /-- There is no room for a list or a text as long as this. -/
  | noRoom
  /-- A whole number of more digits than are written. -/
  | tooManyDigits
  deriving DecidableEq

def CalculationFault.message : CalculationFault → String
  | notANumber => "cannot convert float NaN to integer"
  | infinite => "cannot convert float infinity to integer"
  | tooLarge => "int too large to convert to float"
  | zeroDivisor => "division by zero"
  | noRoom => "out of memory"
  | tooManyDigits => "Exceeds the limit (" ++ toString Text.digitLimit ++ " digits) for integer string " ++
    "conversion; use sys.set_int_max_str_digits() to increase the limit"

abbrev Calculation := Except CalculationFault

namespace Number

open Decimal

def zero : Number := .int 0

instance : Inhabited Number := ⟨zero⟩

/-- The nearest double; an infinity for a whole number beyond the range of doubles. -/
def toFloat : Number → Float
  | int n => Float.ofInt n
  | float x => x

def isFinite : Number → Bool
  | int _ => true
  | float x => match Binary.ofFloat x with
    | .finite .. => true
    | _ => false

/-! ## Order -/

/-- A whole number against a double. -/
def compareMixed (n : Int) (x : Float) : Option Ordering :=
  match Binary.ofFloat x with
  | .nan => none
  | .infinite negative => some (if negative then .gt else .lt)
  | .finite negative m e =>
    let r := Ratio.scaled (if negative then -(m : Int) else m) e
    some (compare (n * r.den) r.num)

/-- The order of two numbers, unless one is not a number. -/
def compare? : Number → Number → Option Ordering
  | int a, int b => some (compare a b)
  | int a, float y => compareMixed a y
  | float x, int b => (compareMixed b x).map Ordering.swap
  | float x, float y =>
    if x < y then some .lt else if x == y then some .eq else if y < x then some .gt else none

def lt (a b : Number) : Bool := a.compare? b == some .lt

def le (a b : Number) : Bool := a.compare? b == some .lt || a.compare? b == some .eq

/-- Equality of values: zero and minus zero are equal, not-a-number is not equal to itself. -/
def same (a b : Number) : Bool := a.compare? b == some .eq

/-! ## Whole parts -/

def whole (onRatio : Ratio → Int) : Number → Calculation Int
  | int n => .ok n
  | float x => match Binary.ofFloat x with
    | .nan => .error .notANumber
    | .infinite _ => .error .infinite
    | .finite negative m e => .ok (onRatio (Ratio.scaled (if negative then -(m : Int) else m) e))

/-- The greatest whole number not above. -/
def floor : Number → Calculation Int := whole Ratio.floor

/-- The least whole number not below. -/
def ceil : Number → Calculation Int := whole Ratio.ceil

/-- The nearest double; a whole number may be too large to have one. -/
def toDouble (a : Number) : Calculation Float :=
  let x := a.toFloat
  match a with
  | int _ => if isFinite (.float x) then .ok x else .error .tooLarge
  | float _ => .ok x

/-! ## Text -/

/-- The text that reads back as the number. -/
def text : Number → String
  | int n => toString n
  | float x => plainText x

/-- Has the number a text? A whole number has one only when it can be read from it. -/
def hasText : Number → Bool
  | int n => n.natAbs < tenTo Text.digitLimit
  | float _ => true

/-- The text in a message, with six significant digits. -/
def message (a : Number) : String := messageText a.toFloat

end Number

end Wireframe
