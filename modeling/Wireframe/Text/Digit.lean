/-
  Wireframe.Text.Digit — decimal digits of every script.

  The digits of a script are ten consecutive code points from its zero on. A whole number is read
  from no more digits than a limit, leading zeros among them.
-/

namespace Wireframe.Text

/-- The code points of the zeros. -/
def zeros : List Nat :=
  [48, 1632, 1776, 1984, 2406, 2534, 2662, 2790, 2918, 3046, 3174, 3302, 3430, 3558, 3664, 3792,
   3872, 4160, 4240, 6112, 6160, 6470, 6608, 6784, 6800, 6992, 7088, 7232, 7248, 42528, 43216,
   43264, 43472, 43504, 43600, 44016, 65296, 66720, 68912, 69734, 69872, 69942, 70096, 70384,
   70736, 70864, 71248, 71360, 71472, 71904, 72016, 72784, 73040, 73120, 92768, 92864, 93008,
   120782, 120792, 120802, 120812, 120822, 123200, 123632, 125264, 130032]

/-- What a decimal digit counts. -/
def digit? (c : Char) : Option Nat :=
  if c.toNat < 128 then (if c.isDigit then some (c.toNat - 48) else none)
  else (zeros.find? fun z => z ≤ c.toNat && c.toNat ≤ z + 9).map (c.toNat - ·)

def isDigit (c : Char) : Bool := (digit? c).isSome

/-- The number a run of digits writes, after `value`. -/
def digitsFrom (value : Nat) (cs : List Char) : Nat :=
  cs.foldl (fun n c => 10 * n + (digit? c).getD 0) value

/-- The number a run of digits writes. -/
def digitsValue (cs : List Char) : Nat := digitsFrom 0 cs

/-! ## The limit -/

/-- As many digits as a whole number is read from. -/
def digitLimit : Nat := 4300

/-- There are more digits than a whole number is read from. -/
structure TooManyDigits where
  count : Nat
  deriving DecidableEq

def TooManyDigits.message (t : TooManyDigits) : String :=
  "Exceeds the limit (" ++ toString digitLimit ++ " digits) for integer string conversion: value has " ++
    toString t.count ++ " digits; use sys.set_int_max_str_digits() to increase the limit"

/-- The number a run of digits writes, unless there are too many of them. -/
def readDigits (cs : List Char) : Except TooManyDigits Nat :=
  if digitLimit < cs.length then .error ⟨cs.length⟩ else .ok (digitsValue cs)

end Wireframe.Text
