import Wireframe.Decimal.Binary

/-
  Wireframe.Decimal.Text — decimal texts of doubles.

  - `shortest`: the fewest significant digits that read back as the same double, and of those the
    nearest to its value.
  - `significant`: a given number of significant digits, rounded half to even.
  - `fixed`: a given number of places after the point, rounded half to even.
  - `roundTo`: the double nearest to a value rounded to some places.

  `Style` says how a significand and a power of ten are laid out as text.
-/

namespace Wireframe.Decimal

/-- The value `significand · 10 ^ exponent`. -/
structure Scientific where
  significand : Nat
  exponent : Int
  deriving DecidableEq

/-- A positive quotient of whole numbers, `num / den`. -/
structure Magnitude where
  num : Nat
  den : Nat
  deriving DecidableEq

def Magnitude.scaled (n : Nat) (e : Int) : Magnitude :=
  if 0 ≤ e then ⟨n * twoTo e.toNat, 1⟩ else ⟨n, twoTo (-e).toNat⟩

/-- `v / 10 ^ e`. -/
def Magnitude.overPower (v : Magnitude) (e : Int) : Magnitude :=
  if 0 ≤ e then ⟨v.num, v.den * tenTo e.toNat⟩ else ⟨v.num * tenTo (-e).toNat, v.den⟩

/-- Does `10 ^ e` not exceed `v`? -/
def Magnitude.reaches (v : Magnitude) (e : Int) : Bool :=
  let s := v.overPower e
  s.den ≤ s.num

/-- The least `p` with `v < 10 ^ p`, looked for upwards from a start that is not above it. -/
def Magnitude.pointFrom (v : Magnitude) : Nat → Int → Int
  | 0, p => p
  | n + 1, p => if v.reaches p then v.pointFrom n (p + 1) else p

/-- Where the decimal point of `v` stands: `10 ^ (p - 1) ≤ v < 10 ^ p`. -/
def Magnitude.point (v : Magnitude) : Int :=
  let bits : Int := (Nat.log2 v.num : Int) - Nat.log2 v.den - 1
  v.pointFrom 6 (Int.fdiv (bits * 30103) 100000 - 1)

/-! ## Shortest digits -/

/-- The doubles' neighbourhood of `m · 2 ^ q`: every real between the ends reads back as it. The
    ends themselves do when `m` is even. Units are `2 ^ (q - 2)`. -/
structure Neighbourhood where
  low : Nat
  centre : Nat
  high : Nat
  closed : Bool
  unit : Int

def Neighbourhood.of (m : Nat) (q : Int) : Neighbourhood :=
  let narrow := m = twoTo 52 ∧ -1074 < q
  { low := if narrow then 4 * m - 1 else 4 * m - 2
    centre := 4 * m
    high := 4 * m + 2
    closed := m % 2 == 0
    unit := q - 2 }

/-- Does `d · 10 ^ e` lie in the neighbourhood? -/
def Neighbourhood.holds (b : Neighbourhood) (d : Nat) (e : Int) : Bool :=
  let low := (Magnitude.scaled b.low b.unit).overPower e
  let high := (Magnitude.scaled b.high b.unit).overPower e
  if b.closed then low.num ≤ d * low.den && d * high.den ≤ high.num
  else low.num < d * low.den && d * high.den < high.num

/-- The value's two neighbours on the grid `10 ^ e`, the one that reads back; of two the nearer,
    and of two equally near the even one. -/
def Neighbourhood.onGrid (b : Neighbourhood) (e : Int) : Option Scientific :=
  let v := (Magnitude.scaled b.centre b.unit).overPower e
  let d := v.num / v.den
  let near := roundDiv v.num v.den
  let far := if near = d then d + 1 else d
  if b.holds near e then some ⟨near, e⟩ else if b.holds far e then some ⟨far, e⟩ else none

/-- The coarsest of the grids with 1, 2, … 17 digits that has a point in the neighbourhood. -/
def shortest (m : Nat) (q : Int) : Scientific :=
  let b := Neighbourhood.of m q
  let point := (Magnitude.scaled m q).point
  let grids := (List.range 17).map fun (k : Nat) => point - (k + 1)
  (grids.findSome? b.onGrid).getD ⟨0, 0⟩

/-- `v` rounded to `k` significant digits. -/
def significant (k : Nat) (v : Magnitude) : Scientific :=
  let e := v.point - k
  let s := v.overPower e
  ⟨roundDiv s.num s.den, e⟩

/-! ## Layout of digits -/

/-- Without trailing zeros in the significand. -/
def Scientific.trimmed (s : Scientific) : List Char × Int :=
  let digits := Nat.toDigits 10 s.significand
  let zeros := (digits.reverse.takeWhile (· == '0')).length
  (digits.take (digits.length - zeros), s.exponent + zeros)

structure Style where
  /-- Numbers from `10 ^ largest` on are written with an exponent. -/
  largest : Int
  /-- What follows a whole number. -/
  wholeEnd : List Char

/-- The exponent, signed and with at least two digits. -/
def exponentText (e : Int) : List Char :=
  let digits := Nat.toDigits 10 e.natAbs
  let sign := if e < 0 then '-' else '+'
  'e' :: sign :: (if digits.length < 2 then '0' :: digits else digits)

/-- Digits with the point where it belongs, or with an exponent when the number is below
    `0.0001` or too large for the style. -/
def Scientific.text (s : Scientific) (style : Style) : List Char :=
  let (digits, e) := s.trimmed
  let point := e + digits.length
  if point ≤ -4 ∨ style.largest < point then
    let body := match digits with
      | [] => []
      | [d] => [d]
      | d :: rest => d :: '.' :: rest
    body ++ exponentText (point - 1)
  else if point ≤ 0 then '0' :: '.' :: (List.replicate (-point).toNat '0' ++ digits)
  else if 0 ≤ e then digits ++ List.replicate e.toNat '0' ++ style.wholeEnd
  else digits.take point.toNat ++ '.' :: digits.drop point.toNat

/-! ## Texts of doubles -/

/-- Plain numbers: the shortest digits, positional below `10 ^ 16`, a whole number ends in `.0`. -/
def plainStyle : Style := ⟨16, ['.', '0']⟩

/-- Numbers in messages: six significant digits, positional below a million, no trailing `.0`. -/
def messageStyle : Style := ⟨6, []⟩

def signed (negative : Bool) (s : List Char) : String :=
  String.ofList (if negative then '-' :: s else s)

/-- The text that reads back as `x`; `nan` and `inf` where there is none. -/
def plainText (x : Float) : String :=
  match Binary.ofFloat x with
  | .nan => "nan"
  | .infinite negative => signed negative ['i', 'n', 'f']
  | .finite negative 0 _ => signed negative ['0', '.', '0']
  | .finite negative m q => signed negative ((shortest m q).text plainStyle)

/-- The text of `x` in a message, with six significant digits. -/
def messageText (x : Float) : String :=
  match Binary.ofFloat x with
  | .nan => "nan"
  | .infinite negative => signed negative ['i', 'n', 'f']
  | .finite negative 0 _ => signed negative ['0']
  | .finite negative m q => signed negative ((significant 6 (Magnitude.scaled m q)).text messageStyle)

/-- `n / 10 ^ places` with every place written. -/
def placesText (places n : Nat) : List Char :=
  let digits := Nat.toDigits 10 n
  let padded := List.replicate (places + 1 - digits.length) '0' ++ digits
  let whole := padded.length - places
  padded.take whole ++ (if places = 0 then [] else '.' :: padded.drop whole)

/-- `x` with a fixed number of places. -/
def fixedText (places : Nat) (x : Float) : String :=
  match Binary.ofFloat x with
  | .nan => "nan"
  | .infinite negative => signed negative ['i', 'n', 'f']
  | .finite negative m q =>
    let v := Magnitude.scaled (m * tenTo places) q
    signed negative (placesText places (roundDiv v.num v.den))

/-- The double nearest to `x` rounded to some decimal places. -/
def roundTo (places : Nat) (x : Float) : Float :=
  match Binary.ofFloat x with
  | .finite negative m q =>
    let v := Magnitude.scaled (m * tenTo places) q
    let r := Float.ofScientific (roundDiv v.num v.den) true places
    if negative then -r else r
  | _ => x

end Wireframe.Decimal
