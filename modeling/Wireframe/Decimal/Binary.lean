/-
  Wireframe.Decimal.Binary — what a double stands for, exactly.

  A finite double is a sign, a whole mantissa and a power of two. Everything that has to be
  exact about a double (its integer part, its order against an integer, its decimal text) is
  computed on these three in whole numbers.
-/

namespace Wireframe.Decimal

def twoTo (n : Nat) : Nat := Nat.pow 2 n

def tenTo (n : Nat) : Nat := Nat.pow 10 n

inductive Binary where
  | nan
  | infinite (negative : Bool)
  /-- The value `± mantissa · 2 ^ exponent`. -/
  | finite (negative : Bool) (mantissa : Nat) (exponent : Int)
  deriving DecidableEq

/-- The three fields of the 64-bit format; subnormal numbers have no implicit leading bit. -/
def Binary.ofFloat (x : Float) : Binary :=
  let bits : Nat := x.toBits.toNat
  let fraction : Nat := bits % twoTo 52
  let biased : Nat := bits / twoTo 52 % 2048
  let negative := bits / twoTo 63 == 1
  if biased = 2047 then
    if fraction = 0 then .infinite negative else .nan
  else if biased = 0 then .finite negative fraction (-1074)
  else .finite negative (fraction + twoTo 52) ((biased : Int) - 1075)

/-- A quotient of whole numbers; the denominator is positive. -/
structure Ratio where
  num : Int
  den : Nat
  deriving DecidableEq

/-- `n · 2 ^ e` as a quotient. -/
def Ratio.scaled (n : Int) (e : Int) : Ratio :=
  if 0 ≤ e then ⟨n * (twoTo e.toNat : Nat), 1⟩ else ⟨n, twoTo (-e).toNat⟩

def Ratio.floor (r : Ratio) : Int := Int.fdiv r.num r.den

def Ratio.ceil (r : Ratio) : Int := -Int.fdiv (-r.num) r.den

/-- The nearest whole number to `num / den`; a half goes to the even neighbour. -/
def roundDiv (num den : Nat) : Nat :=
  let q := num / den
  let r := num % den
  if 2 * r < den then q
  else if den < 2 * r then q + 1
  else if q % 2 = 0 then q else q + 1

/-- The place of the last bit of the doubles around `num / den`: where its leading bit is the 53rd,
    and never below that of the smallest doubles. -/
def lastPlace (num den : Nat) : Int :=
  let e : Int := (Nat.log2 num : Int) - Nat.log2 den
  let reached := if 0 ≤ e then den * twoTo e.toNat ≤ num else den ≤ num * twoTo (-e).toNat
  max ((if reached then e else e - 1) - 52) (-1074)

/-- The double nearest to `num / den`, a half at the even neighbour; none where that is beyond
    the range of doubles. The denominator is positive. -/
def nearestTo (num den : Nat) : Option Float :=
  if num = 0 then some 0.0
  else
    let e := lastPlace num den
    let mantissa := if 0 ≤ e then roundDiv num (den * twoTo e.toNat) else roundDiv (num * twoTo (-e).toNat) den
    let bits := mantissa + (e + 1074).toNat * twoTo 52
    if 2047 * twoTo 52 ≤ bits then none else some (Float.ofBits bits.toUInt64)

end Wireframe.Decimal
