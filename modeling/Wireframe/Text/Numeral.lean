import Wireframe.Text.Blank
import Wireframe.Text.Digit
import Wireframe.Decimal.Binary

/-
  Wireframe.Text.Numeral — numbers written as text.

  - `integer?`: white space around is dropped, a sign, digits of any script with single underscores
    between them.
  - `wholeNumber`: a minus sign or none, and ASCII digits; a text that is not written like that is
    tidied and read again.
  - `realNumber?`: decimal or exponent notation in ASCII, or an infinity or not-a-number by name,
    with white space around or with underscores inside, but not with both.
-/

namespace Wireframe.Text

/-- A run of digits with single underscores between them, without the underscores. -/
def joinDigits? (p : Char → Bool) : List Char → Option (List Char)
  | [] => none
  | [c] => if p c then some [c] else none
  | c :: '_' :: rest => if p c then (joinDigits? p rest).map (c :: ·) else none
  | c :: rest => if p c then (joinDigits? p rest).map (c :: ·) else none

/-- A leading sign, and the rest. -/
def splitSign : List Char → Bool × List Char
  | '-' :: rest => (true, rest)
  | '+' :: rest => (false, rest)
  | rest => (false, rest)

def signedValue (negative : Bool) (n : Nat) : Int := if negative then -(n : Int) else n

def integer? (s : String) : Option Int := do
  let (negative, body) := splitSign (trimBy isWhite s.toList)
  let digits ← joinDigits? isDigit body
  let n ← (readDigits digits).toOption
  return signedValue negative n

/-- Do underscores stand at neither end and not side by side? -/
def separated (cs : List Char) : Bool :=
  cs.head? != some '_' && cs.getLast? != some '_' &&
    (cs.zip (cs.drop 1)).all fun (a, b) => !(a == '_' && b == '_')

/-- The text without its underscores, if they stand where they may. -/
def withoutUnderscores? (cs : List Char) : Option (List Char) :=
  if separated cs then some (cs.filter (· != '_')) else none

/-! ## Whole numbers -/

/-- Why a text is no whole number. -/
inductive WholeFault where
  | malformed
  | tooLarge
  deriving DecidableEq

/-- Zero, or digits that do not start with one. -/
def isPlainWhole (digits : List Char) : Bool :=
  !digits.isEmpty && (digits == ['0'] || digits.head? != some '0')

/-- A whole number as it is written plainly: a minus sign or none, and digits. A run of digits
    that is too long is so whatever comes after it. -/
def plainWhole (cs : List Char) : Except WholeFault Int :=
  let negative := cs.head? == some '-'
  let body := if negative then cs.drop 1 else cs
  let digits := body.takeWhile Char.isDigit
  if isPlainWhole digits = false then .error .malformed
  else if digitLimit < digits.length then .error .tooLarge
  else if digits.length = body.length then .ok (signedValue negative (digitsValue digits))
  else .error .malformed

/-- What is left of a text whose first character was a zero: the zeros and underscores up to a
    digit or a minus sign are dropped, and of those up to a point or the end the last one stays. -/
def afterZero? (last : Char) : List Char → Option (List Char)
  | [] => some [last]
  | '.' :: rest => some (last :: '.' :: rest)
  | c :: rest =>
    if c == '0' || c == '_' then afterZero? c rest
    else if c == '-' || c.isDigit then some (c :: rest)
    else none

/-- A text that starts with a digit, without the zeros before its first other digit. -/
def withoutZeros? : List Char → Option (List Char)
  | [] => none
  | c :: rest => if c == '0' then afterZero? c rest else if c.isDigit then some (c :: rest) else none

/-- Without a point followed by zeros only, of which there is at least one. -/
def withoutZeroPlaces (cs : List Char) : List Char :=
  match cs.span (· != '.') with
  | (whole, '.' :: '0' :: zeros) => if zeros.all (· == '0') then whole else cs
  | _ => cs

/-- A text without white space around it and a plus sign, with everything dropped after the sign
    that a whole number may be written with. -/
def tidied? (cs : List Char) : Option (List Char) :=
  let digits? (body : List Char) : Option (List Char) :=
    (withoutZeros? body).bind fun digits => withoutUnderscores? (withoutZeroPlaces digits)
  match trimBy isWhite cs with
  | '-' :: body => (digits? body).map ('-' :: ·)
  | '+' :: body => digits? body
  | body => digits? body

/-- A text that is too long only when it is tidied is none of a whole number. -/
def wholeNumber (s : String) : Except WholeFault Int :=
  match plainWhole s.toList with
  | .error .malformed => match (tidied? s.toList).map plainWhole with
    | some (.ok n) => .ok n
    | _ => .error .malformed
  | r => r

/-! ## Doubles -/

/-- The double nearest to `± digits · 10 ^ exponent`; far beyond the range of doubles it is an
    infinity or a zero, whatever the digits. -/
def nearestDouble (negative : Bool) (digits : List Char) (exponent : Int) : Float :=
  let significant := digits.dropWhile (· == '0')
  let point := exponent + significant.length
  let value : Float :=
    if significant.isEmpty then 0.0
    else if 400 < point then 1.0 / 0.0
    else if point < -400 then 0.0
    else Float.ofScientific (digitsValue significant) (decide (exponent < 0)) exponent.natAbs
  if negative then -value else value

/-- The exponent after the digits: absent, or `e`, a sign and digits. -/
def exponent? : List Char → Option Int
  | [] => some 0
  | c :: rest =>
    if c == 'e' || c == 'E' then
      let (negative, digits) := splitSign rest
      if !digits.isEmpty && digits.all Char.isDigit then some (signedValue negative (digitsValue digits))
      else none
    else none

/-- Digits, a point with digits before or after it, an exponent. -/
def decimal? (negative : Bool) (cs : List Char) : Option Float :=
  let (whole, rest) := cs.span Char.isDigit
  let (places, rest) := match rest with
    | '.' :: more => more.span Char.isDigit
    | _ => ([], rest)
  if whole.isEmpty && places.isEmpty then none
  else (exponent? rest).map fun e => nearestDouble negative (whole ++ places) (e - places.length)

/-- An infinity or not-a-number by name, in any case. -/
def named? (negative : Bool) (cs : List Char) : Option Float :=
  match String.ofList (cs.map Char.toLower) with
  | "inf" | "infinity" => some (if negative then -(1.0 / 0.0) else 1.0 / 0.0)
  | "nan" => some (0.0 / 0.0)
  | _ => none

/-- A signed number without blanks. -/
def plainReal? (cs : List Char) : Option Float :=
  let (negative, body) := splitSign cs
  (decimal? negative body).orElse fun _ => named? negative body

def realNumber? (s : String) : Option Float :=
  (plainReal? (trimBy isWhite s.toList)).orElse fun _ =>
    (withoutUnderscores? s.toList).bind plainReal?

end Wireframe.Text
