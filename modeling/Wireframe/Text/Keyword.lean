import Wireframe.Text.Word
import Wireframe.Text.Blank
import Wireframe.Text.Digit

/-
  Wireframe.Text.Keyword — keywords in labels, whatever their case.

  A keyword is written in small ASCII letters. A label mentions it when one of the label's words
  is the keyword, and begins a word with it when one of its words starts so. Besides the ASCII
  capitals, the Kelvin sign stands for `k`, the long s for `s`, and the dotted capital and the
  dotless small i for `i`.
-/

namespace Wireframe.Text

/-- A character as keywords see it. -/
def foldLetter (c : Char) : Char :=
  if c.toNat < 128 then c.toLower
  else match c.toNat with
    | 8490 => 'k'
    | 383 => 's'
    | 304 => 'i'
    | 305 => 'i'
    | _ => c

/-- Is some word of the label one of the keywords? -/
def mentions (keywords : List String) (label : String) : Bool :=
  (words label.toList).any fun w => keywords.any fun k => w.map foldLetter == k.toList

/-- Does some word of the label start with one of the keywords? -/
def beginsWord (keywords : List String) (label : String) : Bool :=
  (words label.toList).any fun w => keywords.any fun k => k.toList.isPrefixOf (w.map foldLetter)

/-! ## Anywhere in a text -/

/-- Does the property hold of some end of the text, the whole and the empty one included? -/
def anyTail (p : List Char → Bool) : List Char → Bool
  | [] => p []
  | c :: cs => p (c :: cs) || anyTail p cs

/-- Does `part` stand somewhere in `whole`? -/
def contains (part whole : String) : Bool := anyTail (part.toList.isPrefixOf ·) whole.toList

/-- What follows a keyword at the start of a text. -/
def after? (keyword : String) (cs : List Char) : Option (List Char) :=
  let n := keyword.toList.length
  if (cs.take n).map foldLetter == keyword.toList then some (cs.drop n) else none

/-- What follows a non-empty run of a class at the start of a text. -/
def afterRun? (p : Char → Bool) (cs : List Char) : Option (List Char) :=
  match cs with
  | c :: rest => if p c then some (rest.dropWhile p) else none
  | [] => none

/-- `step`, blanks or none, a digit. -/
def stepNumberAt (cs : List Char) : Bool :=
  match after? "step" cs with
  | some rest => (afterRun? isDigit (rest.dropWhile isBlank)).isSome
  | none => false

/-- Does the text number a step somewhere, as in "Step 2"? -/
def numbersStep (s : String) : Bool := anyTail stepNumberAt s.toList

/-- `step`, blanks, digits, blanks, `of`, blanks, a digit. -/
def progressAt (cs : List Char) : Bool :=
  Option.isSome do
    let cs ← after? "step" cs
    let cs ← afterRun? isBlank cs
    let cs ← afterRun? isDigit cs
    let cs ← afterRun? isBlank cs
    let cs ← after? "of" cs
    let cs ← afterRun? isBlank cs
    afterRun? isDigit cs

/-- Does the text tell a progress somewhere, as in "Step 2 of 4"? -/
def tellsProgress (s : String) : Bool := anyTail progressAt s.toList

end Wireframe.Text
