import Wireframe.Text.Point
import Wireframe.Text.Printable

/-
  Wireframe.Text.Quoted — texts in quotes, as log messages show them.

  The quote is `'`, or `"` when the text holds `'` and no `"`. The quote itself and the backslash
  are written after a backslash, line ends and tabs by a letter, and other characters that are
  not printable by their number.
-/

namespace Wireframe.Text

/-- `n` in `width` hexadecimal digits. -/
def hexText (width n : Nat) : List Char :=
  let digits := Nat.toDigits 16 n
  List.replicate (width - digits.length) '0' ++ digits

def quotedChar (quote c : Char) : List Char :=
  let n := c.toNat
  if c == quote || c == '\\' then ['\\', c]
  else if c == '\n' then ['\\', 'n']
  else if c == '\r' then ['\\', 'r']
  else if c == '\t' then ['\\', 't']
  else if isPrintable c then [c]
  else if n < 256 then '\\' :: 'x' :: hexText 2 n
  else if n < 65536 then '\\' :: 'u' :: hexText 4 n
  else '\\' :: 'U' :: hexText 8 n

def quotedPoint (quote : Char) : Point → List Char
  | .char c => quotedChar quote c
  | .half n => '\\' :: 'u' :: hexText 4 n

def quoted (s : String) : String :=
  let cs := s.toList
  let quote := if cs.contains '\'' && !cs.contains '"' then '"' else '\''
  String.ofList (quote :: ((points cs).flatMap (quotedPoint quote) ++ [quote]))

end Wireframe.Text
