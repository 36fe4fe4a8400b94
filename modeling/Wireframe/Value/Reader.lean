import Wireframe.Value.Basic
import Wireframe.Text.Point
import Wireframe.Text.Numeral

/-
  Wireframe.Value.Reader — documents from their JSON text.

  Numbers without point and exponent are whole and of any size; `NaN`, `Infinity` and
  `-Infinity` are numbers too. A key that is written again changes the member in its place. Lists
  and objects nest to a limit. What is wrong with a text is told with the place where it shows: the
  line, the column in it, and the position from the start, all counted in points.
-/

namespace Wireframe

/-- What is wrong with a text, in the words of the message. -/
inductive SyntaxProblem where
  | byteOrderMark
  | extraData
  | value
  | propertyName
  | colon
  | comma
  | unterminated
  | controlCharacter
  | escapeLetter
  | escapeNumber
  /-- Lists and objects nest deeper than they are read. -/
  | tooDeep
  /-- A whole number is longer than they are read. -/
  | tooManyDigits (fault : Text.TooManyDigits)
  deriving DecidableEq

def SyntaxProblem.message : SyntaxProblem → String
  | .byteOrderMark => "Unexpected UTF-8 BOM (decode using utf-8-sig)"
  | .extraData => "Extra data"
  | .value => "Expecting value"
  | .propertyName => "Expecting property name enclosed in double quotes"
  | .colon => "Expecting ':' delimiter"
  | .comma => "Expecting ',' delimiter"
  | .unterminated => "Unterminated string starting at"
  | .controlCharacter => "Invalid control character at"
  | .escapeLetter => "Invalid \\escape"
  | .escapeNumber => "Invalid \\uXXXX escape"
  | .tooDeep => "maximum recursion depth exceeded"
  | .tooManyDigits f => f.message

structure SyntaxFault where
  problem : SyntaxProblem
  /-- Counted in points from the start of the text. -/
  position : Nat
  deriving DecidableEq

/-- The problem with its place in a text: lines and columns count from one. -/
def SyntaxFault.message (f : SyntaxFault) (document : String) : String :=
  let before := (Text.points document.toList).take f.position
  let line := before.count (.char '\n') + 1
  let column := (before.reverse.takeWhile (· != .char '\n')).length + 1
  f.problem.message ++ ": line " ++ toString line ++ " column " ++ toString column ++
    " (char " ++ toString f.position ++ ")"

namespace Reader

/-- The rest of a text, and how many points were before it. -/
structure Cursor where
  position : Nat
  rest : List Char

namespace Cursor

def take (c : Cursor) (n : Nat) : Cursor := ⟨c.position + n, c.rest.drop n⟩

/-- After a point that is held with a mark. -/
def takeMarked (c : Cursor) : Cursor := ⟨c.position + 1, c.rest.drop 2⟩

def skipSpace (c : Cursor) : Cursor :=
  let space := c.rest.takeWhile fun x => x == ' ' || x == '\t' || x == '\n' || x == '\r'
  c.take space.length

def startsWith (c : Cursor) (s : String) : Bool := s.toList.isPrefixOf c.rest

end Cursor

def fail (problem : SyntaxProblem) (position : Nat) : Except SyntaxFault α := .error ⟨problem, position⟩

/-! ## Texts -/

def hexDigit? (c : Char) : Option Nat :=
  if c.isDigit then some (c.toNat - 48)
  else if 'a' ≤ c && c ≤ 'f' then some (c.toNat - 87)
  else if 'A' ≤ c && c ≤ 'F' then some (c.toNat - 55)
  else none

/-- The number of four hexadecimal digits. -/
def hexNumber? (cs : List Char) : Option Nat :=
  match cs with
  | [a, b, c, d] => do
    return 4096 * (← hexDigit? a) + 256 * (← hexDigit? b) + 16 * (← hexDigit? c) + (← hexDigit? d)
  | _ => none

/-- The point after `\u`, which stands at `place`, and how many characters write it; another escape
    follows where a pair is written as two. At least one character has to come after the digits. -/
def escapedNumber (place : Nat) (rest : List Char) : Except SyntaxFault (Text.Point × Nat) :=
  if (rest.take 5).length < 5 then .error ⟨.escapeNumber, place⟩
  else match hexNumber? (rest.take 4) with
    | none => .error ⟨.escapeNumber, place⟩
    | some n =>
      let more := rest.drop 4
      if Text.isHighHalf n && ['\\', 'u'].isPrefixOf more && (more.take 7).length = 7 then
        match hexNumber? ((more.drop 2).take 4) with
        | none => .error ⟨.escapeNumber, place + 6⟩
        | some m =>
          if Text.isLowHalf m then .ok (.char (Char.ofNat (0x10000 + (n - 0xD800) * 1024 + (m - 0xDC00))), 10)
          else .ok (.ofUnit n, 4)
      else .ok (.ofUnit n, 4)

def escapedLetter? : Char → Option Char
  | '"' => some '"'
  | '\\' => some '\\'
  | '/' => some '/'
  | 'b' => some (Char.ofNat 8)
  | 'f' => some (Char.ofNat 12)
  | 'n' => some '\n'
  | 'r' => some '\r'
  | 't' => some '\t'
  | _ => none

/-- The characters up to the closing quote; `start` is the place of the opening one and `read`
    holds what is read already, the last character first. Every step reads a character. -/
def textFrom (fuel start : Nat) (read : List Char) (c : Cursor) : Except SyntaxFault (String × Cursor) :=
  match fuel, c.rest with
  | 0, _ => fail .unterminated start
  | _, [] => fail .unterminated start
  | _ + 1, '"' :: _ => .ok (String.ofList read.reverse, c.take 1)
  | fuel + 1, '\\' :: rest => match rest with
    | [] => fail .unterminated start
    | 'u' :: digits => do
      let (p, used) ← escapedNumber (c.position + 1) digits
      textFrom fuel start (p.held.reverse ++ read) (c.take (2 + used))
    | x :: _ => match escapedLetter? x with
      | some y => textFrom fuel start (y :: read) (c.take 2)
      | none => fail .escapeLetter c.position
  | fuel + 1, x :: rest =>
    if x.toNat < 32 then fail .controlCharacter c.position
    else match x == Text.mark, rest with
      | true, y :: _ => textFrom fuel start (y :: x :: read) c.takeMarked
      | _, _ => textFrom fuel start (x :: read) (c.take 1)

/-- The text after an opening quote. -/
def text (fuel : Nat) (c : Cursor) : Except SyntaxFault (String × Cursor) :=
  textFrom fuel (c.position - 1) [] c

/-! ## Numbers -/

/-- The places after the point, if there are any: their digits and the characters used. -/
def places (cs : List Char) : List Char × Nat :=
  match cs with
  | '.' :: rest =>
    let digits := rest.takeWhile Char.isDigit
    if digits.isEmpty then ([], 0) else (digits, digits.length + 1)
  | _ => ([], 0)

/-- The exponent, if there is one, and the characters used. -/
def power (cs : List Char) : Int × Nat :=
  match cs with
  | e :: rest =>
    if e == 'e' || e == 'E' then
      let (negative, body) := Text.splitSign rest
      let digits := body.takeWhile Char.isDigit
      if digits.isEmpty then (0, 0)
      else (Text.signedValue negative (Text.digitsValue digits),
        1 + (rest.length - body.length) + digits.length)
    else (0, 0)
  | [] => (0, 0)

/-- A number: no digit follows a leading zero, and a point or an exponent makes it a double. -/
def number (c : Cursor) : Except SyntaxFault (Number × Cursor) :=
  let negative := c.rest.head? == some '-'
  let body := if negative then c.rest.drop 1 else c.rest
  let whole := match body with
    | '0' :: _ => ['0']
    | _ => body.takeWhile Char.isDigit
  if whole.isEmpty then fail .value c.position
  else
    let rest := body.drop whole.length
    let (after, placesUsed) := places rest
    let (e, powerUsed) := power (rest.drop placesUsed)
    let used := (if negative then 1 else 0) + whole.length + placesUsed + powerUsed
    if placesUsed + powerUsed = 0 then
      match Text.readDigits whole with
      | .ok n => .ok (.int (Text.signedValue negative n), c.take used)
      | .error f => fail (.tooManyDigits f) c.position
    else .ok (.float (Text.nearestDouble negative (whole ++ after) (e - after.length)), c.take used)

/-! ## Values -/

/-- The values that are written as a word. -/
def named : List (String × Value) :=
  [("null", .null), ("true", .bool true), ("false", .bool false), ("NaN", .number (.float (0.0 / 0.0))),
    ("Infinity", .number (.float (1.0 / 0.0))), ("-Infinity", .number (.float (-(1.0 / 0.0))))]

mutual

/-- One value, in which lists and objects nest at most `deep`. There are at most two steps for a character, one into a list or an object and one to
    its first item, so twice the length of the text bounds the steps. What is left of them at a
    text is more than it has characters. -/
def value (fuel deep : Nat) (c : Cursor) : Except SyntaxFault (Value × Cursor) :=
  match fuel, c.rest with
  | 0, _ => fail .value c.position
  | _, [] => fail .value c.position
  | fuel + 1, '"' :: _ => do
    let (s, c) ← text fuel (c.take 1)
    return (.text s, c)
  | fuel + 1, '[' :: _ => match deep with
    | 0 => fail .tooDeep c.position
    | deep + 1 =>
      let c := (c.take 1).skipSpace
      match c.rest with
      | ']' :: _ => .ok (.list [], c.take 1)
      | _ => do
        let (items, c) ← items fuel deep [] c
        return (.list items, c)
  | fuel + 1, '{' :: _ => match deep with
    | 0 => fail .tooDeep c.position
    | deep + 1 =>
      let c := (c.take 1).skipSpace
      match c.rest with
      | '}' :: _ => .ok (.object [], c.take 1)
      | _ => do
        let (members, c) ← members fuel deep [] c
        return (.object members, c)
  | _ + 1, _ => match named.find? fun (word, _) => c.startsWith word with
    | some (word, v) => .ok (v, c.take word.length)
    | none => do
      let (n, c) ← number c
      return (.number n, c)

/-- The items from here to the closing bracket, after those read. -/
def items (fuel deep : Nat) (read : List Value) (c : Cursor) : Except SyntaxFault (List Value × Cursor) :=
  match fuel with
  | 0 => fail .value c.position
  | fuel + 1 => do
    let (v, c) ← value fuel deep c
    let c := c.skipSpace
    match c.rest with
    | ']' :: _ => return ((v :: read).reverse, c.take 1)
    | ',' :: _ => items fuel deep (v :: read) (c.take 1).skipSpace
    | _ => fail .comma c.position

/-- The members from here to the closing brace, after those read. -/
def members (fuel deep : Nat) (read : List (String × Value)) (c : Cursor) : Except SyntaxFault (Object × Cursor) :=
  match fuel with
  | 0 => fail .value c.position
  | fuel + 1 => match c.rest with
    | '"' :: _ => do
      let (key, c) ← text fuel (c.take 1)
      let c := c.skipSpace
      match c.rest with
      | ':' :: _ =>
        let (v, c) ← value fuel deep (c.take 1).skipSpace
        let c := c.skipSpace
        match c.rest with
        | '}' :: _ => return (Keyed.ofList ((key, v) :: read).reverse, c.take 1)
        | ',' :: _ => members fuel deep ((key, v) :: read) (c.take 1).skipSpace
        | _ => fail .comma c.position
      | _ => fail .colon c.position
    | _ => fail .propertyName c.position

end

end Reader

/-- How deep lists and objects nest in what is read. -/
def Reader.nestingLimit : Nat := 985

/-- The document a JSON text writes. -/
def Value.ofText (s : String) : Except SyntaxFault Value :=
  let cs := s.toList
  if cs.head? == some (Char.ofNat 0xFEFF) then .error ⟨.byteOrderMark, 0⟩
  else do
    let (v, c) ← Reader.value (2 * cs.length + 2) Reader.nestingLimit (Reader.Cursor.skipSpace ⟨0, cs⟩)
    let c := c.skipSpace
    if c.rest.isEmpty then return v else .error ⟨.extraData, c.position⟩

end Wireframe
