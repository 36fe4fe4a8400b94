import Wireframe.Value.Basic
import Wireframe.Text.Point
import Wireframe.Text.Quoted

/-
  Wireframe.Value.Writer — texts of documents.

  - `json`: JSON on one line, in ASCII.
  - `indented`: JSON with a line for every item and member, in ASCII.
  - `shown`: the form in which log messages show a value; a text alone stands as it is.
-/

namespace Wireframe

namespace Writer

def escapedUnits (p : Text.Point) : List Char := p.units.flatMap fun u => '\\' :: 'u' :: Text.hexText 4 u

def escapedChar (c : Char) : List Char :=
  if c == '"' || c == '\\' then ['\\', c]
  else match c.toNat with
    | 8 => ['\\', 'b']
    | 9 => ['\\', 't']
    | 10 => ['\\', 'n']
    | 12 => ['\\', 'f']
    | 13 => ['\\', 'r']
    | n => if 32 ≤ n && n < 127 then [c] else escapedUnits (.char c)

def escapedPoint : Text.Point → List Char
  | .char c => escapedChar c
  | p => escapedUnits p

def text (s : String) : String :=
  String.ofList ('"' :: ((Text.points s.toList).flatMap escapedPoint ++ ['"']))

/-- Infinities and not-a-number have names that are not numbers of JSON. -/
def number : Number → String
  | .int n => toString n
  | .float x => match Decimal.Binary.ofFloat x with
    | .nan => "NaN"
    | .infinite negative => if negative then "-Infinity" else "Infinity"
    | .finite .. => Decimal.plainText x

def word : Bool → String
  | true => "true"
  | false => "false"

end Writer

namespace Value

mutual

/-- JSON on one line. -/
def json : Value → String
  | .null => "null"
  | .bool b => Writer.word b
  | .number n => Writer.number n
  | .text s => Writer.text s
  | .list items => "[" ++ ",".intercalate (jsonItems items) ++ "]"
  | .object members => "\x7b" ++ ",".intercalate (jsonMembers members) ++ "\x7d"

def jsonItems : List Value → List String
  | [] => []
  | v :: rest => v.json :: jsonItems rest

def jsonMembers : List (String × Value) → List String
  | [] => []
  | (k, v) :: rest => (Writer.text k ++ ":" ++ v.json) :: jsonMembers rest

end

/-- A line break and the indentation of a level; a negative step indents by nothing. -/
def lineStart (step : Int) (level : Nat) : String :=
  String.ofList ('\n' :: List.replicate (step.toNat * level) ' ')

mutual

/-- JSON with a line for every item and member, `step` blanks deeper on every level. -/
def indentedAt (step : Int) (level : Nat) : Value → String
  | .list [] => "[]"
  | .object [] => "\x7b\x7d"
  | .list items =>
    let lines := indentedItems step (level + 1) items
    "[" ++ lineStart step (level + 1) ++ ("," ++ lineStart step (level + 1)).intercalate lines ++
      lineStart step level ++ "]"
  | .object members =>
    let lines := indentedMembers step (level + 1) members
    "\x7b" ++ lineStart step (level + 1) ++ ("," ++ lineStart step (level + 1)).intercalate lines ++
      lineStart step level ++ "\x7d"
  | .null => "null"
  | .bool b => Writer.word b
  | .number n => Writer.number n
  | .text s => Writer.text s

def indentedItems (step : Int) (level : Nat) : List Value → List String
  | [] => []
  | v :: rest => indentedAt step level v :: indentedItems step level rest

def indentedMembers (step : Int) (level : Nat) : List (String × Value) → List String
  | [] => []
  | (k, v) :: rest =>
    (Writer.text k ++ ": " ++ indentedAt step level v) :: indentedMembers step level rest

end

def indented (step : Int) (v : Value) : String := indentedAt step 0 v

mutual

/-- The form inside a message, where texts are quoted. -/
def shownInside : Value → String
  | .null => "None"
  | .bool true => "True"
  | .bool false => "False"
  | .number n => n.text
  | .text s => Text.quoted s
  | .list items => "[" ++ ", ".intercalate (shownItems items) ++ "]"
  | .object members => "\x7b" ++ ", ".intercalate (shownMembers members) ++ "\x7d"

def shownItems : List Value → List String
  | [] => []
  | v :: rest => v.shownInside :: shownItems rest

def shownMembers : List (String × Value) → List String
  | [] => []
  | (k, v) :: rest => (Text.quoted k ++ ": " ++ v.shownInside) :: shownMembers rest

end

/-- The form in a message. -/
def shown : Value → String
  | .text s => s
  | v => v.shownInside

end Value

end Wireframe
