import Wireframe.Value.Writer

/-
  Wireframe.Record.Fault — what is wrong with a document that should be a record.

  Every fault has the place where it was found, from the outside in, and a cause. A cause has a
  code and a wording.
-/

namespace Wireframe

/-- One step into a document. -/
inductive Place where
  | key (key : String)
  | item (index : Nat)
  deriving DecidableEq

def Place.toValue : Place → Value
  | .key k => .text k
  | .item i => .nat i

inductive Cause where
  | missing
  | text
  /-- A text with half of a surrogate pair where a number or a word belongs. -/
  | halfText
  | boolean
  /-- A text or a whole number that means neither true nor false. -/
  | booleanWord
  | integer
  | integerText
  | fraction
  | integerSize
  | notFinite
  | real
  | realText
  | atLeast (bound : Int)
  | atMost (bound : Int)
  | choice (values : List String)
  | word (values : List String)
  | list
  | dictionary
  /-- Something other than an object where a record of this name belongs. -/
  | record (name : String)
  | node
  | noType
  | unknownType (shown : String) (known : List String)
  /-- A condition on the whole record. -/
  | condition (message : String)
  deriving DecidableEq

namespace Cause

def quotedName (s : String) : String := "'" ++ s ++ "'"

/-- `'a', 'b' or 'c'`. -/
def alternatives : List String → String
  | [] => ""
  | [a] => quotedName a
  | [a, b] => quotedName a ++ " or " ++ quotedName b
  | a :: rest => quotedName a ++ ", " ++ alternatives rest

def code : Cause → String
  | missing => "missing"
  | text => "string_type"
  | halfText => "string_unicode"
  | boolean => "bool_type"
  | booleanWord => "bool_parsing"
  | integer => "int_type"
  | integerText => "int_parsing"
  | fraction => "int_from_float"
  | integerSize => "int_parsing_size"
  | notFinite => "finite_number"
  | real => "float_type"
  | realText => "float_parsing"
  | atLeast _ => "greater_than_equal"
  | atMost _ => "less_than_equal"
  | choice _ => "enum"
  | word _ => "literal_error"
  | list => "list_type"
  | dictionary => "dict_type"
  | record _ => "model_type"
  | node => "model_attributes_type"
  | noType => "union_tag_not_found"
  | unknownType .. => "union_tag_invalid"
  | condition _ => "value_error"

def message : Cause → String
  | missing => "Field required"
  | text => "Input should be a valid string"
  | halfText => "Input should be a valid string, unable to parse raw data as a unicode string"
  | boolean => "Input should be a valid boolean"
  | booleanWord => "Input should be a valid boolean, unable to interpret input"
  | integer => "Input should be a valid integer"
  | integerText => "Input should be a valid integer, unable to parse string as an integer"
  | fraction => "Input should be a valid integer, got a number with a fractional part"
  | integerSize => "Unable to parse input string as an integer, exceeded maximum size"
  | notFinite => "Input should be a finite number"
  | real => "Input should be a valid number"
  | realText => "Input should be a valid number, unable to parse string as a number"
  | atLeast bound => "Input should be greater than or equal to " ++ toString bound
  | atMost bound => "Input should be less than or equal to " ++ toString bound
  | choice values => "Input should be " ++ alternatives values
  | word values => "Input should be " ++ alternatives values
  | list => "Input should be a valid list"
  | dictionary => "Input should be a valid dictionary"
  | record name => "Input should be a valid dictionary or instance of " ++ name
  | node => "Input should be a valid dictionary or object to extract fields from"
  | noType => "Unable to extract tag using discriminator 'type'"
  | unknownType shown known =>
    "Input tag '" ++ shown ++ "' found using 'type' does not match any of the expected tags: " ++
      ", ".intercalate (known.map quotedName)
  | condition m => "Value error, " ++ m

end Cause

structure Fault where
  location : List Place
  cause : Cause
  deriving DecidableEq

namespace Fault

def here (cause : Cause) : Fault := ⟨[], cause⟩

def under (p : Place) (f : Fault) : Fault := { f with location := p :: f.location }

def toValue (f : Fault) : Value :=
  .object [("loc", .list (f.location.map Place.toValue)), ("type", .text f.cause.code),
    ("msg", .text f.cause.message)]

end Fault

end Wireframe
