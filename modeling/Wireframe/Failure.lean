import Wireframe.Node.Basic
import Wireframe.Record.Fault
import Wireframe.Value.Pointer
import Wireframe.Viewport

/-
  Wireframe.Failure — why a check of a screen gives no answer.
-/

namespace Wireframe

inductive Failure where
  /-- A document that does not read as what it should be. -/
  | faults (faults : List Fault)
  /-- A node that does not read as one after blocks were laid over it. -/
  | overlay (faults : List Fault)
  /-- A frame whose size is beyond the range of doubles. -/
  | frame (faults : List Fault)
  | viewport (fault : ViewportFault)
  | pointer (fault : PointerFault)
  /-- No pattern has this name; some names are near to it. -/
  | unknownPattern (name : String) (near known : List String)
  | calculation (fault : CalculationFault)
  /-- A threshold that is written with too many digits. -/
  | digits (fault : Text.TooManyDigits)
  /-- A container where a leaf is measured. -/
  | container (id typeName : String)
  /-- No node has this id. -/
  | noNode (id : String)
  /-- What an issue is drafted from, given a second time. -/
  | givenTwice (name : String)
  | unknownVariable (name : String)
  /-- A value of this kind where one with items belongs. -/
  | noItems (kind : String)
  /-- A document that nests too deep to be read. -/
  | tooDeep
  /-- A pattern is asked for without its name. -/
  | unnamedPattern
  /-- A viewport is asked for without its size. -/
  | unsizedViewport
  /-- An indentation is asked for without its width. -/
  | noIndentation
  /-- A value that has an object with half of a surrogate pair in a key. -/
  | halfKey
  deriving DecidableEq

namespace Failure

def unknownPatternMessage (name : String) (near known : List String) : String :=
  "Unknown pattern '" ++ name ++ "'." ++
    (if near.isEmpty then "" else " Did you mean: " ++ ", ".intercalate near ++ "?") ++
    " Available: " ++ ", ".intercalate known

/-- How many faults there are, and in what. -/
def faultsMessage (subject : String) (faults : List Fault) : String :=
  toString faults.length ++
    (if faults.length = 1 then " validation error for " else " validation errors for ") ++ subject

/-- How a node of any kind is named in messages. -/
def anyNode : String :=
  "tagged-union[" ++ ",".intercalate (Kind.words.map fun w => w.1 ++ "Node") ++ "]"

/-- The wording, where there is one. -/
def message : Failure → String
  | faults fs => faultsMessage "Scaffold" fs
  | overlay fs => faultsMessage anyNode fs
  | frame fs => faultsMessage "Frame" fs
  | viewport f => f.message
  | pointer f => f.message
  | unknownPattern name near known => unknownPatternMessage name near known
  | calculation f => f.message
  | digits f => f.message
  | container id typeName => "Cannot measure container node '" ++ id ++ "' of type " ++ typeName
  | noNode id => "No node '" ++ id ++ "'"
  | givenTwice name => "LayoutContext.report() got multiple values for argument '" ++ name ++ "'"
  | unknownVariable name => name
  | noItems kind => "'" ++ kind ++ "' object is not iterable"
  | tooDeep => "maximum recursion depth exceeded"
  | unnamedPattern => "no pattern is named"
  | unsizedViewport => "expected string or bytes-like object, got 'list'"
  | noIndentation => "can't multiply sequence by non-int of type 'list'"
  | halfKey => "surrogates not allowed"

end Failure

end Wireframe
