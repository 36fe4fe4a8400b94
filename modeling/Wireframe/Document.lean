import Wireframe.Failure
import Wireframe.Issue
import Wireframe.Scaffold

/-
  Wireframe.Document — the documents of nodes, scaffolds and issues as they are handed out.

  The keys of dictionaries are written without halves of surrogate pairs. Inside untyped values
  keys stay as they are, and a document with a half in such a key is not handed out.
-/

namespace Wireframe

def Value.handedOut (v : Value) : Except Failure Value :=
  if v.hasHalfKey then .error .halfKey else .ok v

def Node.document (w : Writing) (n : Node) : Except Failure Value := (n.write w).handedOut

def Scaffold.document (w : Writing) (s : Scaffold) : Except Failure Value := (s.write w).handedOut

def Issue.document (i : Issue) : Except Failure Value := i.toValue.handedOut

def Issue.documents (issues : List Issue) : Except Failure Value := (listValue issues).handedOut

end Wireframe
