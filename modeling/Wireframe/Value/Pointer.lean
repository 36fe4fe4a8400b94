import Wireframe.Value.Basic
import Wireframe.Text.Numeral

/-
  Wireframe.Value.Pointer — texts that address a place in a document.

  A pointer is a list of tokens, each written after a slash. In a token `~` is written `~0` and
  `/` is written `~1`. A token leads to the member of that key in an object, and in a list to the
  item of that number; a negative number counts from the end.
-/

namespace Wireframe

/-- Why a pointer addresses nothing. -/
inductive PointerFault where
  | noLeadingSlash (pointer : String)
  | unresolved (pointer token : String)
  deriving DecidableEq

def PointerFault.message : PointerFault → String
  | .noLeadingSlash p => "Invalid JSON pointer '" ++ p ++ "': must start with '/'"
  | .unresolved p token => "Pointer '" ++ p ++ "' does not resolve at '" ++ token ++ "'"

namespace Pointer

/-! ## Text and tokens -/

def escapeChars : List Char → List Char
  | [] => []
  | c :: cs =>
    if c = '~' then '~' :: '0' :: escapeChars cs
    else if c = '/' then '~' :: '1' :: escapeChars cs
    else c :: escapeChars cs

/-- A tilde that is followed by neither `0` nor `1` stands for itself. -/
def unescapeChars : List Char → List Char
  | '~' :: '0' :: cs => '~' :: unescapeChars cs
  | '~' :: '1' :: cs => '/' :: unescapeChars cs
  | c :: cs => c :: unescapeChars cs
  | [] => []

def escape (token : String) : String := String.ofList (escapeChars token.toList)

def unescape (token : String) : String := String.ofList (unescapeChars token.toList)

/-- The pointer with these tokens. -/
def build (tokens : List String) : String :=
  String.ofList (tokens.flatMap fun t => '/' :: escapeChars t.toList)

/-- The parts between slashes, as many as there are slashes and one more. -/
def parts : List Char → List (List Char)
  | [] => [[]]
  | c :: cs =>
    if c = '/' then [] :: parts cs
    else match parts cs with
      | part :: rest => (c :: part) :: rest
      | [] => [[c]]

/-- The tokens of a pointer. -/
def parse (pointer : String) : Except PointerFault (List String) :=
  match pointer.toList with
  | [] => .ok []
  | '/' :: cs => .ok ((parts cs).map fun part => String.ofList (unescapeChars part))
  | _ => .error (.noLeadingSlash pointer)

/-- The pointer of a child, from that of its parent. -/
def child (parent slot : String) (index : Option Int) : String :=
  let pointer := parent ++ "/" ++ escape slot
  match index with
  | some i => pointer ++ "/" ++ toString i
  | none => pointer

/-! ## Places in a document -/

/-- The place in a list that a token names. -/
def position? (length : Nat) (token : String) : Option Nat := do
  let n ← Text.integer? token
  let n := if n < 0 then n + length else n
  if 0 ≤ n ∧ n < length then some n.toNat else none

def step? (v : Value) (token : String) : Option Value :=
  match v with
  | .list items => (position? items.length token).bind (items[·]?)
  | .object members => Keyed.get? members token
  | _ => none

/-- The value that the tokens lead to, or the first token that leads nowhere. -/
def follow (v : Value) : List String → Except String Value
  | [] => .ok v
  | token :: rest => match step? v token with
    | some next => follow next rest
    | none => .error token

/-- The value a pointer addresses. -/
def resolve (document : Value) (pointer : String) : Except PointerFault Value := do
  let tokens ← parse pointer
  match follow document tokens with
  | .ok v => .ok v
  | .error token => .error (.unresolved pointer token)

/-! ## Changes -/

/-- Applies a change to the value that the tokens lead to. -/
def update (change : Value → Value) (v : Value) : List String → Value
  | [] => change v
  | token :: rest => match v with
    | .list items => match position? items.length token with
      | some i => .list (items.modify i (update change · rest))
      | none => v
    | .object members => .object (members.map fun (k, m) =>
        if k == token then (k, update change m rest) else (k, m))
    | _ => v

/-- Puts a value at one token: a member of an object, an item of a list, or `-` for a new last
    item. -/
def put (token : String) (value : Value) : Value → Value
  | .list items =>
    if token == "-" then .list (items ++ [value])
    else match position? items.length token with
      | some i => .list (items.set i value)
      | none => .list items
  | .object members => .object (Keyed.put members token value)
  | v => v

/-- Removes what stands at one token. -/
def remove (token : String) : Value → Value
  | .list items => match position? items.length token with
    | some i => .list (items.eraseIdx i)
    | none => .list items
  | .object members => .object (Keyed.erase members token)
  | v => v

/-- Splits off the last token. The empty pointer has no parent. -/
def parent? (tokens : List String) : Option (List String × String) :=
  tokens.getLast?.map fun last => (tokens.dropLast, last)

/-- Applies a change of one place to the parent of what a pointer addresses; the parent has to
    exist. -/
def edit (change : String → Value → Value) (document : Value) (pointer : String) :
    Except PointerFault Value := do
  match parent? (← parse pointer) with
  | none => .ok document
  | some (above, last) =>
    match follow document above with
    | .ok _ => .ok (update (change last) document above)
    | .error token => .error (.unresolved (build above) token)

end Pointer

end Wireframe
