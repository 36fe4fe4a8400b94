import Wireframe.Record.Shape

/-
  Wireframe.Record.Reading — records with named fields, read from objects.

  Every field has a key in camel case and the same name in snake case; the first one is used when
  both stand in an object. Keys that name no field are passed over. A reading looks at every
  field, also after a fault, so that the faults come in the order of the fields; and it notes the
  camel-case keys of the fields that were written, so that a record can be written back with
  nothing but these.
-/

namespace Wireframe

/-- The two spellings of a field's name. -/
structure Key where
  camel : String
  snake : String
  deriving DecidableEq

/-- A name of one word, spelled the same way in both cases. -/
def Key.plain (name : String) : Key := ⟨name, name⟩

/-- The value of a field, with the spelling that was used. -/
def Key.find? (key : Key) (o : Object) : Option (String × Value) :=
  match Keyed.get? o key.camel with
  | some v => some (key.camel, v)
  | none => (Keyed.get? o key.snake).map fun v => (key.snake, v)

/-- Reads some fields of an object, and notes which of them were written. -/
structure Reading (α : Type) where
  run : Object → Except Faults (α × List String)

namespace Reading

def map (f : α → β) (r : Reading α) : Reading β :=
  ⟨fun o => (r.run o).map fun (a, given) => (f a, given)⟩

/-- Both readings; the faults of both are told. -/
def both (r : Reading α) (s : Reading β) : Reading (α × β) :=
  ⟨fun o => (together (r.run o) (s.run o)).map fun ((a, g), (b, h)) => ((a, b), g ++ h)⟩

/-- The reading of one more argument. -/
def andThen (r : Reading (α → β)) (s : Reading α) : Reading β := (r.both s).map fun (f, a) => f a

instance : Functor Reading := ⟨map, fun a r => r.map fun _ => a⟩

instance : Applicative Reading where
  pure a := ⟨fun _ => .ok (a, [])⟩
  seq r s := r.andThen (s ())

/-- A field that may be left out, for its default. -/
def optional (key : Key) (shape : Shape α) (default : α) : Reading α :=
  ⟨fun o => match key.find? o with
    | some (used, v) => (underPlace (.key used) (shape v)).map fun a => (a, [key.camel])
    | none => .ok (default, [])⟩

/-- A field that has to be there. -/
def required (key : Key) (shape : Shape α) : Reading α :=
  ⟨fun o => match key.find? o with
    | some (used, v) => (underPlace (.key used) (shape v)).map fun a => (a, [key.camel])
    | none => .error [⟨[.key key.camel], .missing⟩]⟩

/-- A field that may be null, and is when it is left out. -/
def nullable (key : Key) (shape : Shape α) : Reading (Option α) := optional key shape.nullable none

/-- A field of which it matters whether it was written: null when written so. -/
def written (key : Key) (shape : Shape α) : Reading (Option α) :=
  (optional key (fun v => (shape v).map some) none)

/-- Hands the keys that were written to the record. -/
def noted (r : Reading (List String → α)) : Reading α :=
  ⟨fun o => (r.run o).map fun (f, given) => (f given, given)⟩

end Reading

namespace Shape

/-- A record of a name. -/
def record (name : String) (reading : Reading α) : Shape α
  | .object o => (reading.run o).map (·.1)
  | _ => refuse (.record name)

end Shape

/-! ## Writing -/

/-- What of a record is written. -/
inductive Writing where
  /-- Every field, with untyped values as they are. -/
  | exact
  /-- Every field. Infinities and not-a-number in untyped values are written as null. -/
  | full
  /-- Only the fields that were written, and untyped values as in `full`. -/
  | given
  deriving DecidableEq

namespace Writing

/-- The fields of a record that are written. -/
def fields (w : Writing) (given : List String) (all : Object) : Object :=
  match w with
  | .given => all.filter fun (k, _) => given.contains k
  | _ => all

/-- An untyped value. -/
def untyped (w : Writing) (v : Value) : Value :=
  match w with
  | .exact => v
  | _ => v.finite

/-- The keys of a dictionary are written without halves; of those that become the same the last one
    counts, in the place of the first. -/
def keyed (w : Writing) (o : Object) : Object :=
  if w != .exact && o.any fun m => Text.hasHalf m.1 then
    Keyed.ofList (o.map fun m => (Text.withoutHalves m.1, m.2))
  else o

/-- A dictionary of untyped values. -/
def dictionary (w : Writing) (o : Object) : Value :=
  .object (w.keyed (o.map fun m => (m.1, w.untyped m.2)))

end Writing

end Wireframe
