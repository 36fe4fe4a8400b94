/-
  Wireframe.Trail — computations that leave notes and may fail.

  The notes are those of the steps in order. A step that fails ends the computation; the notes
  left until then stay.
-/

namespace Wireframe

structure Trail (ω ε α : Type) where
  notes : List ω
  result : Except ε α

namespace Trail

variable {ω ε α β : Type}

def done (a : α) : Trail ω ε α := ⟨[], .ok a⟩

def bind (t : Trail ω ε α) (f : α → Trail ω ε β) : Trail ω ε β :=
  match t.result with
  | .ok a => ⟨t.notes ++ (f a).notes, (f a).result⟩
  | .error e => ⟨t.notes, .error e⟩

instance : Monad (Trail ω ε) where
  pure := done
  bind := bind

/-- Leaves one note. -/
def note (w : ω) : Trail ω ε Unit := ⟨[w], .ok ()⟩

/-- Leaves some notes. -/
def leave (ws : List ω) : Trail ω ε Unit := ⟨ws, .ok ()⟩

def fail (e : ε) : Trail ω ε α := ⟨[], .error e⟩

/-- A result without notes. -/
def ofExcept (r : Except ε α) : Trail ω ε α := ⟨[], r⟩

/-- The same notes, and another wording of the failure. -/
def mapError (f : ε → ε') (t : Trail ω ε α) : Trail ω ε' α :=
  ⟨t.notes, t.result.mapError f⟩

/-- One computation for every item, in order. -/
def each (f : α → Trail ω ε β) : List α → Trail ω ε (List β)
  | [] => done []
  | a :: rest => do
    let b ← f a
    let bs ← each f rest
    return b :: bs

end Trail

end Wireframe
