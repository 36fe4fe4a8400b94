import Wireframe.Text.Point

/-
  Wireframe.Text.Bytes — texts as bytes.

  A character is written in UTF-8. The low halves U+DC80 to U+DCFF are the bytes 80 to FF where
  these are no part of a character; no other half is written in bytes. Texts that are written in
  the same bytes name the same file.
-/

namespace Wireframe.Text

/-- What is added to a byte for the half that stands for it. -/
def bytePlane : Nat := 0xDC00

def Point.bytes? : Point → Option (List UInt8)
  | .char c => some (String.utf8EncodeChar c)
  | .half n => if 0xDC80 ≤ n ∧ n ≤ 0xDCFF then some [UInt8.ofNat (n - bytePlane)] else none

/-- The bytes of a text, none when it has a half that no byte is written for. -/
def bytes? (s : String) : Option (List UInt8) :=
  ((points s.toList).mapM Point.bytes?).map List.flatten

/-- The points that bytes write. -/
def pointsOfBytes : List UInt8 → List Point
  | [] => []
  | b :: rest => match ByteArray.utf8DecodeChar? ⟨(b :: rest.take 3).toArray⟩ 0 with
    | some c => .char c :: pointsOfBytes (rest.drop (c.utf8Size - 1))
    | none => .half (bytePlane + b.toNat) :: pointsOfBytes rest
termination_by bs => bs.length
decreasing_by
  · simp only [List.length_drop, List.length_cons]; omega
  · simp

/-- The text that bytes write. -/
def ofBytes (bs : List UInt8) : String := String.ofList ((pointsOfBytes bs).flatMap Point.held)

/-- The text that the bytes of a text are read as. -/
def settled (s : String) : String := ((bytes? s).map ofBytes).getD s

end Wireframe.Text
