/-
  Wireframe.Sum — what a list adds up to.
-/

namespace Wireframe

/-- The sum of a count over a list. -/
def sumOf (count : α → Int) : List α → Int
  | [] => 0
  | a :: rest => count a + sumOf count rest

end Wireframe
