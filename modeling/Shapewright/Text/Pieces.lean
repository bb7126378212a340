/-!
# Pieces of a text

A text is cut at every occurrence of a separator, which leaves one piece more
than there are separators.

Main definitions:

* `Text.pieces` — the pieces.
* `Text.joined` — pieces with the separator between them; `joined_pieces` says
  that nothing is lost.
-/

namespace Shapewright.Text

/-- The pieces between the occurrences of `separator`. -/
def pieces (separator : Char) : List Char → List (List Char)
  | [] => [[]]
  | c :: rest =>
    if c = separator then [] :: pieces separator rest
    else
      match pieces separator rest with
      | [] => [[c]]
      | piece :: more => (c :: piece) :: more

/-- Pieces with `separator` between them. -/
def joined (separator : Char) : List (List Char) → List Char
  | [] => []
  | [piece] => piece
  | piece :: next :: more => piece ++ separator :: joined separator (next :: more)

theorem pieces_ne_nil (separator : Char) (cs : List Char) : pieces separator cs ≠ [] := by
  cases cs with
  | nil => simp [pieces]
  | cons c rest =>
    rw [pieces]
    split
    · simp
    · split <;> simp

theorem joined_cons (separator c : Char) (piece : List Char) (more : List (List Char)) :
    joined separator ((c :: piece) :: more) = c :: joined separator (piece :: more) := by
  cases more <;> simp [joined]

theorem joined_pieces (separator : Char) (cs : List Char) :
    joined separator (pieces separator cs) = cs := by
  induction cs with
  | nil => rfl
  | cons c rest ih =>
    have hne := pieces_ne_nil separator rest
    rw [pieces]
    split
    · next h =>
      subst h
      cases hp : pieces c rest with
      | nil => exact absurd hp hne
      | cons piece more => rw [hp] at ih; simp [joined, ih]
    · cases hp : pieces separator rest with
      | nil => exact absurd hp hne
      | cons piece more => rw [hp] at ih; rw [joined_cons, ih]

/-- The pieces of a string. -/
def piecesOf (separator : Char) (s : String) : List String :=
  (pieces separator s.toList).map String.ofList

end Shapewright.Text
