/-!
# Pieces between separators

Lists of names are written with a separator between them, and addresses are cut at their first or
last colon.

## What is here

* `pieces sep xs`, what stands between the separators; joining the pieces with the separator gives
  the list back (`intercalate_pieces`).
* `cutFirst? x xs` and `cutLast? x xs`, what stands before and after the first or last `x`.
-/

set_option autoImplicit false
namespace ProxyPlane

/-- The pieces of a list between the separators; there is one more piece than separators. -/
def pieces {α : Type} [BEq α] (sep : α) : List α → List (List α)
  | [] => [[]]
  | x :: xs =>
    if x == sep then [] :: pieces sep xs
    else match pieces sep xs with
      | [] => [[x]]
      | p :: ps => (x :: p) :: ps

theorem pieces_ne_nil {α : Type} [BEq α] (sep : α) (xs : List α) : pieces sep xs ≠ [] := by
  induction xs with
  | nil => simp [pieces]
  | cons x xs ih =>
    rw [pieces]
    split
    · simp
    · split <;> simp

/-- What stands before and after the first occurrence of an element. -/
def cutFirst? {α : Type} [BEq α] (x : α) : List α → Option (List α × List α)
  | [] => none
  | y :: ys =>
    if y == x then some ([], ys) else (cutFirst? x ys).map fun p => (y :: p.1, p.2)

/-- What stands before and after the last occurrence of an element. -/
def cutLast? {α : Type} [BEq α] (x : α) : List α → Option (List α × List α)
  | [] => none
  | y :: ys =>
    match cutLast? x ys with
    | some p => some (y :: p.1, p.2)
    | none => if y == x then some ([], ys) else none

theorem intercalate_pieces {α : Type} [BEq α] [LawfulBEq α] (sep : α) (xs : List α) :
    [sep].intercalate (pieces sep xs) = xs := by
  induction xs with
  | nil => rfl
  | cons x xs ih =>
    rw [pieces]
    have hne := pieces_ne_nil sep xs
    generalize pieces sep xs = ps at ih hne
    match ps, hne with
    | p :: ps, _ =>
      by_cases hx : x == sep
      · cases ps <;> simp_all [List.intercalate]
      · cases ps <;> simp_all [List.intercalate]

end ProxyPlane
