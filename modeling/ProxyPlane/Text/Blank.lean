/-!
# Blank characters and trimming

A character is blank when Unicode gives it the property `White_Space`.  Names, markers and settings
are trimmed of blanks at both ends.

## What is here

* `isBlank`, the property; it holds of every character that core calls whitespace
  (`isBlank_of_isWhitespace`).
* `trimBlank`, a text without the blanks at its ends, and the same for lists of characters.
* `trimEndChar`, a text without the copies of one character at its end.
-/

set_option autoImplicit false
namespace ProxyPlane

/-- Whether Unicode gives the character the property `White_Space`. -/
def isBlank (c : Char) : Bool :=
  let n := c.toNat
  (0x9 ≤ n && n ≤ 0xD) || n == 0x20 || n == 0x85 || n == 0xA0 || n == 0x1680 ||
  (0x2000 ≤ n && n ≤ 0x200A) || n == 0x2028 || n == 0x2029 || n == 0x202F || n == 0x205F ||
  n == 0x3000

theorem isBlank_of_isWhitespace {c : Char} (h : c.isWhitespace = true) : isBlank c = true := by
  simp only [Char.isWhitespace, Bool.or_eq_true, decide_eq_true_eq] at h
  rcases h with ((rfl | rfl) | rfl) | rfl <;> decide

/-- The list without the elements at its end that satisfy the test. -/
def dropEndWhile {α : Type} (p : α → Bool) (xs : List α) : List α :=
  (xs.reverse.dropWhile p).reverse

/-- The list without the elements at either end that satisfy the test. -/
def trimWhile {α : Type} (p : α → Bool) (xs : List α) : List α :=
  dropEndWhile p (xs.dropWhile p)

/-- The text without the blanks at its ends. -/
def trimBlank (s : String) : String := String.ofList (trimWhile isBlank s.toList)

/-- The text without the copies of `c` at its end. -/
def trimEndChar (c : Char) (s : String) : String :=
  String.ofList (dropEndWhile (· == c) s.toList)

end ProxyPlane
