import Mathlib.Data.List.DropRight
import ProxyPlane.Text.Blank

/-!
# Trimmed lists

## What is here

* `trimWhile_eq_self`: a list has nothing to trim if its first and last elements fail the test.
* `head_trimWhile`: what is left does not start with something to trim.
* `trimWhile_trimWhile`: a trimmed list has nothing left to trim.
* `mem_of_mem_trimWhile`: trimming adds nothing.
-/

set_option autoImplicit false
namespace ProxyPlane

variable {α : Type} {p : α → Bool} {xs : List α}

theorem trimWhile_eq (p : α → Bool) (xs : List α) :
    trimWhile p xs = (xs.dropWhile p).rdropWhile p := rfl

/-- **A list has nothing to trim if its first and last elements fail the test.** -/
theorem trimWhile_eq_self
    (h : ∀ hne : xs ≠ [], p (xs.head hne) = false ∧ p (xs.getLast hne) = false) :
    trimWhile p xs = xs := by
  have hdrop : xs.dropWhile p = xs := by
    refine List.dropWhile_eq_self_iff.2 fun hlength => ?_
    have hhead := (h (List.ne_nil_of_length_pos hlength)).1
    rw [List.head_eq_getElem] at hhead
    simp [hhead]
  rw [trimWhile_eq, hdrop]
  exact List.rdropWhile_eq_self_iff.2 fun hne => by simp [(h hne).2]

theorem trimWhile_of_forall (h : ∀ x ∈ xs, p x = false) : trimWhile p xs = xs :=
  trimWhile_eq_self fun hne => ⟨h _ (List.head_mem hne), h _ (List.getLast_mem hne)⟩

theorem trimWhile_of_ends {a b : α} (ha : p a = false) (hb : p b = false) :
    trimWhile p (a :: (xs ++ [b])) = a :: (xs ++ [b]) :=
  trimWhile_eq_self fun _ => ⟨ha, by simpa [List.getLast_cons] using hb⟩

/-- What is dropped at the end leaves the first element alone. -/
theorem head_trimWhile (p : α → Bool) (xs : List α) (hne : trimWhile p xs ≠ []) :
    p ((trimWhile p xs).head hne) = false := by
  have hstart : trimWhile p xs <+: xs.dropWhile p := List.rdropWhile_prefix p _
  rw [hstart.head hne]
  exact List.head_dropWhile_not p _

/-- **A trimmed list has nothing left to trim.** -/
theorem trimWhile_trimWhile (p : α → Bool) (xs : List α) :
    trimWhile p (trimWhile p xs) = trimWhile p xs := by
  refine trimWhile_eq_self fun hne => ⟨head_trimWhile p xs hne, ?_⟩
  have hlast : ¬p ((trimWhile p xs).getLast hne) := List.rdropWhile_last_not p _ hne
  simpa using hlast

/-- Trimming adds nothing. -/
theorem mem_of_mem_trimWhile {x : α} (h : x ∈ trimWhile p xs) : x ∈ xs :=
  (List.dropWhile_suffix p).subset ((List.rdropWhile_prefix p _).subset h)

end ProxyPlane
