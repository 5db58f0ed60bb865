import ProxyPlane.Text.Pieces

/-!
# Where lists are cut

## What is here

* `cutFirst?_eq_some` and `cutLast?_eq_some`: a list is cut at the first or last occurrence just if
  that is where it is put together again.
* `cutFirst?_eq_none` and `cutLast?_eq_none`: only a list without the element is not cut.
-/

set_option autoImplicit false
namespace ProxyPlane

variable {α : Type} [BEq α] [LawfulBEq α] {x : α}

theorem cutFirst?_eq_none {xs : List α} : cutFirst? x xs = none ↔ x ∉ xs := by
  induction xs with
  | nil => simp [cutFirst?]
  | cons y ys ih =>
    rw [cutFirst?]
    by_cases hy : y = x
    · simp [hy]
    · rw [if_neg (by simpa using hy), Option.map_eq_none_iff, ih, List.mem_cons, not_or]
      exact ⟨fun h => ⟨Ne.symm hy, h⟩, fun h => h.2⟩

/-- **A list is cut at the first occurrence of an element.** -/
theorem cutFirst?_eq_some {xs before after : List α} :
    cutFirst? x xs = some (before, after) ↔ xs = before ++ x :: after ∧ x ∉ before := by
  induction xs generalizing before with
  | nil => simp [cutFirst?]
  | cons y ys ih =>
    rw [cutFirst?]
    by_cases hy : y = x
    · subst hy
      rw [if_pos (by simp)]
      constructor
      · intro h
        obtain ⟨rfl, rfl⟩ := Prod.mk.inj (Option.some.inj h)
        exact ⟨rfl, List.not_mem_nil⟩
      · rintro ⟨h, hbefore⟩
        cases before with
        | nil => rw [(List.cons.inj h).2]
        | cons z zs => exact absurd ((List.cons.inj h).1 ▸ List.mem_cons_self) hbefore
    · rw [if_neg (by simpa using hy), Option.map_eq_some_iff]
      constructor
      · rintro ⟨⟨a, b⟩, hcut, h⟩
        obtain ⟨rfl, rfl⟩ := Prod.mk.inj h
        obtain ⟨rfl, ha⟩ := ih.1 hcut
        exact ⟨rfl, by simpa using ⟨Ne.symm hy, ha⟩⟩
      · rintro ⟨h, hbefore⟩
        cases before with
        | nil => exact absurd (List.cons.inj h).1 hy
        | cons z zs =>
          obtain ⟨rfl, hys⟩ := List.cons.inj h
          rw [List.mem_cons, not_or] at hbefore
          exact ⟨(zs, after), ih.2 ⟨hys, hbefore.2⟩, rfl⟩

theorem cutLast?_eq_none {xs : List α} : cutLast? x xs = none ↔ x ∉ xs := by
  induction xs with
  | nil => simp [cutLast?]
  | cons y ys ih =>
    rw [cutLast?]
    cases hcut : cutLast? x ys with
    | some p =>
      have hmem : x ∈ ys := Decidable.not_not.1 fun h => by
        rw [ih.2 h] at hcut
        exact absurd hcut nofun
      simp [hmem]
    | none =>
      have hmem := ih.1 hcut
      by_cases hy : y = x
      · simp [hy]
      · simp [hy, Ne.symm hy, hmem]

theorem cutLast?_append {before after : List α} (h : x ∉ after) :
    cutLast? x (before ++ x :: after) = some (before, after) := by
  induction before with
  | nil => rw [List.nil_append, cutLast?, cutLast?_eq_none.2 h, if_pos (by simp)]
  | cons y ys ih => rw [List.cons_append, cutLast?, ih]

/-- **A list is cut at the last occurrence of an element.** -/
theorem cutLast?_eq_some {xs before after : List α} :
    cutLast? x xs = some (before, after) ↔ xs = before ++ x :: after ∧ x ∉ after := by
  constructor
  · intro h
    induction xs generalizing before with
    | nil => exact absurd h nofun
    | cons y ys ih =>
      rw [cutLast?] at h
      cases hcut : cutLast? x ys with
      | some p =>
        rw [hcut] at h
        obtain ⟨rfl, rfl⟩ := Prod.mk.inj (Option.some.inj h)
        obtain ⟨hys, hafter⟩ := ih hcut
        exact ⟨congrArg (y :: ·) hys, hafter⟩
      | none =>
        rw [hcut] at h
        by_cases hy : y = x
        · subst hy
          rw [if_pos (by simp)] at h
          obtain ⟨rfl, rfl⟩ := Prod.mk.inj (Option.some.inj h)
          exact ⟨rfl, cutLast?_eq_none.1 hcut⟩
        · rw [if_neg (by simpa using hy)] at h
          exact absurd h nofun
  · rintro ⟨rfl, h⟩
    exact cutLast?_append h

end ProxyPlane
