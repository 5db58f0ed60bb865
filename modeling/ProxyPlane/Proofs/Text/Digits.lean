import Mathlib.Data.Nat.Digits.Defs
import ProxyPlane.Proofs.Text.Numeral

/-!
# Which texts are numerals

## What is here

* `Numeral.valueOf`, the number that digits write, and `Numeral.Writes`: digits, at least one, with
  an optional plus sign in front.
* `Numeral.value?_eq_some_iff`: these are the texts that are read.
* `Numeral.u64?_eq_some_iff` and `Numeral.u64?_eq_none_iff`, with the bound of 64 bits.
-/

set_option autoImplicit false
namespace ProxyPlane
namespace Numeral

/-- The number that decimal digits write, the last of which counts ones. -/
def valueOf (ds : List Char) : Nat :=
  Nat.ofDigits 10 (ds.reverse.map fun c => c.toNat - '0'.toNat)

/-- A text of decimal digits, at least one, writes a number; a plus sign may stand in front. -/
def Writes (text : String) (n : Nat) : Prop :=
  ∃ ds, (text.toList = ds ∨ text.toList = '+' :: ds) ∧ ds ≠ [] ∧
    (∀ c ∈ ds, c.isDigit = true) ∧ valueOf ds = n

theorem valueOf_cons (c : Char) (cs : List Char) :
    valueOf (c :: cs) = (c.toNat - '0'.toNat) * 10 ^ cs.length + valueOf cs := by
  simp only [valueOf, List.reverse_cons, List.map_append, List.map_cons, List.map_nil,
    Nat.ofDigits_append, Nat.ofDigits_singleton, List.length_map, List.length_reverse]
  rw [Nat.mul_comm, Nat.add_comm]

theorem digit?_eq_some_iff {c : Char} {d : Nat} :
    digit? c = some d ↔ c.isDigit = true ∧ c.toNat - '0'.toNat = d := by
  rw [digit?, Option.ite_none_right_eq_some, Option.some.injEq, Char.isDigit, Bool.and_eq_true,
    decide_eq_true_eq, decide_eq_true_eq]
  rfl

/-- Digits are read behind those that are read already. -/
theorem digits?_eq_some_iff {acc n : Nat} {cs : List Char} :
    digits? acc cs = some n ↔
      (∀ c ∈ cs, c.isDigit = true) ∧ acc * 10 ^ cs.length + valueOf cs = n := by
  induction cs generalizing acc with
  | nil => simp [digits?, valueOf]
  | cons c cs ih =>
    have hvalue : (acc * 10 + (c.toNat - '0'.toNat)) * 10 ^ cs.length + valueOf cs =
        acc * 10 ^ (c :: cs).length + valueOf (c :: cs) := by
      rw [valueOf_cons, List.length_cons, Nat.pow_succ]
      ring
    rw [digits?, Option.bind_eq_some_iff, List.forall_mem_cons, ← hvalue]
    constructor
    · rintro ⟨d, hd, hrest⟩
      obtain ⟨hc, rfl⟩ := digit?_eq_some_iff.1 hd
      obtain ⟨hcs, hn⟩ := ih.1 hrest
      exact ⟨⟨hc, hcs⟩, hn⟩
    · rintro ⟨⟨hc, hcs⟩, hn⟩
      exact ⟨_, digit?_eq_some_iff.2 ⟨hc, rfl⟩, ih.2 ⟨hcs, hn⟩⟩

/-- **The texts that are read are those that write a number.** -/
theorem value?_eq_some_iff {text : String} {n : Nat} :
    value? text.toList = some n ↔ Writes text n := by
  have hbody : ∀ ds : List Char, (if ds.isEmpty then none else digits? 0 ds) = some n ↔
      ds ≠ [] ∧ (∀ c ∈ ds, c.isDigit = true) ∧ valueOf ds = n := by
    intro ds
    simp [digits?_eq_some_iff]
  rw [Writes]
  by_cases hplus : text.toList.head? = some '+'
  · obtain ⟨rest, htext⟩ := List.head?_eq_some_iff.1 hplus
    rw [htext]
    refine (hbody rest).trans ⟨fun h => ⟨rest, .inr rfl, h⟩, ?_⟩
    rintro ⟨ds, rfl | hds, hne, hdigits, hn⟩
    · -- a plus sign is no digit
      exact absurd (hdigits '+' List.mem_cons_self) (by decide)
    · obtain rfl := (List.cons.inj hds).2
      exact ⟨hne, hdigits, hn⟩
  · have hvalue : value? text.toList =
        if text.toList.isEmpty then none else digits? 0 text.toList := by
      simp only [value?]
      split
      · rename_i rest htext
        simp [htext] at hplus
      · rfl
    rw [hvalue, hbody]
    refine ⟨fun h => ⟨_, .inl rfl, h⟩, ?_⟩
    rintro ⟨ds, rfl | hds, h⟩
    · exact h
    · simp [hds] at hplus

theorem u64?_eq_some_iff {text : String} {n : Nat} :
    u64? text = some n ↔ Writes text n ∧ n < 2 ^ 64 := by
  simp [u64?, read?, Option.filter_eq_some_iff, value?_eq_some_iff]

theorem u64?_eq_none_iff {text : String} :
    u64? text = none ↔ ∀ n, Writes text n → 2 ^ 64 ≤ n := by
  simp [Option.eq_none_iff_forall_ne_some, u64?_eq_some_iff]

end Numeral
end ProxyPlane
