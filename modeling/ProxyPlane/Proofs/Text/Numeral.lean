import ProxyPlane.Proofs.Text.Trim
import ProxyPlane.Text.Numeral

/-!
# Reading back written numerals

## What is here

* `Numeral.digits?_toDigits`: the shortest numeral of a number has the number as its value.
* `Numeral.digits?_inj`: of two numerals with the same length and value there is only one.
* `Numeral.read?_padded`: zeros in front do not matter, so a numeral of any width reads as its
  number exactly if that is below the bound.
* `Numeral.u64?_trimBlank_write`: a sequence number written alone into a file is read back from it.
-/

set_option autoImplicit false
namespace ProxyPlane

namespace Numeral

theorem digit?_digitChar {d : Nat} (h : d < 10) : digit? (Nat.digitChar d) = some d := by
  have hall : ∀ d : Fin 10, digit? (Nat.digitChar d.val) = some d.val := by decide
  exact hall ⟨d, h⟩

theorem digits?_append (acc : Nat) (cs ds : List Char) :
    digits? acc (cs ++ ds) = (digits? acc cs).bind fun n => digits? n ds := by
  induction cs generalizing acc with
  | nil => rfl
  | cons c cs ih =>
    rw [List.cons_append, digits?, digits?]
    cases digit? c with
    | none => rfl
    | some d => exact ih _

/-- **The shortest numeral of a number has the number as its value.** -/
theorem digits?_toDigits (n : Nat) : digits? 0 (Nat.toDigits 10 n) = some n := by
  induction n using Nat.strongRecOn with
  | ind n ih =>
    rcases Nat.lt_or_ge n 10 with h | h
    · rw [Nat.toDigits_of_lt_base h, digits?, digit?_digitChar h]
      simp [digits?]
    · rw [Nat.toDigits_of_base_le (by omega) h, digits?_append, ih (n / 10) (by omega),
        Option.bind_some, digits?, digit?_digitChar (by omega)]
      simp only [Option.bind_some, digits?, Option.some.injEq]
      omega

theorem digits?_replicate_zero (k : Nat) (cs : List Char) :
    digits? 0 (List.replicate k '0' ++ cs) = digits? 0 cs := by
  induction k with
  | zero => rfl
  | succ k ih =>
    rw [List.replicate_succ, List.cons_append, digits?, show digit? '0' = some 0 by decide]
    exact ih

theorem digit?_eq_some {c : Char} {d : Nat} (h : digit? c = some d) :
    d < 10 ∧ c.toNat = 48 + d := by
  rw [digit?, Option.ite_none_right_eq_some, Option.some.injEq] at h
  obtain ⟨⟨hlow, hhigh⟩, hd⟩ := h
  have hlow : 48 ≤ c.toNat := hlow
  have hhigh : c.toNat ≤ 57 := hhigh
  have hzero : '0'.toNat = 48 := rfl
  omega

/-- **Of two numerals with the same length and value there is only one.** -/
theorem digits?_inj {cs ds : List Char} {a b n : Nat} (hcs : digits? a cs = some n)
    (hds : digits? b ds = some n) (hlength : cs.length = ds.length) : a = b ∧ cs = ds := by
  induction cs generalizing a b ds with
  | nil =>
    obtain rfl := List.length_eq_zero_iff.1 hlength.symm
    rw [digits?, Option.some.injEq] at hcs hds
    exact ⟨hcs.trans hds.symm, rfl⟩
  | cons c cs ih =>
    cases ds with
    | nil => exact absurd hlength (Nat.succ_ne_zero _)
    | cons d ds =>
      obtain ⟨x, hx, hcs⟩ := Option.bind_eq_some_iff.1 hcs
      obtain ⟨y, hy, hds⟩ := Option.bind_eq_some_iff.1 hds
      obtain ⟨hvalue, rfl⟩ := ih hcs hds (Nat.succ.inj hlength)
      obtain ⟨hx, hc⟩ := digit?_eq_some hx
      obtain ⟨hy, hd⟩ := digit?_eq_some hy
      obtain rfl : c = d := Char.toNat_inj.1 (by omega)
      exact ⟨by omega, rfl⟩

theorem isDigit_of_mem_padded {k n : Nat} {c : Char}
    (h : c ∈ List.replicate k '0' ++ Nat.toDigits 10 n) : c.isDigit = true := by
  rcases List.mem_append.1 h with h | h
  · rw [List.eq_of_mem_replicate h]; decide
  · exact Nat.isDigit_of_mem_toDigits (by decide) (by decide) h

/-- A numeral without a sign has the value of its digits. -/
theorem value?_of_isDigit {cs : List Char} (hne : cs ≠ []) (h : ∀ c ∈ cs, c.isDigit = true) :
    value? cs = digits? 0 cs := by
  cases cs with
  | nil => exact absurd rfl hne
  | cons c cs =>
    have hc : c ≠ '+' := by
      rintro rfl
      exact absurd (h '+' List.mem_cons_self) (by decide)
    simp only [value?]
    split
    · rename_i rest heq
      exact absurd (List.cons.inj heq).1 hc
    · rfl

/-- **A numeral with zeros in front is read exactly if its number is below the bound.** -/
theorem read?_padded (bound k n : Nat) :
    read? bound (List.replicate k '0' ++ Nat.toDigits 10 n) =
      if n < bound then some n else none := by
  have hne : List.replicate k '0' ++ Nat.toDigits 10 n ≠ [] := by
    simp [Nat.toDigits_ne_nil]
  rw [read?, value?_of_isDigit hne fun c hc => isDigit_of_mem_padded hc, digits?_replicate_zero,
    digits?_toDigits, Option.filter]
  simp

theorem read?_write (bound n : Nat) :
    read? bound (write n).toList = if n < bound then some n else none := by
  rw [write, String.toList_ofList]
  exact read?_padded bound 0 n

theorem isBlank_of_isDigit {c : Char} (h : c.isDigit = true) : isBlank c = false := by
  simp only [Char.isDigit, Bool.and_eq_true, decide_eq_true_eq] at h
  have h1 : 48 ≤ c.toNat := h.1
  have h2 : c.toNat ≤ 57 := h.2
  simp only [isBlank, Bool.or_eq_false_iff, Bool.and_eq_false_iff, decide_eq_false_iff_not,
    beq_eq_false_iff_ne]
  omega

/-- **A number written alone is read back if it fits 64 bits.** -/
theorem u64?_trimBlank_write (n : Nat) :
    u64? (trimBlank (write n)) = if n < Nat.pow 2 64 then some n else none := by
  have hdigits : ∀ c ∈ Nat.toDigits 10 n, isBlank c = false := fun c hc =>
    isBlank_of_isDigit (Nat.isDigit_of_mem_toDigits (by decide) (by decide) hc)
  rw [u64?, trimBlank, write, String.toList_ofList, String.toList_ofList,
    trimWhile_of_forall hdigits]
  exact read?_padded (Nat.pow 2 64) 0 n

end Numeral
end ProxyPlane
