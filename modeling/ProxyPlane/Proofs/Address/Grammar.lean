import ProxyPlane.Proofs.Address

/-!
# The grammar of addresses

An address writes its host in brackets, which end at the first closing one, or without brackets, and
then it holds one colon.  A text that is of neither form has exactly one thing wrong with it.
Joining undoes splitting unless the address has brackets that its host does not need.

## What is here

* `Address.Divides`, the two forms, and `split_eq_ok_iff`: these are the texts that are split.
* `AddressError.Arises`, what each error says of an address, and `split_eq_error_iff`: it is
  reported just for the texts of which that holds.
* `split_join_iff` and `join_eq_iff`, when joining and splitting undo each other, and
  `split_join_inverse`, both of them.
-/

set_option autoImplicit false
namespace ProxyPlane

/-! ## The two forms -/

namespace Address

/-- The text starts with an opening bracket. -/
def IsOpened (text : String) : Prop := text.toList.head? = some '['

instance (text : String) : Decidable (IsOpened text) :=
  inferInstanceAs (Decidable (_ = some '['))

/-- The text starts with an opening bracket, and no closing one follows. -/
def IsUnclosed (text : String) : Prop := IsOpened text ∧ ']' ∉ text.toList

/-- The text does not start with an opening bracket, and holds more than one colon. -/
def IsCrowded (text : String) : Prop := ¬IsOpened text ∧ 2 ≤ text.toList.count ':'

/-- An address is written with a host and a port. -/
inductive Divides (address host port : String) : Prop
  | bracketed (h : address = "[" ++ host ++ "]:" ++ port) (hhost : ']' ∉ host.toList)
  | bare (hopened : ¬IsOpened address) (hcolon : address.toList.count ':' = 1)
      (h : address = host ++ ":" ++ port)

end Address

/-- What an error says of an address: it is the address, which is unclosed, crowded, or else of
neither form. -/
def AddressError.Arises (address : String) : AddressError → Prop
  | .missingBracket a => a = address ∧ Address.IsUnclosed address
  | .tooManyColons a => a = address ∧ Address.IsCrowded address
  | .missingPort a =>
    a = address ∧ ¬Address.IsUnclosed address ∧ ¬Address.IsCrowded address ∧
      ∀ host port, ¬Address.Divides address host port

namespace Address

variable {address host port : String}

/-! ## Addresses that are split -/

theorem divides_iff_toList :
    Divides address host port ↔
      (address.toList = '[' :: (host.toList ++ ']' :: ':' :: port.toList) ∧ ']' ∉ host.toList) ∨
        (¬IsOpened address ∧ address.toList.count ':' = 1 ∧
          address.toList = host.toList ++ ':' :: port.toList) := by
  have hbracketed : address = "[" ++ host ++ "]:" ++ port ↔
      address.toList = '[' :: (host.toList ++ ']' :: ':' :: port.toList) := by
    rw [← String.toList_inj]
    simp [String.toList_append]
  have hbare : address = host ++ ":" ++ port ↔
      address.toList = host.toList ++ ':' :: port.toList := by
    rw [← String.toList_inj]
    simp [String.toList_append]
  rw [← hbracketed, ← hbare]
  constructor
  · rintro (⟨h, hhost⟩ | ⟨hopened, hcolon, h⟩)
    · exact .inl ⟨h, hhost⟩
    · exact .inr ⟨hopened, hcolon, h⟩
  · rintro (⟨h, hhost⟩ | ⟨hopened, hcolon, h⟩)
    · exact .bracketed h hhost
    · exact .bare hopened hcolon h

/-- **The texts that are split are those of the two forms.** -/
theorem split_eq_ok_iff : split address = .ok (host, port) ↔ Divides address host port := by
  have hsplit : split address = .ok (host, port) ↔
      splitChars address address.toList = .ok (host.toList, port.toList) := by
    rw [split, map_eq_ok]
    constructor
    · rintro ⟨⟨h, p⟩, hok, heq⟩
      obtain ⟨rfl, rfl⟩ := Prod.mk.inj heq
      simpa using hok
    · intro hok
      exact ⟨_, hok, by simp⟩
  rw [hsplit, splitChars_eq_ok, divides_iff_toList]
  refine or_congr_right (and_congr_right fun _ => ?_)
  -- a single colon is one that stands neither in the host nor in the port
  rw [and_comm (a := _ = 1)]
  refine and_congr_right fun haddress => ?_
  rw [haddress, List.count_append, List.count_cons_self, ← List.count_eq_zero (a := ':'),
    ← List.count_eq_zero (a := ':')]
  omega

/-! ## Addresses that are not split -/

theorem not_divides_of_arises {e : AddressError} (h : e.Arises address) :
    ¬Divides address host port := by
  cases e with
  | missingPort a => exact h.2.2.2 host port
  | missingBracket a =>
    obtain ⟨-, hopened, hclosing⟩ := h
    rw [divides_iff_toList]
    rintro (⟨haddress, -⟩ | ⟨hbare, -⟩)
    · exact hclosing (by simp [haddress])
    · exact hbare hopened
  | tooManyColons a =>
    obtain ⟨-, hopened, hcolons⟩ := h
    rw [divides_iff_toList]
    rintro (⟨haddress, -⟩ | ⟨-, hcolon, -⟩)
    · exact hopened (by simp [IsOpened, haddress])
    · omega

/-- No two errors are to be said of one address. -/
theorem eq_of_arises {e e' : AddressError} (h : e.Arises address) (h' : e'.Arises address) :
    e = e' := by
  cases e <;> cases e' <;> grind [AddressError.Arises, IsUnclosed, IsCrowded]

theorem arises_of_split {e : AddressError} (h : split address = .error e) : e.Arises address := by
  have hnone : ∀ host port, ¬Divides address host port := fun host port hdivides => by
    rw [split_eq_ok_iff.2 hdivides] at h
    cases h
  rw [split, map_eq_error] at h
  -- the first character decides which of the two searches is made
  by_cases hopened : IsOpened address
  · obtain ⟨rest, haddress⟩ := List.head?_eq_some_iff.1 hopened
    rw [haddress, splitChars] at h
    split at h
    · rename_i hcut
      cases h
      have hclosing : ']' ∉ rest := cutFirst?_eq_none.1 hcut
      exact ⟨rfl, hopened, by simp [haddress, hclosing]⟩
    · cases h
    · rename_i p _ hcut
      cases h
      have hrest : rest = p.1 ++ ']' :: p.2 := (cutFirst?_eq_some.1 hcut).1
      refine ⟨rfl, fun hunclosed => hunclosed.2 ?_, fun hcrowded => hcrowded.1 hopened, hnone⟩
      simp [haddress, hrest]
  · have hbracket : ∀ rest, address.toList ≠ '[' :: rest := fun rest haddress =>
      hopened (by simp [IsOpened, haddress])
    rw [splitChars.eq_2 address _ hbracket] at h
    split at h
    · rename_i hcut
      cases h
      have hcolon : address.toList.count ':' = 0 := List.count_eq_zero.2 (cutLast?_eq_none.1 hcut)
      exact ⟨rfl, fun hunclosed => hopened hunclosed.1,
        fun hcrowded => by have := hcrowded.2; omega, hnone⟩
    · rename_i before after hcut
      split at h
      · rename_i hcolon
        cases h
        have hbefore : 0 < before.count ':' := List.count_pos_iff.2 (by simpa using hcolon)
        refine ⟨rfl, hopened, ?_⟩
        rw [(cutLast?_eq_some.1 hcut).1, List.count_append, List.count_cons_self]
        omega
      · cases h

/-- **An error is reported just for the addresses of which it is to be said.** -/
theorem split_eq_error_iff {e : AddressError} :
    split address = .error e ↔ e.Arises address := by
  refine ⟨arises_of_split, fun h => ?_⟩
  cases hsplit : split address with
  | error e' => rw [eq_of_arises (arises_of_split hsplit) h]
  | ok r => exact absurd (split_eq_ok_iff.1 hsplit) (not_divides_of_arises h)

/-! ## Joining again -/

/-- **A host is taken out of its address as it was put in just if it is plain.** -/
theorem split_join_iff {port : Nat} :
    split (join host port) = .ok (host, Numeral.write port) ↔ IsPlain host := by
  refine ⟨fun h => isPlain_of_split h fun hhead => ?_, fun h => split_join h port⟩
  exact split_join_of_bracket h hhead port _ h

/-- **An address is put together again** unless it has brackets around a host without colons. -/
theorem join_eq_iff {port : Nat} (h : split address = .ok (host, Numeral.write port))
    (hhost : ¬IsOpened host) :
    join host port = address ↔ ¬(IsOpened address ∧ ':' ∉ host.toList) := by
  have hjoin : (join host port).toList =
      if ':' ∈ host.toList then '[' :: (host.toList ++ ']' :: ':' :: (Numeral.write port).toList)
      else host.toList ++ ':' :: (Numeral.write port).toList := by
    have hneeds : needsBrackets host = true ↔ ':' ∈ host.toList := by
      simpa [needsBrackets, IsOpened] using fun _ => hhost
    rw [toList_join]
    simp only [hneeds, Numeral.write, String.toList_ofList]
    split <;> simp
  rw [← String.toList_inj, hjoin]
  rcases divides_iff_toList.1 (split_eq_ok_iff.1 h) with ⟨haddress, -⟩ | ⟨hopened, hcolon, haddress⟩
  · have hopened : IsOpened address := by simp [IsOpened, haddress]
    rw [haddress]
    by_cases hmem : ':' ∈ host.toList
    · simp [hmem]
    · -- without the brackets the address is shorter
      rw [if_neg hmem]
      refine iff_of_false (fun heq => ?_) (fun hneeds => hneeds ⟨hopened, hmem⟩)
      have hlength := congrArg List.length heq
      simp at hlength
      omega
  · have hmem : ':' ∉ host.toList := by
      rw [haddress, List.count_append, List.count_cons_self] at hcolon
      exact List.count_eq_zero.1 (by omega)
    rw [if_neg hmem]
    exact iff_of_true haddress.symm fun hboth => hopened hboth.1

/-- **Joining and splitting undo each other** for plain hosts, and for the addresses that have no
brackets without need. -/
theorem split_join_inverse :
    (∀ host port, split (join host port) = .ok (host, Numeral.write port) ↔
      ¬IsOpened host ∧ ¬(':' ∈ host.toList ∧ ']' ∈ host.toList)) ∧
    ∀ address host port, split address = .ok (host, Numeral.write port) → ¬IsOpened host →
      (join host port = address ↔ ¬(IsOpened address ∧ ':' ∉ host.toList)) :=
  ⟨fun _ _ => split_join_iff, fun _ _ _ => join_eq_iff⟩

/-- Brackets that are needed, and brackets that are not. -/
theorem split_join_inverse_brackets :
    split "[fd00::5]:80" = .ok ("fd00::5", Numeral.write 80) ∧
      join "fd00::5" 80 = "[fd00::5]:80" ∧
      split "[app]:80" = .ok ("app", Numeral.write 80) ∧ join "app" 80 ≠ "[app]:80" := by
  refine ⟨rfl, ?_, rfl, ?_⟩
  · exact (split_join_inverse.2 "[fd00::5]:80" "fd00::5" 80 rfl (by decide)).2 (by decide)
  · exact mt (split_join_inverse.2 "[app]:80" "app" 80 rfl (by decide)).1 (by decide)

end Address
end ProxyPlane
