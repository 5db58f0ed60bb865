import ProxyPlane.Address
import ProxyPlane.Proofs.Outcome
import ProxyPlane.Proofs.Text.Pieces

/-!
# Joined addresses

## What is here

* `toList_join`: a joined address ends with a colon and the numeral of its port.
* `splitChars_eq_ok`: which texts are split, and into what.
* `split_join`: a host that `IsPlain` is taken out of its address again.
* `isPlain_of_split` and `split_join_of_bracket`: a host that was taken out of an address can be put
  into one again unless it starts with a bracket.
* `port_ne_empty_of_split_join`: if a joined address is split at all, its port is not empty.
-/

set_option autoImplicit false
namespace ProxyPlane
namespace Address

/-- A joined address ends with a colon and the numeral of its port. -/
theorem toList_join (host : String) (port : Nat) :
    (join host port).toList =
      (if needsBrackets host then '[' :: host.toList ++ [']'] else host.toList) ++
        ':' :: Nat.toDigits 10 port := by
  rw [join]
  split <;> simp [String.toList_append, Numeral.write, toString]

theorem join_ne_empty (host : String) (port : Nat) : (join host port).isEmpty = false := by
  have hlist := toList_join host port
  rw [String.isEmpty_eq_false_iff]
  intro h
  rw [h] at hlist
  exact absurd hlist (by simp)

section Split

variable {address : String} {cs rest host port : List Char}

/-- A host in brackets ends at the first closing one. -/
theorem splitChars_bracket_eq_ok :
    splitChars address ('[' :: rest) = .ok (host, port) ↔
      rest = host ++ ']' :: ':' :: port ∧ ']' ∉ host := by
  rw [splitChars]
  cases hcut : cutFirst? ']' rest with
  | none =>
    refine iff_of_false nofun ?_
    rintro ⟨rfl, -⟩
    exact cutFirst?_eq_none.1 hcut (by simp)
  | some p =>
    obtain ⟨before, after⟩ := p
    obtain ⟨rfl, hbefore⟩ := cutFirst?_eq_some.1 hcut
    constructor
    · intro h
      split at h
      · cases h
      · rename_i heq
        obtain ⟨rfl, rfl⟩ := Prod.mk.inj (Option.some.inj heq)
        obtain ⟨rfl, rfl⟩ := Prod.mk.inj (Except.ok.inj h)
        exact ⟨rfl, hbefore⟩
      · cases h
    · rintro ⟨hrest, hhost⟩
      have hagain := cutFirst?_eq_some.2 ⟨hrest, hhost⟩
      rw [hcut] at hagain
      obtain ⟨rfl, rfl⟩ := Prod.mk.inj (Option.some.inj hagain)
      rfl

/-- Any other host has no colon. -/
theorem splitChars_plain_eq_ok (hhead : cs.head? ≠ some '[') :
    splitChars address cs = .ok (host, port) ↔
      cs = host ++ ':' :: port ∧ ':' ∉ host ∧ ':' ∉ port := by
  have hbracket : ∀ rest, cs ≠ '[' :: rest := by
    rintro rest rfl
    exact hhead rfl
  rw [splitChars.eq_2 address cs hbracket]
  cases hcut : cutLast? ':' cs with
  | none =>
    refine iff_of_false nofun ?_
    rintro ⟨rfl, -⟩
    exact cutLast?_eq_none.1 hcut (by simp)
  | some p =>
    obtain ⟨before, after⟩ := p
    obtain ⟨rfl, hafter⟩ := cutLast?_eq_some.1 hcut
    simp only
    constructor
    · intro h
      split at h
      · cases h
      · rename_i hcolon
        obtain ⟨rfl, rfl⟩ := Prod.mk.inj (Except.ok.inj h)
        exact ⟨rfl, by simpa using hcolon, hafter⟩
    · rintro ⟨heq, hhost, hport⟩
      have hagain := cutLast?_eq_some.2 ⟨heq, hport⟩
      rw [hcut] at hagain
      obtain ⟨rfl, rfl⟩ := Prod.mk.inj (Option.some.inj hagain)
      rw [if_neg (by simpa using hhost)]

/-- **Which texts are split, and into what.** -/
theorem splitChars_eq_ok :
    splitChars address cs = .ok (host, port) ↔
      (cs = '[' :: (host ++ ']' :: ':' :: port) ∧ ']' ∉ host) ∨
        (cs.head? ≠ some '[' ∧ cs = host ++ ':' :: port ∧ ':' ∉ host ∧ ':' ∉ port) := by
  by_cases hhead : cs.head? = some '['
  · obtain ⟨rest, rfl⟩ := List.head?_eq_some_iff.1 hhead
    rw [splitChars_bracket_eq_ok, List.cons.injEq, or_iff_left fun h => h.1 hhead]
    exact and_congr_left' (and_iff_right rfl).symm
  · rw [splitChars_plain_eq_ok hhead, and_iff_right hhead, or_iff_right]
    rintro ⟨rfl, -⟩
    exact hhead rfl

end Split

/-- The host is taken out of an address as it was put in: it does not start with a bracket, and
holds no closing one if it is put into brackets for its colons. -/
def IsPlain (host : String) : Prop :=
  host.toList.head? ≠ some '[' ∧ ¬(':' ∈ host.toList ∧ ']' ∈ host.toList)

instance (host : String) : Decidable (IsPlain host) := inferInstanceAs (Decidable (_ ∧ ¬_))

theorem colon_not_mem_toDigits (port : Nat) : ':' ∉ Nat.toDigits 10 port := by
  intro h
  exact absurd (Nat.isDigit_of_mem_toDigits (by decide) (by decide) h) (by decide)

/-- **A joined address is split into the host and the numeral of the port.** -/
theorem split_join {host : String} (h : IsPlain host) (port : Nat) :
    split (join host port) = .ok (host, Numeral.write port) := by
  obtain ⟨hhead, hchars⟩ := h
  have hsplit : splitChars (join host port) (join host port).toList =
      .ok (host.toList, Nat.toDigits 10 port) := by
    rw [splitChars_eq_ok, toList_join]
    by_cases hcolon : ':' ∈ host.toList
    · have hbrackets : needsBrackets host = true := by
        rw [needsBrackets, Bool.and_eq_true, List.contains_iff_mem, bne_iff_ne]
        exact ⟨hcolon, hhead⟩
      rw [if_pos hbrackets]
      exact .inl ⟨by simp, fun hclose => hchars ⟨hcolon, hclose⟩⟩
    · have hbrackets : ¬needsBrackets host = true := by
        rw [needsBrackets, Bool.and_eq_true, List.contains_iff_mem]
        exact fun h => hcolon h.1
      rw [if_neg hbrackets]
      refine .inr ⟨?_, rfl, hcolon, colon_not_mem_toDigits port⟩
      cases hlist : host.toList with
      | nil => exact fun h => absurd (Option.some.inj h) (by decide)
      | cons c cs => rwa [hlist] at hhead
  rw [split, hsplit]
  simp [Except.map, Numeral.write]

section Again

variable {address host port : String}

/-- A host that was taken out of an address starts with a bracket, or is taken out again. -/
theorem isPlain_of_split (h : split address = .ok (host, port))
    (hhead : host.toList.head? ≠ some '[') : IsPlain host := by
  obtain ⟨⟨hs, ps⟩, hsplit, heq⟩ := map_eq_ok.1 h
  obtain ⟨rfl, -⟩ := Prod.mk.inj heq
  refine ⟨hhead, ?_⟩
  rw [String.toList_ofList]
  rcases splitChars_eq_ok.1 hsplit with ⟨-, hclose⟩ | ⟨-, -, hcolon, -⟩
  · exact fun hboth => hclose hboth.2
  · exact fun hboth => hcolon hboth.1

/-- Of a host that was taken out of an address and starts with a bracket, no address can be made:
the bracket stays open. -/
theorem split_join_of_bracket (h : split address = .ok (host, port))
    (hhead : host.toList.head? = some '[') (n : Nat) (r : String × String) :
    split (join host n) ≠ .ok r := by
  obtain ⟨⟨hs, ps⟩, hsplit, heq⟩ := map_eq_ok.1 h
  obtain ⟨rfl, -⟩ := Prod.mk.inj heq
  rw [String.toList_ofList] at hhead
  -- the host was written in brackets, and ends before the first closing one
  have hclose : ']' ∉ hs := by
    rcases splitChars_eq_ok.1 hsplit with ⟨-, hclose⟩ | ⟨hplain, haddress, -, -⟩
    · exact hclose
    · rw [haddress, List.head?_append, hhead] at hplain
      exact absurd rfl hplain
  have hbrackets : ¬needsBrackets (String.ofList hs) = true := by
    rw [needsBrackets, String.toList_ofList, hhead]
    simp
  have hjoined : (join (String.ofList hs) n).toList = hs ++ ':' :: Nat.toDigits 10 n := by
    rw [toList_join, if_neg hbrackets, String.toList_ofList]
  intro hr
  obtain ⟨⟨hs', ps'⟩, hagain, -⟩ := map_eq_ok.1 hr
  rw [hjoined] at hagain
  rcases splitChars_eq_ok.1 hagain with ⟨haddress, -⟩ | ⟨hplain, -, -, -⟩
  · have hmem : ']' ∈ hs ++ ':' :: Nat.toDigits 10 n := by
      rw [haddress]
      simp
    rcases List.mem_append.1 hmem with hmem | hmem
    · exact hclose hmem
    · rcases List.mem_cons.1 hmem with hmem | hmem
      · exact absurd hmem (by decide)
      · exact absurd (Nat.isDigit_of_mem_toDigits (by decide) (by decide) hmem) (by decide)
  · rw [List.head?_append, hhead] at hplain
    exact absurd rfl hplain

end Again

/-- **If a joined address is split at all, its port is not empty**: the last character of the
address is a digit. -/
theorem port_ne_empty_of_split_join {host : String} {port : Nat} {r : String × String}
    (h : split (join host port) = .ok r) : r.2.isEmpty = false := by
  obtain ⟨⟨h', p'⟩, hsplit, rfl⟩ := map_eq_ok.1 h
  rw [String.isEmpty_eq_false_iff]
  intro hempty
  obtain rfl : p' = [] := by simpa using congrArg String.toList hempty
  have hlast : (join host port).toList.getLast? = some ':' := by
    rcases splitChars_eq_ok.1 hsplit with ⟨heq, -⟩ | ⟨-, heq, -, -⟩
    · rw [heq]
      simp [List.getLast?_cons, List.getLast?_append]
    · rw [heq]
      simp
  rw [toList_join, List.getLast?_append, List.getLast?_cons,
    List.getLast?_eq_some_getLast Nat.toDigits_ne_nil, Option.getD_some, Option.some_or,
    Option.some.injEq] at hlast
  have hdigit : (':').isDigit = true := by
    rw [← hlast]
    exact Nat.isDigit_of_mem_toDigits (by decide) (by decide) (List.getLast_mem _)
  exact absurd hdigit (by decide)

end Address
end ProxyPlane
