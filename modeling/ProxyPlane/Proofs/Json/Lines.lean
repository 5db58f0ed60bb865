import ProxyPlane.Proofs.Json.RoundTrip

/-!
# One value a line

The compact text of a value is a text without control characters, whatever the strings in it: it
takes a single line, and no character of a string can end that line.

## What is here

* `Utf8.encode_eq_flatMap`: a text is encoded character by character.
* `IsLine`, texts without control characters, as bytes; `isLine_quote` for strings and
  `isLine_compact` for values.
-/

set_option autoImplicit false
namespace ProxyPlane

theorem Utf8.encode_eq_flatMap (s : String) :
    Utf8.encode s = s.toList.flatMap String.utf8EncodeChar := by
  obtain ⟨cs, rfl⟩ : ∃ cs, s = String.ofList cs := ⟨s.toList, (String.ofList_toList).symm⟩
  rw [encode, String.toByteArray_ofList, String.toList_ofList, List.utf8Encode]
  simp

namespace Json

/-- A text without control characters, as bytes. -/
structure IsLine (bs : Bytes) : Prop where
  text : ∃ cs : List Char, bs = cs.flatMap String.utf8EncodeChar
  plain : ∀ b ∈ bs, 0x20 ≤ b

theorem isLine_nil : IsLine [] := ⟨⟨[], rfl⟩, nofun⟩

theorem IsLine.append {bs cs : Bytes} (hb : IsLine bs) (hc : IsLine cs) : IsLine (bs ++ cs) := by
  obtain ⟨xs, rfl⟩ := hb.text
  obtain ⟨ys, rfl⟩ := hc.text
  refine ⟨⟨xs ++ ys, List.flatMap_append.symm⟩, fun b h => ?_⟩
  exact (List.mem_append.1 h).elim (hb.plain b) (hc.plain b)

theorem isLine_flatMap {α : Type} {f : α → Bytes} {xs : List α} (h : ∀ x ∈ xs, IsLine (f x)) :
    IsLine (xs.flatMap f) := by
  induction xs with
  | nil => exact isLine_nil
  | cons x xs ih =>
    obtain ⟨hx, hxs⟩ := List.forall_mem_cons.1 h
    exact hx.append (ih hxs)

/-- A character of ASCII that is no control character. -/
theorem isLine_singleton {b : UInt8} (hlow : 0x20 ≤ b) (hhigh : b < 0x80) : IsLine [b] := by
  have hcode : b.toNat < 128 := by simpa using UInt8.lt_iff_toNat_lt.1 hhigh
  have hvalid : b.toNat.isValidChar := .inl (by omega)
  refine ⟨⟨[Char.ofNat b.toNat], ?_⟩, by simpa using hlow⟩
  have hvalue : (Char.ofNat b.toNat).val.toNat = b.toNat := by
    rw [Char.ofNat, dif_pos hvalid]
    rfl
  simp only [List.flatMap_cons, List.flatMap_nil, String.utf8EncodeChar, hvalue]
  rw [if_pos (by omega), UInt8.ofNat_toNat, List.append_nil]

theorem IsLine.cons {b : UInt8} {bs : Bytes} (h : IsLine bs) (hlow : 0x20 ≤ b) (hhigh : b < 0x80) :
    IsLine (b :: bs) :=
  (isLine_singleton hlow hhigh).append h

theorem isLine_ascii {bs : Bytes} (h : ∀ b ∈ bs, 0x20 ≤ b ∧ b < 0x80) : IsLine bs := by
  induction bs with
  | nil => exact isLine_nil
  | cons b bs ih =>
    obtain ⟨hb, hbs⟩ := List.forall_mem_cons.1 h
    exact (ih hbs).cons hb.1 hb.2

/-! ## Strings -/

theorem isLine_escape {b : UInt8} (h : b < 0x80) : IsLine (escape b) := by
  have hall : ∀ n : Fin 128, ∀ x ∈ escape (UInt8.ofNat n), 0x20 ≤ x ∧ x < 0x80 := by
    decide +kernel
  have hcode : b.toNat < 128 := by simpa using UInt8.lt_iff_toNat_lt.1 h
  have hb := hall ⟨b.toNat, hcode⟩
  simp only [UInt8.ofNat_toNat] at hb
  exact isLine_ascii hb

/-- Above ASCII nothing is escaped. -/
theorem flatMap_escape {bs : Bytes} (h : ∀ b ∈ bs, 0x80 ≤ b) : bs.flatMap escape = bs := by
  have hall : ∀ n : Fin 128, escape (UInt8.ofNat (128 + n)) = [UInt8.ofNat (128 + n)] := by decide
  induction bs with
  | nil => rfl
  | cons b bs ih =>
    obtain ⟨hb, hbs⟩ := List.forall_mem_cons.1 h
    have hcode : 128 ≤ b.toNat := by simpa using UInt8.le_iff_toNat_le.1 hb
    have hescape := hall ⟨b.toNat - 128, by have := b.toNat_lt; omega⟩
    rw [show 128 + (b.toNat - 128) = b.toNat by omega, UInt8.ofNat_toNat] at hescape
    rw [List.flatMap_cons, hescape, ih hbs]
    rfl

/-- A character is one byte of ASCII, or all of its bytes are above ASCII. -/
theorem utf8EncodeChar_cases (c : Char) :
    (∃ b, b < 0x80 ∧ String.utf8EncodeChar c = [b]) ∨ ∀ b ∈ String.utf8EncodeChar c, 0x80 ≤ b := by
  have hhigh : ∀ n, 128 ≤ n → n < 256 → 0x80 ≤ UInt8.ofNat n := by
    intro n hlow hsmall
    rw [UInt8.le_iff_toNat_le]
    simp
    omega
  simp only [String.utf8EncodeChar]
  split
  · rename_i hcode
    refine .inl ⟨UInt8.ofNat c.val.toNat, ?_, rfl⟩
    rw [UInt8.lt_iff_toNat_lt, UInt8.toNat_ofNat_of_lt' (Nat.lt_of_le_of_lt hcode (by decide))]
    exact Nat.lt_succ_of_le hcode
  · right
    split
    · simp only [List.forall_mem_cons]
      exact ⟨hhigh _ (by omega) (by omega), hhigh _ (by omega) (by omega), nofun⟩
    · split
      · simp only [List.forall_mem_cons]
        exact ⟨hhigh _ (by omega) (by omega), hhigh _ (by omega) (by omega),
          hhigh _ (by omega) (by omega), nofun⟩
      · simp only [List.forall_mem_cons]
        exact ⟨hhigh _ (by omega) (by omega), hhigh _ (by omega) (by omega),
          hhigh _ (by omega) (by omega), hhigh _ (by omega) (by omega), nofun⟩

/-- **A string in quotation marks is one line**: line breaks and the like are escaped. -/
theorem isLine_quote (s : String) : IsLine (quote s) := by
  refine IsLine.cons (IsLine.append ?_ (isLine_singleton (by decide) (by decide))) (by decide)
    (by decide)
  rw [Utf8.encode_eq_flatMap, List.flatMap_assoc]
  refine isLine_flatMap fun c _ => ?_
  rcases utf8EncodeChar_cases c with ⟨b, hb, hc⟩ | hhigh
  · rw [hc, List.flatMap_singleton]
    exact isLine_escape hb
  · have hsame := flatMap_escape hhigh
    refine ⟨⟨[c], by simp [hsame]⟩, fun b hb => ?_⟩
    rw [hsame] at hb
    exact UInt8.le_trans (by decide) (hhigh b hb)

/-! ## Values -/

theorem isLine_toDigits (n : Nat) : IsLine (ascii (Nat.toDigits 10 n)) := by
  refine isLine_ascii fun b hb => ?_
  obtain ⟨c, hc, rfl⟩ := List.mem_map.1 hb
  obtain ⟨hbyte, hlow, hhigh⟩ :=
    toNat_toUInt8_of_isDigit (Nat.isDigit_of_mem_toDigits (by decide) (by decide) hc)
  rw [UInt8.le_iff_toNat_le, UInt8.lt_iff_toNat_lt, hbyte]
  exact ⟨Nat.le_trans (by decide) hlow, Nat.lt_of_le_of_lt hhigh (by decide)⟩

theorem isLine_joinedTail {close : UInt8} (hlow : 0x20 ≤ close) (hhigh : close < 0x80)
    {ts : List Bytes} (h : ∀ t ∈ ts, IsLine t) : IsLine (joinedTail [] [] close ts) := by
  induction ts with
  | nil => exact isLine_singleton hlow hhigh
  | cons t ts ih =>
    obtain ⟨ht, hts⟩ := List.forall_mem_cons.1 h
    simp only [joinedTail, List.nil_append]
    exact (ht.append (ih hts)).cons (by decide) (by decide)

theorem isLine_memberText (key : String) {text : Bytes} (h : IsLine text) :
    IsLine (memberText key text) :=
  (isLine_quote key).append (h.cons (by decide) (by decide))

/-- The members of an object are one line if their values are. -/
theorem isLine_compactMembers {members : List (String × Json)}
    (h : ∀ e ∈ members, IsLine e.2.compact) : IsLine (compactMembers members) := by
  cases members with
  | nil => exact isLine_ascii (by decide +kernel)
  | cons e es =>
    obtain ⟨he, hes⟩ := List.forall_mem_cons.1 h
    rw [compactMembers_cons]
    refine (isLine_memberText e.1 he).append (isLine_joinedTail (by decide) (by decide) ?_)
    intro t ht
    obtain ⟨f, hf, rfl⟩ := List.mem_map.1 ht
    exact isLine_memberText f.1 (hes f hf)

/-- **The compact text of a value is one line.** -/
theorem isLine_compact {d : Nat} {v : Json} (h : Fits d v) : IsLine v.compact := by
  induction h with
  | null => exact isLine_ascii (by decide +kernel)
  | bool b => cases b <;> exact isLine_ascii (by decide +kernel)
  | @int _ i _ =>
    rw [compact, scalarText, Number.text, Number.chars]
    · split
      · exact (isLine_toDigits _).cons (by decide) (by decide)
      · exact isLine_toDigits _
    all_goals intro _ h; cases h
  | string s => exact isLine_quote s
  | @array d items _ ih =>
    cases items with
    | nil => exact isLine_ascii (by decide +kernel)
    | cons v vs =>
      obtain ⟨hv, hvs⟩ := List.forall_mem_cons.1 ih
      have htail : IsLine (joinedTail [] [] 0x5D (vs.map compact)) :=
        isLine_joinedTail (by decide) (by decide) (by simpa using hvs)
      rw [compact, compactItems_cons]
      exact (hv.append htail).cons (by decide) (by decide)
  | object _ ih => exact (isLine_compactMembers ih).cons (by decide) (by decide)

end Json
end ProxyPlane
