import ProxyPlane.Json.Printer
import ProxyPlane.Json.Scan

/-!
# Scanning written strings and numbers

A written string or integer is scanned back, whatever text follows it, as long as a number is not
followed by something that would go on with it.

## What is here

* `scanText_quote`: strings, for any text.
* `scanKey_quote`: the key of a member with its colon.
* `scanNumber_toDigits`: integers of at most 64 bits.
-/

set_option autoImplicit false
namespace ProxyPlane
namespace Json

/-! ## Strings -/

/-- The escape of a control character writes its code and nothing else. -/
theorem hex4?_escape {b : UInt8} (h : b < 0x20) :
    hex4? 0x30 0x30 (hexDigit (b / 16)) (hexDigit (b % 16)) = some b.toNat := by
  have hall : ∀ n : Fin 32, hex4? 0x30 0x30 (hexDigit (UInt8.ofNat n / 16))
      (hexDigit (UInt8.ofNat n % 16)) = some n.val := by decide
  have hb : b.toNat < 32 := h
  simpa using hall ⟨b.toNat, hb⟩

theorem codeBytes_of_lt {b : UInt8} (h : b < 0x20) : codeBytes b.toNat = [b] := by
  have hall : ∀ n : Fin 32, codeBytes n.val = [UInt8.ofNat n] := by decide
  have hb : b.toNat < 32 := h
  simpa using hall ⟨b.toNat, hb⟩

theorem scanString_closed (rest : Bytes) :
    scanString none (0x22 :: rest) = .closed (some []) rest := by
  rw [scanString.eq_def]
  simp

theorem scanString_plain {b : UInt8} (hquote : b ≠ 0x22) (hslash : b ≠ 0x5C) (hplain : ¬ b < 0x20)
    (rest : Bytes) : scanString none (b :: rest) = (scanString none rest).put [b] := by
  rw [scanString.eq_def]
  simp [hquote, hslash, hplain]

theorem scanString_letter {e b : UInt8} (he : e ≠ 0x75) (hb : unescape? e = some b)
    (rest : Bytes) : scanString none (0x5C :: e :: rest) = (scanString none rest).put [b] := by
  rw [scanString.eq_def]
  simp [he, hb]

theorem scanString_control {b : UInt8} (h : b < 0x20) (rest : Bytes) :
    scanString none ([0x5C, 0x75, 0x30, 0x30, hexDigit (b / 16), hexDigit (b % 16)] ++ rest) =
      (scanString none rest).put [b] := by
  have hn : b.toNat < 32 := h
  simp only [List.cons_append, List.nil_append]
  rw [scanString.eq_def]
  have hlow : ¬ (0xDC00 ≤ b.toNat ∧ b.toNat ≤ 0xDFFF) := by omega
  have hhigh : ¬ (0xD800 ≤ b.toNat ∧ b.toNat ≤ 0xDBFF) := by omega
  simp [hex4?_escape h, codeBytes_of_lt h, hlow, hhigh]

/-- An escaped byte is scanned as that byte. -/
theorem scanString_escape (b : UInt8) (rest : Bytes) :
    scanString none (escape b ++ rest) = (scanString none rest).put [b] := by
  rw [escape]
  -- the seven letters, then the codes, and all else as it is
  iterate 7
    split
    · rename_i h; subst h; exact scanString_letter (by decide) rfl rest
  split
  · rename_i h; exact scanString_control h rest
  · rename_i hquote hslash _ _ _ _ _ hplain
    exact scanString_plain hquote hslash hplain rest

theorem scanString_flatMap_escape (bs rest : Bytes) :
    scanString none (bs.flatMap escape ++ 0x22 :: rest) = .closed (some bs) rest := by
  induction bs with
  | nil => exact scanString_closed rest
  | cons b bs ih =>
    rw [List.flatMap_cons, List.append_assoc, scanString_escape, ih]
    rfl

/-- **A written string is scanned back.** -/
theorem scanText_quote (s : String) (rest : Bytes) :
    scanText ((Utf8.encode s).flatMap escape ++ 0x22 :: rest) = (.ok s, .ok rest) := by
  rw [scanText, scanString_flatMap_escape]
  simp

theorem quote_append (s : String) (rest : Bytes) :
    quote s ++ rest = 0x22 :: ((Utf8.encode s).flatMap escape ++ 0x22 :: rest) := by
  simp [quote]

/-- A written key with its colon is scanned back. -/
theorem scanKey_quote (s : String) (rest : Bytes) :
    scanKey 0x22 ((Utf8.encode s).flatMap escape ++ 0x22 :: 0x3A :: rest) = (.ok s, .ok rest) := by
  rw [scanKey, if_pos rfl, scanText_quote]
  simp [skipSpace, isSpace]

/-! ## Numbers -/

/-- What may follow a number: nothing that would go on with it. -/
def EndsNumber (rest : Bytes) : Prop :=
  ∀ b ∈ rest.head?, isDigit b = false ∧ b ≠ 0x2E ∧ b ≠ 0x65 ∧ b ≠ 0x45

/-- The values of the digits of a number. -/
def digitsOf (n : Nat) : List Nat := (Nat.toDigits 10 n).map fun c => c.toNat - 48

/-- The number that digits write behind those of another. -/
def pushDigits (acc : Nat) (ds : List Nat) : Nat := ds.foldl (fun a d => a * 10 + d) acc

theorem digitsOf_of_lt {n : Nat} (h : n < 10) : digitsOf n = [n] := by
  have hall : ∀ n : Fin 10, digitsOf n.val = [n.val] := by decide
  exact hall ⟨n, h⟩

theorem digitsOf_of_le {n : Nat} (h : 10 ≤ n) : digitsOf n = digitsOf (n / 10) ++ [n % 10] := by
  have hd := digitsOf_of_lt (n := n % 10) (by omega)
  rw [digitsOf, Nat.toDigits_of_lt_base (by omega)] at hd
  rw [digitsOf, Nat.toDigits_of_base_le (by omega) h, List.map_append, hd]
  rfl

theorem pushDigits_digitsOf (n : Nat) : pushDigits 0 (digitsOf n) = n := by
  induction n using Nat.strongRecOn with
  | ind n ih =>
    rcases Nat.lt_or_ge n 10 with h | h
    · rw [digitsOf_of_lt h]
      simp [pushDigits]
    · have hpush := ih (n / 10) (by omega)
      rw [pushDigits] at hpush
      rw [digitsOf_of_le h, pushDigits, List.foldl_append, hpush]
      simp only [List.foldl_cons, List.foldl_nil]
      omega

/-- No digit but a lone one is zero at the start. -/
theorem digitsOf_head (n : Nat) :
    ∃ d ds, digitsOf n = d :: ds ∧ (d = 0 → ds = []) := by
  induction n using Nat.strongRecOn with
  | ind n ih =>
    rcases Nat.lt_or_ge n 10 with h | h
    · exact ⟨n, [], digitsOf_of_lt h, fun _ => rfl⟩
    · obtain ⟨d, ds, hds, hzero⟩ := ih (n / 10) (by omega)
      refine ⟨d, ds ++ [n % 10], by rw [digitsOf_of_le h, hds]; rfl, fun hd => ?_⟩
      -- a number whose first digit is zero is zero
      have hpush := pushDigits_digitsOf (n / 10)
      rw [hds, hd, hzero hd] at hpush
      simp only [pushDigits, List.foldl_cons, List.foldl_nil] at hpush
      omega

theorem le_pushDigits (acc : Nat) (ds : List Nat) : acc ≤ pushDigits acc ds := by
  induction ds generalizing acc with
  | nil => exact Nat.le_refl acc
  | cons d ds ih =>
    have h : acc * 10 + d ≤ pushDigits (acc * 10 + d) ds := ih _
    show acc ≤ pushDigits (acc * 10 + d) ds
    omega

/-- Digits of a number of at most 64 bits are read without rounding. -/
theorem takeWhole_of_lt {acc : Nat} {ds : List Nat} (h : pushDigits acc ds < Nat.pow 2 64) :
    takeWhole acc ds = ⟨pushDigits acc ds, 0⟩ := by
  induction ds generalizing acc with
  | nil => rfl
  | cons d ds ih =>
    have hnext : pushDigits acc (d :: ds) = pushDigits (acc * 10 + d) ds := rfl
    have hle := le_pushDigits (acc * 10 + d) ds
    rw [takeWhole, if_pos (by omega), ih (by omega), hnext]

theorem takeDigits_of_endsNumber {rest : Bytes} (h : EndsNumber rest) :
    takeDigits rest = ([], rest) := by
  cases rest with
  | nil => rfl
  | cons b rest => rw [takeDigits, if_neg (by simp [(h b rfl).1])]

theorem toNat_toUInt8_of_isDigit {c : Char} (h : c.isDigit = true) :
    c.toNat.toUInt8.toNat = c.toNat ∧ 48 ≤ c.toNat ∧ c.toNat ≤ 57 := by
  simp only [Char.isDigit, Bool.and_eq_true, decide_eq_true_eq] at h
  have h1 : 48 ≤ c.toNat := h.1
  have h2 : c.toNat ≤ 57 := h.2
  refine ⟨?_, h1, h2⟩
  simp only [Nat.toUInt8, UInt8.toNat_ofNat']
  omega

theorem isDigit_toUInt8 {c : Char} (h : c.isDigit = true) : isDigit c.toNat.toUInt8 = true := by
  obtain ⟨hbyte, hrange⟩ := toNat_toUInt8_of_isDigit h
  simp only [isDigit, Bool.and_eq_true, decide_eq_true_eq, UInt8.le_iff_toNat_le, hbyte]
  exact hrange

/-- The bytes of digits are taken as the values of these digits. -/
theorem takeDigits_ascii (cs : List Char) (hcs : ∀ c ∈ cs, c.isDigit = true) {rest : Bytes}
    (h : EndsNumber rest) :
    takeDigits (ascii cs ++ rest) = (cs.map fun c => c.toNat - 48, rest) := by
  induction cs with
  | nil => exact takeDigits_of_endsNumber h
  | cons c cs ih =>
    have hc := hcs c List.mem_cons_self
    have hrest := ih fun x hx => hcs x (List.mem_cons_of_mem _ hx)
    show takeDigits (c.toNat.toUInt8 :: (ascii cs ++ rest)) = _
    rw [takeDigits, if_pos (isDigit_toUInt8 hc), hrest, (toNat_toUInt8_of_isDigit hc).1]
    rfl

/-- **A written natural number is scanned back**, with a sign in front or not. -/
theorem scanNumber_toDigits (negative : Bool) {n : Nat} (hn : n < Nat.pow 2 64) {rest : Bytes}
    (h : EndsNumber rest) :
    scanNumber negative (ascii (Nat.toDigits 10 n) ++ rest) =
      (.number (wholeNumber negative ⟨n, 0⟩), .ok rest) := by
  obtain ⟨d, ds, hds, hzero⟩ := digitsOf_head n
  have hvalue : takeWhole 0 (d :: ds) = ⟨n, 0⟩ := by
    have hpush := pushDigits_digitsOf n
    rw [hds] at hpush
    rw [takeWhole_of_lt (by omega), hpush]
  have htake := takeDigits_ascii (Nat.toDigits 10 n)
    (fun c hc => Nat.isDigit_of_mem_toDigits (by decide) (by decide) hc) h
  rw [show (Nat.toDigits 10 n).map (fun c => c.toNat - 48) = d :: ds from hds] at htake
  have hend : scanFraction ⟨negative, d :: ds, none, none⟩ rest =
      (.number (wholeNumber negative ⟨n, 0⟩), .ok rest) := by
    cases rest with
    | nil => simp [scanFraction, scanExponent, Numeral.value, hvalue]
    | cons b rest =>
      obtain ⟨_, hpoint, he, hE⟩ := h b rfl
      simp [scanFraction, scanExponent, Numeral.value, hvalue, hpoint, he, hE]
  rw [scanNumber, htake]
  simp only
  split
  · rename_i heq; exact absurd heq (by simp)
  · rename_i heq
    obtain ⟨rfl, rfl⟩ := List.cons.inj heq
    exact absurd (hzero rfl) (by simp)
  · exact hend

end Json
end ProxyPlane
