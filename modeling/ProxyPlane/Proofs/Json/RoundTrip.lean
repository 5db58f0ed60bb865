import ProxyPlane.Proofs.Json.Text

/-!
# Scanning written values

A value is scanned back from either of its two layouts.  The layouts differ only in the blanks
between their parts, so arrays and objects are treated once for all of them.

## What is here

* `Fits d v`: the value nests arrays and objects at most `d` deep, and its numbers are integers of
  at most 64 bits.
* `joinedTail`, what follows the first element of a list in brackets, for any blanks.
* `scanValue_prettyAt` and `scanValue_compact`: a value that fits is scanned back.
* `scan_pretty` and `scan_compact`, the same for whole texts.
-/

set_option autoImplicit false
namespace ProxyPlane
namespace Json

/-! ## Values that are written exactly -/

/-- The value nests arrays and objects at most `d` deep, and its numbers are integers of at most 64
bits.  Such a value is scanned back from its text. -/
inductive Fits : Nat → Json → Prop
  | null {d : Nat} : Fits d .null
  | bool {d : Nat} (b : Bool) : Fits d (.bool b)
  | int {d : Nat} {i : Int} (h : -(Nat.pow 2 63 : Nat) ≤ i ∧ i < (Nat.pow 2 64 : Nat)) :
      Fits d (.number (.int i))
  | string {d : Nat} (s : String) : Fits d (.string s)
  | array {d : Nat} {items : List Json} (h : ∀ v ∈ items, Fits d v) : Fits (d + 1) (.array items)
  | object {d : Nat} {members : List (String × Json)} (h : ∀ e ∈ members, Fits d e.2) :
      Fits (d + 1) (.object members)

theorem Fits.mono {d d' : Nat} {v : Json} (h : Fits d v) (hd : d ≤ d') : Fits d' v := by
  induction h generalizing d' with
  | null => exact .null
  | bool b => exact .bool b
  | int h => exact .int h
  | string s => exact .string s
  | array _ ih =>
    obtain ⟨k, rfl⟩ : ∃ k, d' = k + 1 := ⟨d' - 1, by omega⟩
    exact .array fun v hv => ih v hv (by omega)
  | object _ ih =>
    obtain ⟨k, rfl⟩ : ∃ k, d' = k + 1 := ⟨d' - 1, by omega⟩
    exact .object fun e he => ih e he (by omega)

/-! ## Blanks -/

theorem skipSpace_append {gap : Bytes} (hgap : ∀ b ∈ gap, isSpace b = true) (bs : Bytes) :
    skipSpace (gap ++ bs) = skipSpace bs := by
  induction gap with
  | nil => rfl
  | cons b gap ih =>
    rw [List.cons_append, skipSpace, if_pos (hgap b List.mem_cons_self),
      ih fun x hx => hgap x (List.mem_cons_of_mem _ hx)]

theorem isSpace_of_mem_newline {level : Nat} {b : UInt8} (h : b ∈ newline level) :
    isSpace b = true := by
  rcases List.mem_cons.1 h with rfl | h
  · rfl
  · rw [List.eq_of_mem_replicate h]; rfl

/-- Values are scanned from their first byte that is no blank. -/
theorem scanValue_append {gap : Bytes} (hgap : ∀ b ∈ gap, isSpace b = true) (depth : Nat)
    (bs : Bytes) : scanValue depth (gap ++ bs) = scanValue depth bs := by
  rw [scanValue.eq_def, scanValue.eq_def depth bs]
  simp only [skipSpace_append hgap]

theorem endsNumber_cons {b : UInt8} (h : isDigit b = false ∧ b ≠ 0x2E ∧ b ≠ 0x65 ∧ b ≠ 0x45)
    (rest : Bytes) : EndsNumber (b :: rest) := by
  intro x hx
  obtain rfl : b = x := by simpa using hx
  exact h

theorem endsNumber_of_isSpace {b : UInt8} (h : isSpace b = true) (rest : Bytes) :
    EndsNumber (b :: rest) := by
  refine endsNumber_cons ?_ rest
  simp only [isSpace, Bool.or_eq_true, beq_iff_eq] at h
  rcases h with ((rfl | rfl) | rfl) | rfl <;> decide

/-! ## Lists in brackets -/

/-- The text scans as the tree, in front of anything that does not go on with a number. -/
def ScansAs (scanner : Bytes → Scanned Scan) (text : Bytes) (tree : Scan) : Prop :=
  ∀ rest, EndsNumber rest → scanner (text ++ rest) = (tree, .ok rest)

/-- What follows the first element of a list up to its closing bracket: `gap` stands before every
element and `last` before the bracket. -/
def joinedTail (gap last : Bytes) (close : UInt8) : List Bytes → Bytes
  | [] => last ++ [close]
  | t :: ts => 0x2C :: (gap ++ t ++ joinedTail gap last close ts)

/-- The texts of elements start with something that is neither blank nor a bracket that closes. -/
def StartsItem (text : Bytes) : Prop :=
  ∃ b rest, text = b :: rest ∧ isSpace b = false ∧ b ≠ 0x5D ∧ b ≠ 0x7D

theorem StartsItem.skipSpace {text : Bytes} (h : StartsItem text) (rest : Bytes) :
    skipSpace (text ++ rest) = text ++ rest := by
  obtain ⟨b, bs, rfl, hb, _⟩ := h
  rw [List.cons_append, Json.skipSpace, if_neg (by simp [hb])]

section Joined

variable {gap last : Bytes} {close : UInt8}

theorem endsNumber_joinedTail (gap : Bytes) (hlast : ∀ b ∈ last, isSpace b = true)
    (hclose : close = 0x5D ∨ close = 0x7D) (ts : List Bytes) (rest : Bytes) :
    EndsNumber (joinedTail gap last close ts ++ rest) := by
  cases ts with
  | nil =>
    cases last with
    | nil => rcases hclose with rfl | rfl <;> exact endsNumber_cons (by decide) rest
    | cons b last => exact endsNumber_of_isSpace (hlast b List.mem_cons_self) _
  | cons t ts => exact endsNumber_cons (by decide) _

/-- Behind the last element stands the bracket. -/
theorem skipSpace_joinedTail_nil (hlast : ∀ b ∈ last, isSpace b = true)
    (hclose : close = 0x5D ∨ close = 0x7D) (rest : Bytes) :
    skipSpace (joinedTail gap last close [] ++ rest) = close :: rest := by
  rw [joinedTail, List.append_assoc, skipSpace_append hlast]
  rcases hclose with rfl | rfl <;> rfl

/-- Behind any other element stands a comma, and behind that the next element. -/
theorem skipSpace_joinedTail_cons (t : Bytes) (ts : List Bytes) (rest : Bytes) :
    skipSpace (joinedTail gap last close (t :: ts) ++ rest) =
      0x2C :: (gap ++ (t ++ (joinedTail gap last close ts ++ rest))) := by
  simp [joinedTail, skipSpace, isSpace]

theorem length_le_joinedTail (gap last : Bytes) (close : UInt8) (ts : List Bytes) :
    ts.length ≤ (joinedTail gap last close ts).length := by
  induction ts with
  | nil => exact Nat.zero_le _
  | cons t ts ih =>
    simp only [joinedTail, List.length_cons, List.length_append]
    omega

/-- The elements of an array are scanned one after the other. -/
theorem scanItems_joinedTail {element : Bytes → Scanned Scan}
    (hgap : ∀ b ∈ gap, isSpace b = true) (hlast : ∀ b ∈ last, isSpace b = true)
    {t : Bytes} {tree : Scan} {ts : List (Bytes × Scan)}
    (hitems : ∀ p ∈ (t, tree) :: ts, StartsItem p.1 ∧ ScansAs element p.1 p.2)
    (fuel : Nat) (hfuel : ts.length < fuel) (rest : Bytes) :
    scanItems element fuel (t ++ (joinedTail gap last 0x5D (ts.map (·.1)) ++ rest)) =
      (tree :: ts.map (·.2), none, .ok rest) := by
  induction ts generalizing t tree fuel with
  | nil =>
    obtain ⟨fuel, rfl⟩ : ∃ k, fuel = k + 1 := ⟨fuel - 1, by simp at hfuel; omega⟩
    have hfirst := (hitems _ List.mem_cons_self).2 _
      (endsNumber_joinedTail gap hlast (.inl rfl) [] rest)
    rw [List.map_nil, scanItems, hfirst]
    simp only [skipSpace_joinedTail_nil hlast (.inl rfl), if_pos, List.map_nil]
  | cons p ts ih =>
    obtain ⟨fuel, rfl⟩ : ∃ k, fuel = k + 1 := ⟨fuel - 1, by simp at hfuel; omega⟩
    have hfirst := (hitems _ List.mem_cons_self).2 _
      (endsNumber_joinedTail gap hlast (.inl rfl) ((p :: ts).map (·.1)) rest)
    have hmore : scanItems element fuel (p.1 ++ (joinedTail gap last 0x5D (ts.map (·.1)) ++ rest)) =
        (p.2 :: ts.map (·.2), none, .ok rest) :=
      ih (fun q hq => hitems q (List.mem_cons_of_mem _ hq)) fuel
        (by simp only [List.length_cons] at hfuel; omega)
    have hstart := (hitems p (List.mem_cons_of_mem _ List.mem_cons_self)).1
    have hskip := hstart.skipSpace (joinedTail gap last 0x5D (ts.map (·.1)) ++ rest)
    -- an element never starts with the bracket that ends an array
    obtain ⟨b, bs, hb, _, hclose, _⟩ := hstart
    rw [scanItems, hfirst]
    simp only [List.map_cons, skipSpace_joinedTail_cons, skipSpace_append hgap, hskip]
    rw [hb] at hmore ⊢
    simp only [List.cons_append] at hmore ⊢
    simp only [if_neg hclose, hmore]
    simp

/-- **An array in any layout is scanned back.** -/
theorem scanArray_joinedTail {element : Bytes → Scanned Scan}
    (hgap : ∀ b ∈ gap, isSpace b = true) (hlast : ∀ b ∈ last, isSpace b = true)
    {t : Bytes} {tree : Scan} {ts : List (Bytes × Scan)}
    (hitems : ∀ p ∈ (t, tree) :: ts, StartsItem p.1 ∧ ScansAs element p.1 p.2) (rest : Bytes) :
    scanArray element (gap ++ (t ++ (joinedTail gap last 0x5D (ts.map (·.1)) ++ rest))) =
      (.array (tree :: ts.map (·.2)) none, .ok rest) := by
  have hstart := (hitems _ List.mem_cons_self).1
  have hskip := hstart.skipSpace (joinedTail gap last 0x5D (ts.map (·.1)) ++ rest)
  have hlength := length_le_joinedTail gap last 0x5D (ts.map (·.1))
  have hscan := scanItems_joinedTail hgap hlast hitems
    ((gap ++ (t ++ (joinedTail gap last 0x5D (ts.map (·.1)) ++ rest))).length + 1)
    (by simp only [List.length_append, List.length_map] at *; omega) rest
  obtain ⟨b, bs, hb, _, hclose, _⟩ := hstart
  simp only at hb
  rw [scanArray, skipSpace_append hgap, hskip]
  rw [hb] at hscan ⊢
  simp only [List.cons_append] at hscan ⊢
  simp only [if_neg hclose, hscan]

/-- The text of a member, where `text` writes its value and the blanks in front of it. -/
def memberText (key : String) (text : Bytes) : Bytes := quote key ++ 0x3A :: text

theorem startsItem_memberText (key : String) (text : Bytes) : StartsItem (memberText key text) :=
  ⟨0x22, _, by rw [memberText, quote_append], by decide, by decide, by decide⟩

theorem memberText_append (key : String) (text rest : Bytes) :
    memberText key text ++ rest =
      0x22 :: ((Utf8.encode key).flatMap escape ++ 0x22 :: 0x3A :: (text ++ rest)) := by
  rw [memberText, quote_append]
  simp

/-- The members of an object are scanned one after the other. -/
theorem scanMembers_joinedTail {element : Bytes → Scanned Scan}
    (hgap : ∀ b ∈ gap, isSpace b = true) (hlast : ∀ b ∈ last, isSpace b = true)
    {k : String} {t : Bytes} {tree : Scan} {ts : List (String × Bytes × Scan)}
    (hmembers : ∀ p ∈ (k, t, tree) :: ts, ScansAs element p.2.1 p.2.2)
    (fuel : Nat) (hfuel : ts.length < fuel) (rest : Bytes) :
    scanMembers element fuel (memberText k t ++
        (joinedTail gap last 0x7D (ts.map fun p => memberText p.1 p.2.1) ++ rest)) =
      ((.ok k, tree) :: ts.map fun p => (.ok p.1, p.2.2), none, .ok rest) := by
  induction ts generalizing k t tree fuel with
  | nil =>
    obtain ⟨fuel, rfl⟩ : ∃ k, fuel = k + 1 := ⟨fuel - 1, by simp at hfuel; omega⟩
    have hfirst := hmembers _ List.mem_cons_self _
      (endsNumber_joinedTail gap hlast (.inr rfl) [] rest)
    simp only at hfirst
    rw [memberText_append, List.map_nil, scanMembers]
    simp only [if_pos, scanKey_quote, hfirst, skipSpace_joinedTail_nil hlast (.inr rfl),
      List.map_nil]
  | cons p ts ih =>
    obtain ⟨fuel, rfl⟩ : ∃ k, fuel = k + 1 := ⟨fuel - 1, by simp at hfuel; omega⟩
    have hfirst := hmembers _ List.mem_cons_self _ (endsNumber_joinedTail gap hlast
      (.inr rfl) ((p :: ts).map fun p => memberText p.1 p.2.1) rest)
    have hmore : scanMembers element fuel (memberText p.1 p.2.1 ++
        (joinedTail gap last 0x7D (ts.map fun p => memberText p.1 p.2.1) ++ rest)) =
        ((.ok p.1, p.2.2) :: ts.map fun p => (.ok p.1, p.2.2), none, .ok rest) :=
      ih (fun q hq => hmembers q (List.mem_cons_of_mem _ hq)) fuel
        (by simp only [List.length_cons] at hfuel; omega)
    have hskip := (startsItem_memberText p.1 p.2.1).skipSpace
      (joinedTail gap last 0x7D (ts.map fun p => memberText p.1 p.2.1) ++ rest)
    simp only [List.map_cons] at hfirst
    rw [memberText_append, scanMembers]
    simp only [if_pos, scanKey_quote, List.map_cons, hfirst, skipSpace_joinedTail_cons,
      skipSpace_append hgap, hskip]
    rw [memberText_append] at hmore ⊢
    simp only [hmore]
    simp

/-- **An object in any layout is scanned back.** -/
theorem scanObject_joinedTail {element : Bytes → Scanned Scan}
    (hgap : ∀ b ∈ gap, isSpace b = true) (hlast : ∀ b ∈ last, isSpace b = true)
    {k : String} {t : Bytes} {tree : Scan} {ts : List (String × Bytes × Scan)}
    (hmembers : ∀ p ∈ (k, t, tree) :: ts, ScansAs element p.2.1 p.2.2) (rest : Bytes) :
    scanObject element (gap ++ (memberText k t ++
        (joinedTail gap last 0x7D (ts.map fun p => memberText p.1 p.2.1) ++ rest))) =
      (.object ((.ok k, tree) :: ts.map fun p => (.ok p.1, p.2.2)) none, .ok rest) := by
  have hskip := (startsItem_memberText k t).skipSpace
    (joinedTail gap last 0x7D (ts.map fun p => memberText p.1 p.2.1) ++ rest)
  have hlength := length_le_joinedTail gap last 0x7D
    (ts.map fun p => memberText p.1 p.2.1)
  have hscan := scanMembers_joinedTail hgap hlast hmembers
    ((gap ++ (memberText k t ++
      (joinedTail gap last 0x7D (ts.map fun p => memberText p.1 p.2.1) ++ rest))).length + 1)
    (by simp only [List.length_append, List.length_map] at *; omega) rest
  rw [scanObject, skipSpace_append hgap, hskip]
  rw [memberText_append] at hscan ⊢
  simp only [hscan]
  simp

end Joined

/-! ## Both layouts -/

theorem prettyItems_cons (level : Nat) (v : Json) (vs : List Json) :
    prettyItems level (v :: vs) = newline (level + 1) ++ (prettyAt (level + 1) v ++
      joinedTail (newline (level + 1)) (newline level) 0x5D (vs.map (prettyAt (level + 1)))) := by
  induction vs generalizing v with
  | nil => simp [prettyItems, joinedTail]
  | cons w vs ih => rw [prettyItems, ih]; simp [joinedTail]

theorem prettyMembers_cons (level : Nat) (e : String × Json) (es : List (String × Json)) :
    prettyMembers level (e :: es) =
      newline (level + 1) ++ (memberText e.1 ([0x20] ++ prettyAt (level + 1) e.2) ++
        joinedTail (newline (level + 1)) (newline level) 0x7D
          (es.map fun e => memberText e.1 ([0x20] ++ prettyAt (level + 1) e.2))) := by
  induction es generalizing e with
  | nil => simp [prettyMembers, joinedTail, memberText]
  | cons f es ih => rw [prettyMembers, ih]; simp [joinedTail, memberText]

theorem compactItems_cons (v : Json) (vs : List Json) :
    compactItems (v :: vs) = v.compact ++ joinedTail [] [] 0x5D (vs.map compact) := by
  induction vs generalizing v with
  | nil => simp [compactItems, joinedTail]
  | cons w vs ih => rw [compactItems, ih]; simp [joinedTail]

theorem compactMembers_cons (e : String × Json) (es : List (String × Json)) :
    compactMembers (e :: es) = memberText e.1 e.2.compact ++
      joinedTail [] [] 0x7D (es.map fun e => memberText e.1 e.2.compact) := by
  induction es generalizing e with
  | nil => simp [compactMembers, joinedTail, memberText]
  | cons f es ih => rw [compactMembers, ih]; simp [joinedTail, memberText]

theorem scanValue_scalar {b : UInt8} (hspace : isSpace b = false) (harray : b ≠ 0x5B)
    (hobject : b ≠ 0x7B) (depth : Nat) (rest : Bytes) :
    scanValue depth (b :: rest) = scanScalar b rest := by
  rw [scanValue.eq_def]
  simp only [skipSpace, if_neg (show ¬ isSpace b = true by simp [hspace])]
  cases depth <;> simp [harray, hobject]

theorem scanValue_array (depth : Nat) (rest : Bytes) :
    scanValue (depth + 1) (0x5B :: rest) = scanArray (scanValue depth) rest := by
  rw [scanValue.eq_def]
  simp [skipSpace, isSpace]

theorem scanValue_object (depth : Nat) (rest : Bytes) :
    scanValue (depth + 1) (0x7B :: rest) = scanObject (scanValue depth) rest := by
  rw [scanValue.eq_def]
  simp [skipSpace, isSpace]

theorem ofItems_eq_map (items : List Json) : Scan.ofItems items = items.map Scan.ofJson := by
  induction items with
  | nil => rfl
  | cons v vs ih => rw [Scan.ofItems, ih]; rfl

theorem ofMembers_eq_map (members : List (String × Json)) :
    Scan.ofMembers members = members.map fun e => (.ok e.1, Scan.ofJson e.2) := by
  induction members with
  | nil => rfl
  | cons e es ih => rw [Scan.ofMembers, ih]; rfl

/-- The text of a scalar can stand in a list, and is scanned back. -/
def WritesScalar (v : Json) : Prop :=
  StartsItem (scalarText v) ∧
    ∀ depth, ScansAs (scanValue depth) (scalarText v) (Scan.ofJson v)

theorem writesScalar_null : WritesScalar .null := by
  refine ⟨⟨0x6E, _, rfl, by decide, by decide, by decide⟩, fun depth rest _ => ?_⟩
  rw [scalarText, List.cons_append, scanValue_scalar (by decide) (by decide) (by decide)]
  rfl

theorem writesScalar_bool (b : Bool) : WritesScalar (.bool b) := by
  cases b with
  | true =>
    refine ⟨⟨0x74, _, rfl, by decide, by decide, by decide⟩, fun depth rest _ => ?_⟩
    rw [scalarText, List.cons_append, scanValue_scalar (by decide) (by decide) (by decide)]
    rfl
  | false =>
    refine ⟨⟨0x66, _, rfl, by decide, by decide, by decide⟩, fun depth rest _ => ?_⟩
    rw [scalarText, List.cons_append, scanValue_scalar (by decide) (by decide) (by decide)]
    rfl

theorem writesScalar_string (s : String) : WritesScalar (.string s) := by
  refine ⟨⟨0x22, _, rfl, by decide, by decide, by decide⟩, fun depth rest _ => ?_⟩
  rw [scalarText, quote_append, scanValue_scalar (by decide) (by decide) (by decide), scanScalar,
    if_pos rfl, scanText_quote]
  rfl

/-- The bytes of a natural number start with a digit. -/
theorem ascii_toDigits_head (n : Nat) :
    ∃ b rest, ascii (Nat.toDigits 10 n) = b :: rest ∧ isDigit b = true := by
  have hall := fun c =>
    Nat.isDigit_of_mem_toDigits (b := 10) (n := n) (c := c) (by decide) (by decide)
  cases hcs : Nat.toDigits 10 n with
  | nil => exact absurd hcs Nat.toDigits_ne_nil
  | cons c cs =>
    refine ⟨_, _, rfl, ?_⟩
    exact isDigit_toUInt8 (hall c (by rw [hcs]; exact List.mem_cons_self))

theorem not_special_of_isDigit {b : UInt8} (h : isDigit b = true) :
    isSpace b = false ∧ b ≠ 0x5B ∧ b ≠ 0x7B ∧ b ≠ 0x5D ∧ b ≠ 0x7D ∧ b ≠ 0x22 ∧ b ≠ 0x2D := by
  refine ⟨?_, ?_, ?_, ?_, ?_, ?_, ?_⟩
  · cases hs : isSpace b with
    | false => rfl
    | true =>
      simp only [isSpace, Bool.or_eq_true, beq_iff_eq] at hs
      rcases hs with ((rfl | rfl) | rfl) | rfl <;> exact absurd h (by decide)
  all_goals
    rintro rfl
    exact absurd h (by decide)

theorem wholeNumber_negative {n : Nat} (hpos : 0 < n) (h : n ≤ Nat.pow 2 63) :
    wholeNumber true ⟨n, 0⟩ = .ok (.int (-n)) := by
  have hfits : ¬ (n = 0 ∨ Nat.pow 2 63 < n) := by omega
  simp only [wholeNumber]
  rw [if_neg (by simp), if_neg (by simp), if_neg hfits]

theorem writesScalar_int {i : Int} (h : -(Nat.pow 2 63 : Nat) ≤ i ∧ i < (Nat.pow 2 64 : Nat)) :
    WritesScalar (.number (.int i)) := by
  obtain ⟨b, bs, hbs, hb⟩ := ascii_toDigits_head i.natAbs
  obtain ⟨hspace, harray, hobject, hitems, hmembers, hquote, hminus⟩ := not_special_of_isDigit hb
  have hsmall : i.natAbs < Nat.pow 2 64 := by
    have hbounds : Nat.pow 2 63 < Nat.pow 2 64 := by decide
    omega
  by_cases hneg : i < 0
  · have htext : scalarText (.number (.int i)) = 0x2D :: ascii (Nat.toDigits 10 i.natAbs) := by
      simp [scalarText, Number.text, Number.chars, hneg, ascii]
    refine ⟨⟨0x2D, _, htext, by decide, by decide, by decide⟩, fun depth rest hrest => ?_⟩
    have hlow : i.natAbs ≤ Nat.pow 2 63 := by omega
    have hi : -(i.natAbs : Int) = i := by omega
    rw [htext, List.cons_append, scanValue_scalar (by decide) (by decide) (by decide), scanScalar,
      if_neg (by decide), if_pos rfl, scanNumber_toDigits true hsmall hrest,
      wholeNumber_negative (by omega) hlow, hi]
    rfl
  · have htext : scalarText (.number (.int i)) = ascii (Nat.toDigits 10 i.natAbs) := by
      simp [scalarText, Number.text, Number.chars, hneg, ascii]
    refine ⟨⟨b, bs, by rw [htext, hbs], hspace, hitems, hmembers⟩, fun depth rest hrest => ?_⟩
    have hscan := scanNumber_toDigits false hsmall hrest
    rw [hbs, List.cons_append] at hscan
    rw [htext, hbs, List.cons_append, scanValue_scalar hspace harray hobject, scanScalar,
      if_neg hquote, if_neg hminus, if_pos hb, hscan]
    have hi : (i.natAbs : Int) = i := by omega
    simp [wholeNumber, hi, Scan.ofJson]

theorem startsItem_bracket (b : UInt8) (hb : b = 0x5B ∨ b = 0x7B) (rest : Bytes) :
    StartsItem (b :: rest) := by
  refine ⟨b, rest, rfl, ?_⟩
  rcases hb with rfl | rfl <;> decide

section Layout

variable {d : Nat}

theorem scansAs_emptyArray :
    ScansAs (scanValue (d + 1)) [0x5B, 0x5D] (Scan.ofJson (.array [])) := by
  intro rest _
  rw [List.cons_append, scanValue_array]
  rfl

theorem scansAs_emptyObject :
    ScansAs (scanValue (d + 1)) [0x7B, 0x7D] (Scan.ofJson (.object [])) := by
  intro rest _
  rw [List.cons_append, scanValue_object]
  rfl

/-- An array is scanned back if its elements are. -/
theorem scansAs_array (text : Json → Bytes) (gap last : Bytes)
    (hgap : ∀ b ∈ gap, isSpace b = true) (hlast : ∀ b ∈ last, isSpace b = true)
    {v : Json} {vs : List Json}
    (h : ∀ w ∈ v :: vs, StartsItem (text w) ∧ ScansAs (scanValue d) (text w) (Scan.ofJson w)) :
    ScansAs (scanValue (d + 1))
      (0x5B :: (gap ++ (text v ++ joinedTail gap last 0x5D (vs.map text))))
      (Scan.ofJson (.array (v :: vs))) := by
  intro rest _
  have hitems : ∀ p ∈ (text v, Scan.ofJson v) :: vs.map fun w => (text w, Scan.ofJson w),
      StartsItem p.1 ∧ ScansAs (scanValue d) p.1 p.2 := by
    intro p hp
    obtain ⟨w, hw, rfl⟩ : ∃ w ∈ v :: vs, (text w, Scan.ofJson w) = p := List.mem_map.1 hp
    exact h w hw
  have hscan := scanArray_joinedTail hgap hlast hitems rest
  simp only [List.map_map, Function.comp_def] at hscan
  simp only [List.cons_append, List.append_assoc]
  rw [scanValue_array, hscan, Scan.ofJson, ofItems_eq_map, List.map_cons]

/-- An object is scanned back if the values of its members are. -/
theorem scansAs_object (text : Json → Bytes) (gap last : Bytes)
    (hgap : ∀ b ∈ gap, isSpace b = true) (hlast : ∀ b ∈ last, isSpace b = true)
    {e : String × Json} {es : List (String × Json)}
    (h : ∀ f ∈ e :: es, ScansAs (scanValue d) (text f.2) (Scan.ofJson f.2)) :
    ScansAs (scanValue (d + 1))
      (0x7B :: (gap ++ (memberText e.1 (text e.2) ++
        joinedTail gap last 0x7D (es.map fun f => memberText f.1 (text f.2)))))
      (Scan.ofJson (.object (e :: es))) := by
  intro rest _
  have hmembers : ∀ p ∈ (e.1, text e.2, Scan.ofJson e.2) ::
      es.map fun f => (f.1, text f.2, Scan.ofJson f.2), ScansAs (scanValue d) p.2.1 p.2.2 := by
    intro p hp
    obtain ⟨f, hf, rfl⟩ : ∃ f ∈ e :: es, (f.1, text f.2, Scan.ofJson f.2) = p :=
      List.mem_map.1 hp
    exact h f hf
  have hscan := scanObject_joinedTail hgap hlast hmembers rest
  simp only [List.map_map, Function.comp_def] at hscan
  simp only [List.cons_append, List.append_assoc]
  rw [scanValue_object, hscan, Scan.ofJson, ofMembers_eq_map, List.map_cons]

end Layout

/-- **A value that fits is scanned back from its indented text.** -/
theorem scanValue_prettyAt {d : Nat} {v : Json} (h : Fits d v) (level : Nat) :
    StartsItem (prettyAt level v) ∧
      ScansAs (scanValue d) (prettyAt level v) (Scan.ofJson v) := by
  have hgap : ∀ level, ∀ b ∈ newline level, isSpace b = true := fun _ _ => isSpace_of_mem_newline
  induction h generalizing level with
  | null => exact ⟨writesScalar_null.1, writesScalar_null.2 _⟩
  | bool b => exact ⟨(writesScalar_bool b).1, (writesScalar_bool b).2 _⟩
  | int h => exact ⟨(writesScalar_int h).1, (writesScalar_int h).2 _⟩
  | string s => exact ⟨(writesScalar_string s).1, (writesScalar_string s).2 _⟩
  | @array d items _ ih =>
    cases items with
    | nil => exact ⟨startsItem_bracket _ (.inl rfl) _, scansAs_emptyArray⟩
    | cons v vs =>
      have htext : prettyAt level (.array (v :: vs)) = 0x5B :: prettyItems level (v :: vs) := by
        rw [prettyAt]
        simp
      rw [htext, prettyItems_cons]
      exact ⟨startsItem_bracket _ (.inl rfl) _,
        scansAs_array (prettyAt (level + 1)) _ _ (hgap _) (hgap _)
          fun w hw => ih w hw (level + 1)⟩
  | @object d members _ ih =>
    cases members with
    | nil => exact ⟨startsItem_bracket _ (.inr rfl) _, scansAs_emptyObject⟩
    | cons e es =>
      have htext : prettyAt level (.object (e :: es)) = 0x7B :: prettyMembers level (e :: es) := by
        rw [prettyAt]
        simp
      rw [htext, prettyMembers_cons]
      refine ⟨startsItem_bracket _ (.inr rfl) _,
        scansAs_object (fun v => [0x20] ++ prettyAt (level + 1) v) _ _ (hgap _) (hgap _)
          fun f hf rest hrest => ?_⟩
      -- the blank behind the colon is passed over
      have hblank : ∀ b ∈ [(0x20 : UInt8)], isSpace b = true := by
        intro b hb
        rw [List.mem_singleton.1 hb]
        rfl
      rw [List.append_assoc, scanValue_append hblank]
      exact (ih f hf (level + 1)).2 rest hrest

/-- **A value that fits is scanned back from its compact text.** -/
theorem scanValue_compact {d : Nat} {v : Json} (h : Fits d v) :
    StartsItem v.compact ∧ ScansAs (scanValue d) v.compact (Scan.ofJson v) := by
  induction h with
  | null => exact ⟨writesScalar_null.1, writesScalar_null.2 _⟩
  | bool b => exact ⟨(writesScalar_bool b).1, (writesScalar_bool b).2 _⟩
  | int h => exact ⟨(writesScalar_int h).1, (writesScalar_int h).2 _⟩
  | string s => exact ⟨(writesScalar_string s).1, (writesScalar_string s).2 _⟩
  | @array d items _ ih =>
    cases items with
    | nil => exact ⟨startsItem_bracket _ (.inl rfl) _, scansAs_emptyArray⟩
    | cons v vs =>
      rw [compact, compactItems_cons]
      exact ⟨startsItem_bracket _ (.inl rfl) _, scansAs_array compact [] [] (by simp) (by simp) ih⟩
  | @object d members _ ih =>
    cases members with
    | nil => exact ⟨startsItem_bracket _ (.inr rfl) _, scansAs_emptyObject⟩
    | cons e es =>
      rw [compact, compactMembers_cons]
      exact ⟨startsItem_bracket _ (.inr rfl) _,
        scansAs_object compact [] [] (by simp) (by simp) fun f hf => (ih f hf).2⟩

theorem scan_of_scansAs {text : Bytes} {tree : Scan} (h : ScansAs (scanValue maxDepth) text tree) :
    scan text = (tree, .ok []) := by
  have hnil : EndsNumber [] := by
    intro b hb
    simp at hb
  have hscan := h [] hnil
  rwa [List.append_nil] at hscan

/-- The indented text of a value is scanned to its end. -/
theorem scan_pretty {v : Json} (h : Fits maxDepth v) : scan v.pretty = (Scan.ofJson v, .ok []) :=
  scan_of_scansAs (scanValue_prettyAt h 0).2

/-- The compact text of a value is scanned to its end. -/
theorem scan_compact {v : Json} (h : Fits maxDepth v) : scan v.compact = (Scan.ofJson v, .ok []) :=
  scan_of_scansAs (scanValue_compact h).2

end Json
end ProxyPlane
