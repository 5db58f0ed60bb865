import ProxyPlane.Proofs.Files.Tree
import ProxyPlane.Proofs.Text.Numeral
import ProxyPlane.Snapshot

/-!
# Names of snapshot files

## What is here

* `isName_fileName`, `isName_marker` and `isName_temporaryName`: names of entries, and not too long.
* `parseName?_fileName`: the number of a file is found in its name, if it has 64 bits.
* `parseName?_marker` and `parseName?_temporaryName`: no other file of the directory is a snapshot.
* `fileName_injective`.
-/

set_option autoImplicit false
namespace ProxyPlane
namespace SnapshotDir

/-- The name of the marker. -/
def markerName : String := "last-good"

/-! ## Names of entries -/

theorem toList_fileName (n : Nat) :
    (fileName n).toList = "config-".toList ++
      (List.replicate (20 - (Nat.toDigits 10 n).length) '0' ++ Nat.toDigits 10 n) ++
        ".json".toList := by
  simp [fileName, Numeral.writePadded, String.toList_append]

theorem toList_temporaryName (name : String) :
    (temporaryName name).toList = '.' :: (name.toList ++ ".tmp".toList) := by
  simp [temporaryName, String.toList_append]

theorem mem_fileName {n : Nat} {c : Char} (h : c ∈ (fileName n).toList) :
    c ∈ "config-".toList ∨ c.isDigit = true ∨ c ∈ ".json".toList := by
  rw [toList_fileName, List.mem_append, List.mem_append] at h
  rcases h with (h | h) | h
  · exact .inl h
  · exact .inr (.inl (Numeral.isDigit_of_mem_padded h))
  · exact .inr (.inr h)

theorem isName_fileName (n : Nat) : Path.IsName (fileName n) where
  counts := by
    rw [toList_fileName]
    rfl
  notParent := by
    rw [toList_fileName]
    exact fun h => absurd (List.cons.inj h).1 (by decide)
  noSlash := by
    intro h
    rcases mem_fileName h with h | h | h <;> exact absurd h (by decide)
  noNul := by
    intro h
    rcases mem_fileName h with h | h | h <;> exact absurd h (by decide)

theorem isName_marker : Path.IsName markerName where
  counts := by decide
  notParent := by decide
  noSlash := by decide
  noNul := by decide

theorem isName_temporaryName {name : String} (h : Path.IsName name) :
    Path.IsName (temporaryName name) where
  counts := by
    rw [toList_temporaryName, Path.counts, Bool.and_eq_true, bne_iff_ne, bne_iff_ne]
    refine ⟨List.cons_ne_nil _ _, fun heq => ?_⟩
    exact absurd (List.cons.inj heq).2 (by simp)
  notParent := by
    rw [toList_temporaryName]
    intro heq
    have hlength := congrArg List.length heq
    simp at hlength
  noSlash := by
    rw [toList_temporaryName, List.mem_cons, List.mem_append]
    rintro (hc | hc | hc)
    · exact absurd hc (by decide)
    · exact h.noSlash hc
    · exact absurd hc (by decide)
  noNul := by
    rw [toList_temporaryName, List.mem_cons, List.mem_append]
    rintro (hc | hc | hc)
    · exact absurd hc (by decide)
    · exact h.noNul hc
    · exact absurd hc (by decide)

theorem utf8ByteSize_le (s : String) : s.utf8ByteSize ≤ 4 * s.toList.length := by
  have hlist : ∀ cs : List Char, (String.ofList cs).utf8ByteSize ≤ 4 * cs.length := by
    intro cs
    induction cs with
    | nil => exact Nat.le_refl _
    | cons c cs ih =>
      have hsplit : String.ofList (c :: cs) = String.singleton c ++ String.ofList cs := by
        rw [← String.toList_inj]
        simp
      have hc := c.utf8Size_le_four
      rw [hsplit, String.utf8ByteSize_append, String.utf8ByteSize_singleton, List.length_cons]
      omega
  have h := hlist s.toList
  rwa [String.ofList_toList] at h

theorem length_fileName {n : Nat} (h : n ≤ Nat.pow 2 64) : (fileName n).toList.length = 32 := by
  have hdigits : (Nat.toDigits 10 n).length ≤ 20 := by
    rw [Nat.length_toDigits_le_iff (by decide) (by decide)]
    exact Nat.lt_of_le_of_lt h (by decide)
  have hhead : "config-".toList.length = 7 := rfl
  have hsuffix : ".json".toList.length = 5 := rfl
  rw [toList_fileName, List.length_append, List.length_append, List.length_append,
    List.length_replicate, hhead, hsuffix]
  omega

/-- The name of a snapshot leaves room for the longer one that its file has while it is written. -/
theorem length_fileName_le {n : Nat} (h : n ≤ Nat.pow 2 64) : (fileName n).toList.length ≤ 58 := by
  rw [length_fileName h]
  decide

theorem not_isTooLong {name : String} (h : name.toList.length ≤ 63) :
    FileTree.isTooLong name = false := by
  have hsize := utf8ByteSize_le name
  rw [FileTree.isTooLong, FileTree.maxNameLength, decide_eq_false_iff_not]
  omega

theorem length_temporaryName (name : String) :
    (temporaryName name).toList.length = name.toList.length + 5 := by
  rw [toList_temporaryName, List.length_cons, List.length_append]
  rfl

/-! ## Numbers in names -/

theorem dropStart?_append (start rest : List Char) :
    dropStart? start (start ++ rest) = some rest := by
  rw [dropStart?, if_pos (List.isPrefixOf_iff_prefix.2 (List.prefix_append _ _)), List.drop_left]

theorem dropEnd?_append (tail before : List Char) :
    dropEnd? tail (before ++ tail) = some before := by
  rw [dropEnd?, if_pos (List.isSuffixOf_iff_suffix.2 (List.suffix_append _ _)), List.length_append,
    Nat.add_sub_cancel, List.take_left]

/-- **The number of a file is found in its name, if it has 64 bits.** -/
theorem parseName?_fileName (n : Nat) :
    parseName? (fileName n) = if n < Nat.pow 2 64 then some n else none := by
  rw [parseName?, toList_fileName, List.append_assoc, dropStart?_append]
  simp only [Option.bind_eq_bind, Option.bind_some, dropEnd?_append]
  exact Numeral.read?_padded _ _ n

theorem parseName?_of_head {name : String} (h : name.toList.head? ≠ some 'c') :
    parseName? name = none := by
  have hstart : dropStart? "config-".toList name.toList = none := by
    rw [dropStart?, if_neg]
    intro hhead
    obtain ⟨rest, hrest⟩ := List.isPrefixOf_iff_prefix.1 hhead
    rw [← hrest] at h
    exact h rfl
  rw [parseName?, hstart]
  rfl

theorem parseName?_marker : parseName? markerName = none :=
  parseName?_of_head (by decide)

theorem parseName?_temporaryName (name : String) : parseName? (temporaryName name) = none := by
  refine parseName?_of_head ?_
  rw [toList_temporaryName]
  exact fun h => absurd (Option.some.inj h) (by decide)

theorem temporaryName_ne_self (name : String) : temporaryName name ≠ name := by
  intro h
  have hlength := congrArg (fun s : String => s.toList.length) h
  simp only [length_temporaryName] at hlength
  omega

theorem fileName_ne_marker (n : Nat) : fileName n ≠ markerName := by
  intro h
  have hlist := congrArg String.toList h
  rw [toList_fileName] at hlist
  exact absurd (List.cons.inj hlist).1 (by decide)

theorem temporaryName_ne_fileName (name : String) (n : Nat) : temporaryName name ≠ fileName n := by
  intro h
  have hlist := congrArg String.toList h
  rw [toList_fileName, toList_temporaryName] at hlist
  exact absurd (List.cons.inj hlist).1 (by decide)

theorem temporaryName_ne_marker (name : String) : temporaryName name ≠ markerName := by
  intro h
  have hlist := congrArg String.toList h
  rw [toList_temporaryName] at hlist
  exact absurd (List.cons.inj hlist).1 (by decide)

theorem digit?_eq_none {c : Char} (h : c.toNat < 48) : Numeral.digit? c = none := by
  rw [Numeral.digit?, if_neg]
  rintro ⟨hle, -⟩
  exact absurd (show 48 ≤ c.toNat from hle) (by omega)

theorem not_mem_of_digits? {acc n : Nat} {cs : List Char} (h : Numeral.digits? acc cs = some n)
    {c : Char} (hc : c.toNat < 48) : c ∉ cs := by
  induction cs generalizing acc with
  | nil => exact List.not_mem_nil
  | cons d cs ih =>
    obtain ⟨v, hv, hrest⟩ := Option.bind_eq_some_iff.1 h
    rw [List.mem_cons, not_or]
    refine ⟨?_, ih hrest⟩
    rintro rfl
    cases (digit?_eq_none hc).symm.trans hv

theorem not_mem_of_value? {n : Nat} {cs : List Char} (h : Numeral.value? cs = some n) {c : Char}
    (hc : c.toNat < 48) (hplus : c ≠ '+') : c ∉ cs := by
  have hbody : ∃ body, (∀ x ∈ cs, x = '+' ∨ x ∈ body) ∧ Numeral.digits? 0 body = some n := by
    unfold Numeral.value? at h
    rw [Option.ite_none_left_eq_some] at h
    refine ⟨_, fun x hx => ?_, h.2⟩
    split
    · exact List.mem_cons.1 hx
    · exact .inr hx
  obtain ⟨body, hsub, hdigits⟩ := hbody
  intro hmem
  rcases hsub c hmem with hc' | hc'
  · exact hplus hc'
  · exact not_mem_of_digits? hdigits hc hc'

/-- The parts of the name of a snapshot. -/
theorem exists_of_parseName? {name : String} {n : Nat} (h : parseName? name = some n) :
    ∃ cs, name.toList = "config-".toList ++ cs ++ ".json".toList ∧
      Numeral.value? cs = some n ∧ n < Nat.pow 2 64 := by
  rw [parseName?] at h
  obtain ⟨rest, hstart, h⟩ := Option.bind_eq_some_iff.1 h
  obtain ⟨cs, hend, h⟩ := Option.bind_eq_some_iff.1 h
  rw [Numeral.read?, Option.filter_eq_some_iff] at h
  refine ⟨cs, ?_, h.1, of_decide_eq_true h.2⟩
  have hrest : name.toList = "config-".toList ++ rest := by
    rw [dropStart?] at hstart
    split at hstart
    · rename_i hhead
      obtain ⟨tail, htail⟩ := List.isPrefixOf_iff_prefix.1 hhead
      rw [← htail, List.drop_left, Option.some.injEq] at hstart
      rw [← htail, hstart]
    · cases hstart
  have hcs : rest = cs ++ ".json".toList := by
    rw [dropEnd?] at hend
    split at hend
    · rename_i hsuffix
      obtain ⟨before, hbefore⟩ := List.isSuffixOf_iff_suffix.1 hsuffix
      rw [← hbefore, List.length_append, Nat.add_sub_cancel, List.take_left,
        Option.some.injEq] at hend
      rw [← hbefore, hend]
    · cases hend
  rw [hrest, hcs, List.append_assoc]

/-- Whatever is listed as a snapshot has a name that can be followed. -/
theorem isName_of_parseName? {name : String} {n : Nat} (h : parseName? name = some n) :
    Path.IsName name := by
  obtain ⟨cs, hlist, hvalue, -⟩ := exists_of_parseName? h
  have hmem : ∀ c : Char, c.toNat < 48 → c ≠ '+' → c ∉ "config-".toList → c ∉ ".json".toList →
      c ∉ name.toList := by
    intro c hc hplus hstart hend
    rw [hlist, List.mem_append, List.mem_append]
    rintro ((hc' | hc') | hc')
    · exact hstart hc'
    · exact not_mem_of_value? hvalue hc hplus hc'
    · exact hend hc'
  exact {
    counts := by
      rw [hlist]
      rfl
    notParent := by
      rw [hlist]
      exact fun h => absurd (List.cons.inj h).1 (by decide)
    noSlash := hmem _ (by decide) (by decide) (by decide) (by decide)
    noNul := hmem _ (by decide) (by decide) (by decide) (by decide) }

theorem fileName_injective : Function.Injective fileName := by
  intro m n h
  have hlist := congrArg String.toList h
  rw [toList_fileName, toList_fileName] at hlist
  have hvalue := congrArg (Numeral.digits? 0)
    (List.append_cancel_left (List.append_cancel_right hlist))
  rw [Numeral.digits?_replicate_zero, Numeral.digits?_replicate_zero, Numeral.digits?_toDigits,
    Numeral.digits?_toDigits, Option.some.injEq] at hvalue
  exact hvalue

end SnapshotDir
end ProxyPlane
