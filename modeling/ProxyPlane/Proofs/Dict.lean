import ProxyPlane.Dict

/-!
# Looking up in dictionaries

A dictionary is determined by what is found under each key, so equations between dictionaries are
proved by looking up.

## What is here

* `lookup_insertEntry`, `insertEntry_insertEntry` and `lookup_filter_ne`, for lists in any order.
* `Dict.get?_insert`, `get?_erase`, `get?_map` and `get?_foldl_insert`, and how insertions and
  removals commute.
* `Dict.ext_get?`: dictionaries with the same values under all keys are equal.
* `Dict.before`, the entries under smaller keys.
-/

set_option autoImplicit false
namespace ProxyPlane

section Entries

variable {α : Type}

theorem lookup_cons_of_ne {j k : String} (h : j ≠ k) (v : α) (rest : List (String × α)) :
    ((k, v) :: rest).lookup j = rest.lookup j := by
  rw [List.lookup_cons, beq_eq_false_iff_ne.2 h]

theorem lookup_cons_self (k : String) (v : α) (rest : List (String × α)) :
    ((k, v) :: rest).lookup k = some v := by
  rw [List.lookup_cons, beq_self_eq_true]

/-- **What is found after an insertion**, in whatever order the entries stand. -/
theorem lookup_insertEntry (key : String) (value : α) (entries : List (String × α)) (j : String) :
    (insertEntry key value entries).lookup j =
      if j = key then some value else entries.lookup j := by
  by_cases hj : j = key
  · subst hj
    rw [if_pos rfl]
    induction entries with
    | nil => exact lookup_cons_self _ _ _
    | cons e rest ih =>
      obtain ⟨k, v⟩ := e
      rw [insertEntry]
      split
      · exact lookup_cons_self _ _ _
      · split
        · exact lookup_cons_self _ _ _
        · rename_i hk
          rw [lookup_cons_of_ne hk, ih]
  · rw [if_neg hj]
    induction entries with
    | nil => exact lookup_cons_of_ne hj _ _
    | cons e rest ih =>
      obtain ⟨k, v⟩ := e
      rw [insertEntry]
      split
      · exact lookup_cons_of_ne hj _ _
      · split
        · rename_i hk
          subst hk
          rw [lookup_cons_of_ne hj, lookup_cons_of_ne hj]
        · rw [List.lookup_cons, List.lookup_cons, ih]

theorem insertEntry_insertEntry (key : String) (value earlier : α) (entries : List (String × α)) :
    insertEntry key value (insertEntry key earlier entries) = insertEntry key value entries := by
  have hself : ∀ rest : List (String × α),
      insertEntry key value ((key, earlier) :: rest) = (key, value) :: rest := fun rest => by
    rw [insertEntry, if_neg (String.lt_irrefl key), if_pos rfl]
  induction entries with
  | nil => exact hself []
  | cons e rest ih =>
    obtain ⟨k, v⟩ := e
    by_cases hlt : key < k
    · rw [insertEntry, if_pos hlt, hself, insertEntry, if_pos hlt]
    · by_cases heq : key = k
      · rw [insertEntry, if_neg hlt, if_pos heq, hself, insertEntry, if_neg hlt, if_pos heq]
      · rw [insertEntry, if_neg hlt, if_neg heq, insertEntry, if_neg hlt, if_neg heq, ih,
          insertEntry, if_neg hlt, if_neg heq]

theorem lookup_filter_ne (key : String) (entries : List (String × α)) (j : String) :
    (entries.filter fun e => e.1 != key).lookup j =
      if j = key then none else entries.lookup j := by
  induction entries with
  | nil => by_cases hj : j = key <;> simp [hj]
  | cons e rest ih =>
    obtain ⟨k, v⟩ := e
    rw [List.filter_cons]
    by_cases hk : k = key
    · subst hk
      rw [if_neg (by simp), ih]
      by_cases hj : j = k
      · rw [if_pos hj, if_pos hj]
      · rw [if_neg hj, if_neg hj, lookup_cons_of_ne hj]
    · rw [if_pos (by simpa using hk)]
      by_cases hj : j = k
      · subst hj
        rw [lookup_cons_self, lookup_cons_self, if_neg hk]
      · rw [lookup_cons_of_ne hj, lookup_cons_of_ne hj, ih]

theorem lookup_map_snd {β : Type} (f : α → β) (entries : List (String × α)) (j : String) :
    (entries.map fun e => (e.1, f e.2)).lookup j = (entries.lookup j).map f := by
  induction entries with
  | nil => rfl
  | cons e rest ih =>
    obtain ⟨k, v⟩ := e
    rw [List.map_cons, List.lookup_cons, List.lookup_cons, ih]
    cases j == k <;> rfl

/-- A key below all others has no value. -/
theorem lookup_eq_none_of_lt {entries : List (String × α)} {key : String}
    (h : ∀ e ∈ entries, key < e.1) : entries.lookup key = none := by
  rw [List.lookup_eq_none_iff]
  intro e he
  have hne : e.1 ≠ key := fun heq => String.lt_irrefl key (heq ▸ h e he)
  simpa using Ne.symm hne

/-- The first key of a list in key order is the least of its keys. -/
theorem not_lt_of_lookup_eq {k l : String} {v : α} {xs ys : List (String × α)}
    (hy : KeysIncrease ((l, v) :: ys)) (h : xs.lookup k = ((l, v) :: ys).lookup k)
    (hk : (xs.lookup k).isSome) : ¬k < l := by
  intro hlt
  have hnone : ((l, v) :: ys).lookup k = none := by
    apply lookup_eq_none_of_lt
    intro e he
    rcases List.mem_cons.1 he with rfl | he
    · exact hlt
    · exact String.lt_trans hlt ((List.pairwise_cons.1 hy).1 e he)
  rw [h, hnone] at hk
  exact absurd hk (by simp)

/-- Lists in key order with the same value under every key are equal. -/
theorem eq_of_lookup_eq {xs ys : List (String × α)} (hx : KeysIncrease xs) (hy : KeysIncrease ys)
    (h : ∀ j, xs.lookup j = ys.lookup j) : xs = ys := by
  induction xs generalizing ys with
  | nil =>
    cases ys with
    | nil => rfl
    | cons e ys =>
      have he := h e.1
      rw [lookup_cons_self] at he
      exact absurd he (by simp)
  | cons e xs ih =>
    cases ys with
    | nil =>
      have he := h e.1
      rw [lookup_cons_self] at he
      exact absurd he (by simp)
    | cons f ys =>
      obtain ⟨k, v⟩ := e
      obtain ⟨l, w⟩ := f
      -- either first key is found in the other list, and so is not below its first
      have hkl : k = l := by
        have hlt := not_lt_of_lookup_eq hy (h k) (by rw [lookup_cons_self]; rfl)
        have hgt := not_lt_of_lookup_eq hx (h l).symm (by rw [lookup_cons_self]; rfl)
        exact String.le_antisymm (String.not_lt.1 hgt) (String.not_lt.1 hlt)
      subst hkl
      have hvw := h k
      rw [lookup_cons_self, lookup_cons_self, Option.some.injEq] at hvw
      subst hvw
      obtain ⟨hkx, hxs⟩ := List.pairwise_cons.1 hx
      obtain ⟨hky, hys⟩ := List.pairwise_cons.1 hy
      rw [ih hxs hys fun j => ?_]
      by_cases hj : j = k
      · subst hj
        rw [lookup_eq_none_of_lt hkx, lookup_eq_none_of_lt hky]
      · have hrest := h j
        rwa [lookup_cons_of_ne hj, lookup_cons_of_ne hj] at hrest

end Entries

namespace Dict

variable {α β : Type}

/-- **Dictionaries with the same value under every key are equal.** -/
theorem ext_get? {d e : Dict α} (h : ∀ j, d.get? j = e.get? j) : d = e :=
  ext_entries (eq_of_lookup_eq d.increasing e.increasing h)

@[simp]
theorem get?_empty (j : String) : (empty : Dict α).get? j = none := rfl

theorem eq_empty_of_isEmpty {d : Dict α} (h : d.isEmpty = true) : d = empty :=
  ext_entries (List.isEmpty_iff.1 h)

theorem get?_insert (d : Dict α) (key : String) (value : α) (j : String) :
    (d.insert key value).get? j = if j = key then some value else d.get? j :=
  lookup_insertEntry key value d.entries j

theorem get?_erase (d : Dict α) (key j : String) :
    (d.erase key).get? j = if j = key then none else d.get? j :=
  lookup_filter_ne key d.entries j

/-- The keys of a dictionary are all different. -/
theorem nodup_keys (d : Dict α) : (d.entries.map (·.1)).Nodup :=
  List.Pairwise.map _ (fun _ _ hab he => String.lt_irrefl _ (he ▸ hab)) d.increasing

/-- Putting entries with different keys into a dictionary leaves what they do not replace. -/
theorem get?_foldl_insert (entries : List (String × α)) (hkeys : (entries.map (·.1)).Nodup)
    (d : Dict α) (j : String) :
    (entries.foldl (fun d e => d.insert e.1 e.2) d).get? j = (entries.lookup j).or (d.get? j) := by
  induction entries generalizing d with
  | nil => rfl
  | cons e rest ih =>
    obtain ⟨k, v⟩ := e
    rw [List.map_cons, List.nodup_cons] at hkeys
    rw [List.foldl_cons, ih hkeys.2, get?_insert]
    by_cases hj : j = k
    · subst hj
      have hnone : rest.lookup j = none := by
        rw [List.lookup_eq_none_iff]
        intro e he
        have hne : j ≠ e.1 := fun heq => hkeys.1 (List.mem_map.2 ⟨e, he, heq.symm⟩)
        simpa using hne
      rw [hnone, lookup_cons_self, if_pos rfl]
      rfl
    · rw [lookup_cons_of_ne hj, if_neg hj]

/-- What is found in the dictionary of entries with different keys. -/
theorem get?_ofList {entries : List (String × α)} (hkeys : (entries.map (·.1)).Nodup)
    (j : String) : (ofList entries).get? j = entries.lookup j := by
  rw [ofList, get?_foldl_insert entries hkeys, get?_empty, Option.or_none]

theorem get?_of_mem {d : Dict α} {e : String × α} (h : e ∈ d.entries) :
    d.get? e.1 = some e.2 := by
  have hlookup : ∀ es : List (String × α), (es.map (·.1)).Nodup → e ∈ es →
      es.lookup e.1 = some e.2 := by
    intro es hes he
    induction es with
    | nil => exact absurd he List.not_mem_nil
    | cons f es ih =>
      rw [List.map_cons, List.nodup_cons] at hes
      rcases List.mem_cons.1 he with rfl | he
      · exact lookup_cons_self _ _ _
      · have hne : e.1 ≠ f.1 := fun heq => hes.1 (heq ▸ List.mem_map_of_mem he)
        rw [lookup_cons_of_ne hne]
        exact ih hes.2 he
  exact hlookup d.entries d.nodup_keys h

theorem mem_of_get? {d : Dict α} {k : String} {a : α} (h : d.get? k = some a) :
    (k, a) ∈ d.entries := by
  rw [get?, List.lookup_eq_some_iff] at h
  obtain ⟨l, r, hl, -⟩ := h
  rw [hl]
  exact List.mem_append_right _ List.mem_cons_self

theorem get?_map (f : α → β) (d : Dict α) (j : String) : (d.map f).get? j = (d.get? j).map f :=
  lookup_map_snd f d.entries j

theorem insert_inj (d : Dict α) {key : String} {v w : α} :
    d.insert key v = d.insert key w ↔ v = w := by
  refine ⟨fun h => ?_, congrArg (d.insert key)⟩
  simpa [get?_insert] using congrArg (fun d => d.get? key) h

theorem insert_comm (d : Dict α) {k l : String} (h : k ≠ l) (v w : α) :
    (d.insert k v).insert l w = (d.insert l w).insert k v := by
  refine ext_get? fun j => ?_
  simp only [get?_insert]
  by_cases hl : j = l
  · subst hl
    simp [Ne.symm h]
  · simp [hl]

theorem erase_insert_self_of_get? (d : Dict α) {k : String} (v : α) (h : d.get? k = none) :
    (d.insert k v).erase k = d := by
  refine ext_get? fun j => ?_
  simp only [get?_insert, get?_erase]
  by_cases hj : j = k
  · rw [if_pos hj, hj, h]
  · simp [hj]

/-! ## What stands in front of a key -/

section Before

variable {d : Dict α} {key : String} {value : α}

/-- The entries under smaller keys. -/
def before (d : Dict α) (key : String) : Dict α :=
  ⟨d.entries.filter fun e => e.1 < key, d.increasing.filter _⟩

theorem entries_before {xs ys : List (String × α)} (h : d.entries = xs ++ (key, value) :: ys) :
    (d.before key).entries = xs := by
  have hincreasing := d.increasing
  rw [h, KeysIncrease, List.pairwise_append, List.pairwise_cons] at hincreasing
  obtain ⟨-, ⟨hbehind, -⟩, hbefore⟩ := hincreasing
  have hxs : ∀ e ∈ xs, e.1 < key := fun e he => hbefore e he _ List.mem_cons_self
  have hys : ∀ e ∈ ys, ¬e.1 < key := fun e he => String.lt_asymm (hbehind e he)
  show d.entries.filter _ = xs
  rw [h, List.filter_append, List.filter_eq_self.2 fun e he => by simpa using hxs e he,
    List.filter_cons_of_neg (by simp),
    List.filter_eq_nil_iff.2 fun e he => by simpa using hys e he, List.append_nil]

theorem exists_entries_eq (h : d.get? key = some value) :
    ∃ ys, d.entries = (d.before key).entries ++ (key, value) :: ys := by
  obtain ⟨xs, ys, hentries⟩ := List.append_of_mem (mem_of_get? h)
  exact ⟨ys, by rw [entries_before hentries, hentries]⟩

theorem entries_insert_before (d : Dict α) (key : String) (value : α) :
    ((d.before key).insert key value).entries = (d.before key).entries ++ [(key, value)] :=
  insertEntry_of_forall_lt fun _ he => of_decide_eq_true (List.mem_filter.1 he).2

end Before

end Dict
end ProxyPlane
