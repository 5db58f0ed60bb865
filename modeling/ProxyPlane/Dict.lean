/-!
# Dictionaries in key order

The sections of a proxy document that are keyed by free names (servers, loggers, header fields,
unknown members) keep their entries in the order of the keys and hold each key once.

## What is here

* `Dict α`, the entries with the proof that their keys increase.
* `insert` (the last value of a key wins), `get?`, `contains`, `erase`, `ofList`, `map`.
* `ext_entries`: a dictionary is its list of entries.
* `insertEntry_of_forall_lt` and `ofList_entries`: reading back the entries of a dictionary one by
  one gives the dictionary again.
-/

set_option autoImplicit false
namespace ProxyPlane

/-- Entries in increasing order of their keys. -/
def KeysIncrease {α : Type} (entries : List (String × α)) : Prop :=
  entries.Pairwise fun a b => a.1 < b.1

/-- Put a value under a key of a list in key order, replacing the value that stood there. -/
def insertEntry {α : Type} (key : String) (value : α) : List (String × α) → List (String × α)
  | [] => [(key, value)]
  | (k, v) :: rest =>
    if key < k then (key, value) :: (k, v) :: rest
    else if key = k then (key, value) :: rest
    else (k, v) :: insertEntry key value rest

theorem mem_insertEntry {α : Type} {key : String} {value : α} {entries : List (String × α)}
    {e : String × α} (h : e ∈ insertEntry key value entries) :
    e = (key, value) ∨ e ∈ entries := by
  induction entries with
  | nil => simpa [insertEntry] using h
  | cons a rest ih =>
    obtain ⟨k, v⟩ := a
    rw [insertEntry] at h
    split at h
    · simpa using h
    · split at h
      · rcases List.mem_cons.1 h with h | h
        · exact .inl h
        · exact .inr (List.mem_cons_of_mem _ h)
      · rcases List.mem_cons.1 h with h | h
        · exact .inr (h ▸ List.mem_cons_self)
        · rcases ih h with h | h
          · exact .inl h
          · exact .inr (List.mem_cons_of_mem _ h)

theorem keysIncrease_insertEntry {α : Type} (key : String) (value : α)
    {entries : List (String × α)} (h : KeysIncrease entries) :
    KeysIncrease (insertEntry key value entries) := by
  induction entries with
  | nil => simp [insertEntry, KeysIncrease]
  | cons a rest ih =>
    obtain ⟨k, v⟩ := a
    have hk := (List.pairwise_cons.1 h).1
    have hrest : KeysIncrease rest := (List.pairwise_cons.1 h).2
    rw [insertEntry]
    split
    · rename_i hlt
      refine List.pairwise_cons.2 ⟨?_, h⟩
      intro e he
      rcases List.mem_cons.1 he with rfl | he
      · exact hlt
      · exact String.lt_trans hlt (hk e he)
    · rename_i hlt
      split
      · rename_i heq
        subst heq
        exact List.pairwise_cons.2 ⟨hk, hrest⟩
      · rename_i hne
        refine List.pairwise_cons.2 ⟨?_, ih hrest⟩
        intro e he
        rcases mem_insertEntry he with rfl | he
        · apply Decidable.byContradiction
          intro hnot
          exact hne (String.le_antisymm (String.not_lt.1 hnot) (String.not_lt.1 hlt))
        · exact hk e he

/-- A key above all others goes to the end. -/
theorem insertEntry_of_forall_lt {α : Type} {key : String} {value : α}
    {entries : List (String × α)} (h : ∀ e ∈ entries, e.1 < key) :
    insertEntry key value entries = entries ++ [(key, value)] := by
  induction entries with
  | nil => rfl
  | cons a rest ih =>
    obtain ⟨k, v⟩ := a
    have hk : k < key := h (k, v) List.mem_cons_self
    have hne : key ≠ k := fun he => String.lt_irrefl k (he ▸ hk)
    rw [insertEntry, if_neg (String.lt_asymm hk), if_neg hne,
      ih fun e he => h e (List.mem_cons_of_mem _ he)]
    rfl

/-- A dictionary keyed by text: each key once, in increasing order. -/
structure Dict (α : Type) where
  entries : List (String × α)
  increasing : KeysIncrease entries

namespace Dict

variable {α β : Type}

/-- **A dictionary is its list of entries.** -/
theorem ext_entries {d e : Dict α} (h : d.entries = e.entries) : d = e := by
  cases d; cases e; cases h; rfl

instance [DecidableEq α] : DecidableEq (Dict α) := fun d e =>
  if h : d.entries = e.entries then isTrue (ext_entries h)
  else isFalse fun he => h (he ▸ rfl)

/-- The dictionary without entries. -/
def empty : Dict α := ⟨[], List.Pairwise.nil⟩

instance : Inhabited (Dict α) := ⟨empty⟩
instance : EmptyCollection (Dict α) := ⟨empty⟩

/-- Put a value under a key, in place of the one that stood there. -/
def insert (d : Dict α) (key : String) (value : α) : Dict α :=
  ⟨insertEntry key value d.entries, keysIncrease_insertEntry key value d.increasing⟩

/-- The dictionary of a list of entries; the last value of a key wins. -/
def ofList (entries : List (String × α)) : Dict α :=
  entries.foldl (fun d e => d.insert e.1 e.2) empty

/-- The value under a key. -/
def get? (d : Dict α) (key : String) : Option α := d.entries.lookup key

/-- Whether the key has a value. -/
def contains (d : Dict α) (key : String) : Bool := (d.get? key).isSome

/-- The dictionary without a key. -/
def erase (d : Dict α) (key : String) : Dict α :=
  ⟨d.entries.filter fun e => e.1 != key, d.increasing.filter _⟩

/-- Whether there are no entries. -/
def isEmpty (d : Dict α) : Bool := d.entries.isEmpty

/-- The number of entries. -/
def size (d : Dict α) : Nat := d.entries.length

/-- The dictionary with a function applied to each value. -/
def map (f : α → β) (d : Dict α) : Dict β :=
  ⟨d.entries.map fun e => (e.1, f e.2), by
    simpa [KeysIncrease, List.pairwise_map] using d.increasing⟩

/-- The keys in increasing order. -/
def keys (d : Dict α) : List String := d.entries.map (·.1)

@[simp]
theorem entries_empty : (empty : Dict α).entries = [] := rfl

@[simp]
theorem entries_insert (d : Dict α) (key : String) (value : α) :
    (d.insert key value).entries = insertEntry key value d.entries := rfl

theorem entries_foldl_insert (d : Dict α) (entries : List (String × α))
    (h : KeysIncrease (d.entries ++ entries)) :
    (entries.foldl (fun d e => d.insert e.1 e.2) d).entries = d.entries ++ entries := by
  induction entries generalizing d with
  | nil => simp
  | cons e rest ih =>
    have hlt : ∀ x ∈ d.entries, x.1 < e.1 := fun x hx =>
      (List.pairwise_append.1 h).2.2 x hx e List.mem_cons_self
    have he : (d.insert e.1 e.2).entries = d.entries ++ [e] := by
      rw [entries_insert, insertEntry_of_forall_lt hlt]
    rw [List.foldl_cons, ih _ (by rw [he]; simpa using h), he]
    simp

/-- **Putting the entries of a dictionary back one by one gives the dictionary again.** -/
@[simp]
theorem ofList_entries (d : Dict α) : ofList d.entries = d :=
  ext_entries (by
    rw [ofList, entries_foldl_insert empty d.entries (by simpa using d.increasing)]; rfl)

end Dict
end ProxyPlane
