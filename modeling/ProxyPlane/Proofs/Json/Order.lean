import ProxyPlane.Proofs.Dict
import ProxyPlane.Proofs.Json.Codec
import ProxyPlane.Proofs.Outcome

/-!
# Reading members in any order

The objects that write handlers keep their members in key order, and not in the order in which they
are declared.  A section is read from both, because members that are put into different fields may
be read in any order.

## What is here

* `normalize_normalize`: a normal form is its own normal form.
* `perm_ofList`: a dictionary of entries with different keys holds just these entries.
* `foldlM_perm`: steps that commute may be taken in any order.
* `Codec.RestoresSorted c a`: the normal form of what `c` writes for `a` is read as `a`, with
  `restoresSorted_string` and so on for the basic codecs.
* `IsUnordered`, what a section needs for its members to be read in any order, and
  `document_restoresSorted`.
-/

set_option autoImplicit false
namespace ProxyPlane

/-! ## Dictionaries of different keys -/

section Entries

variable {α : Type}

theorem perm_insertEntry {key : String} (value : α) {entries : List (String × α)}
    (h : ∀ e ∈ entries, e.1 ≠ key) :
    (insertEntry key value entries).Perm ((key, value) :: entries) := by
  induction entries with
  | nil => exact List.Perm.refl _
  | cons e rest ih =>
    obtain ⟨k, v⟩ := e
    have hne : key ≠ k := Ne.symm (h (k, v) List.mem_cons_self)
    rw [insertEntry]
    split
    · exact List.Perm.refl _
    · exact ((ih fun e he => h e (List.mem_cons_of_mem _ he)).cons _).trans (List.Perm.swap _ _ _)

theorem Dict.perm_foldl_insert (entries : List (String × α)) (d : Dict α)
    (h : ((d.entries ++ entries).map (·.1)).Nodup) :
    (entries.foldl (fun d e => d.insert e.1 e.2) d).entries.Perm (d.entries ++ entries) := by
  induction entries generalizing d with
  | nil => rw [List.append_nil]; exact List.Perm.refl _
  | cons e rest ih =>
    have hnew : ∀ x ∈ d.entries, x.1 ≠ e.1 := by
      intro x hx heq
      rw [List.map_append, List.nodup_append] at h
      exact h.2.2 x.1 (List.mem_map_of_mem hx) e.1 (by simp) heq
    have hperm : ((d.insert e.1 e.2).entries ++ rest).Perm (d.entries ++ e :: rest) :=
      ((perm_insertEntry e.2 hnew).append_right rest).trans List.perm_middle.symm
    have hnodup : (((d.insert e.1 e.2).entries ++ rest).map (·.1)).Nodup :=
      (hperm.map _).nodup_iff.2 h
    rw [List.foldl_cons]
    exact (ih _ hnodup).trans hperm

/-- **A dictionary of entries with different keys holds just these entries.** -/
theorem Dict.perm_ofList {entries : List (String × α)} (h : (entries.map (·.1)).Nodup) :
    (Dict.ofList entries).entries.Perm entries :=
  Dict.perm_foldl_insert entries Dict.empty (by simpa using h)

theorem Dict.mem_foldl_insert {entries : List (String × α)} {d : Dict α} {e : String × α}
    (h : e ∈ (entries.foldl (fun d e => d.insert e.1 e.2) d).entries) :
    e ∈ d.entries ∨ e ∈ entries := by
  induction entries generalizing d with
  | nil => exact .inl h
  | cons f rest ih =>
    rcases ih h with h | h
    · rcases mem_insertEntry h with rfl | h
      · exact .inr List.mem_cons_self
      · exact .inl h
    · exact .inr (List.mem_cons_of_mem _ h)

theorem Dict.mem_ofList {entries : List (String × α)} {e : String × α}
    (h : e ∈ (Dict.ofList entries).entries) : e ∈ entries := by
  rcases Dict.mem_foldl_insert h with h | h
  · exact absurd h List.not_mem_nil
  · exact h

end Entries

/-! ## Steps that commute -/

/-- The result of both steps does not depend on which is taken first. -/
def StepsCommute {ε σ β : Type} (f : σ → β → Except ε σ) (x y : β) : Prop :=
  ∀ s t u, f s x = .ok t → f t y = .ok u → ∃ t', f s y = .ok t' ∧ f t' x = .ok u

/-- **Steps under different keys that commute may be taken in any order.** -/
theorem foldlM_perm {ε σ γ : Type} {f : σ → String × γ → Except ε σ}
    {es es' : List (String × γ)} (hperm : es.Perm es')
    (hcomm : ∀ x y : String × γ, x.1 ≠ y.1 → StepsCommute f x y)
    (hkeys : (es.map (·.1)).Nodup) {s u : σ} (h : es.foldlM f s = .ok u) :
    es'.foldlM f s = .ok u := by
  induction hperm generalizing s with
  | nil => exact h
  | cons x hperm ih =>
    rw [List.map_cons, List.nodup_cons] at hkeys
    obtain ⟨t, hx, hrest⟩ := bind_eq_ok.1 h
    exact bind_eq_ok.2 ⟨t, hx, ih hkeys.2 hrest⟩
  | swap x y es =>
    have hne : y.1 ≠ x.1 := by
      rw [List.map_cons, List.nodup_cons] at hkeys
      intro heq
      exact hkeys.1 (heq ▸ by simp)
    obtain ⟨t, hy, hrest⟩ := bind_eq_ok.1 h
    obtain ⟨v, hx, hrest⟩ := bind_eq_ok.1 hrest
    obtain ⟨t', hx', hy'⟩ := hcomm y x hne s t v hy hx
    exact bind_eq_ok.2 ⟨t', hx', bind_eq_ok.2 ⟨v, hy', hrest⟩⟩
  | trans hperm _ ih ih' =>
    exact ih' ((hperm.map _).nodup_iff.1 hkeys) (ih hkeys h)

namespace Json

/-! ## Normal forms -/

theorem normalizeItems_eq_map (items : List Json) :
    normalizeItems items = items.map normalize := by
  induction items with
  | nil => rfl
  | cons v items ih => rw [normalizeItems, ih, List.map_cons]

theorem normalizeMembers_eq_map (members : List (String × Json)) :
    normalizeMembers members = members.map fun e => (e.1, e.2.normalize) := by
  induction members with
  | nil => rfl
  | cons e members ih =>
    obtain ⟨k, v⟩ := e
    rw [normalizeMembers, ih, List.map_cons]

/-- The object of a dictionary keeps its order. -/
theorem normalize_ofDict (d : Dict Json) :
    (Json.object d.entries).normalize = .object (d.map normalize).entries := by
  rw [normalize, normalizeMembers_eq_map]
  exact congrArg (fun d : Dict Json => Json.object d.entries)
    (Dict.ofList_entries (d.map normalize))

mutual

/-- **A normal form is its own normal form.** -/
theorem normalize_normalize : (v : Json) → v.normalize.normalize = v.normalize
  | .null => rfl
  | .bool _ => rfl
  | .number _ => rfl
  | .string _ => rfl
  | .array items => by
    rw [normalize, normalize, normalizeItems_normalizeItems items]
  | .object members => by
    rw [normalize, normalize_ofDict]
    congr 1
    have hvalues : ∀ e ∈ (Dict.ofList (normalizeMembers members)).entries, e.2.normalize = e.2 :=
      fun e he => normalize_of_mem_normalizeMembers members e (Dict.mem_ofList he)
    exact (List.map_congr_left fun e he => by rw [hvalues e he]; rfl).trans (List.map_id _)

theorem normalizeItems_normalizeItems : (items : List Json) →
    normalizeItems (normalizeItems items) = normalizeItems items
  | [] => rfl
  | v :: rest => by
    rw [normalizeItems, normalizeItems, normalize_normalize v, normalizeItems_normalizeItems rest]

theorem normalize_of_mem_normalizeMembers : (members : List (String × Json)) →
    ∀ e ∈ normalizeMembers members, e.2.normalize = e.2
  | [] => fun _ he => absurd he List.not_mem_nil
  | (k, v) :: rest => by
    intro e he
    rw [normalizeMembers] at he
    rcases List.mem_cons.1 he with rfl | he
    · exact normalize_normalize v
    · exact normalize_of_mem_normalizeMembers rest e he

end

theorem normalize_ne_null {v : Json} (h : v ≠ .null) : v.normalize ≠ .null := by
  cases v with
  | null => exact absurd rfl h
  | _ => simp [normalize]

/-! ## Basic types -/

/-- The normal form of what a codec writes for a value is read as that value. -/
def Codec.RestoresSorted {α : Type} (c : Codec α) (a : α) : Prop :=
  c.Reads (c.encode a).normalize a

theorem restoresSorted_string (s : String) : Codec.string.RestoresSorted s := rfl

theorem restoresSorted_list {α : Type} {c : Codec α} {xs : List α}
    (h : ∀ a ∈ xs, c.RestoresSorted a) : (Codec.list c).RestoresSorted xs := by
  show (Codec.list c).Reads (Json.array (xs.map c.encode)).normalize xs
  rw [normalize, normalizeItems_eq_map, List.map_map]
  exact reads_list h

theorem restoresSorted_dict {α : Type} {c : Codec α} {d : Dict α}
    (h : ∀ e ∈ d.entries, c.RestoresSorted e.2) : (Codec.dict c).RestoresSorted d := by
  have hform : (Json.object (d.map c.encode).entries).normalize =
      .object (d.map fun a => (c.encode a).normalize).entries := by
    rw [normalize_ofDict]
    simp only [Dict.map, List.map_map]
    rfl
  show (Codec.dict c).Reads (Json.object (d.map c.encode).entries).normalize d
  rw [hform]
  exact reads_dict h

theorem restoresSorted_any {v : Json} (h : v.normalize = v) : Codec.any.RestoresSorted v := by
  show Codec.any.Reads v.normalize v
  rw [h]
  exact restores_any h

/-! ## Sections -/

section Section

variable {σ : Type}

/-- Reading two members gives the same object in both orders. -/
def Member.Commutes (m n : Member σ) : Prop :=
  ∀ v w s t u, m.read v s = .ok t → n.read w t = .ok u →
    ∃ t', n.read w s = .ok t' ∧ m.read v t' = .ok u

/-- Members whose values are put into different fields commute. -/
theorem Member.commutes_of_set {α β : Type} {m n : Member σ} {f : Scan → Except Error α}
    {g : Scan → Except Error β} {set : α → σ → σ} {set' : β → σ → σ}
    (hm : ∀ v s, m.read v s = (f v).map fun a => set a s)
    (hn : ∀ v s, n.read v s = (g v).map fun a => set' a s)
    (hset : ∀ a b s, set a (set' b s) = set' b (set a s)) : m.Commutes n := by
  intro v w s t u ht hu
  rw [hm] at ht
  rw [hn] at hu
  obtain ⟨a, ha, rfl⟩ := map_eq_ok.1 ht
  obtain ⟨b, hb, rfl⟩ := map_eq_ok.1 hu
  refine ⟨set' b s, ?_, ?_⟩
  · rw [hn, hb]
    rfl
  · rw [hm, ha, ← hset]
    rfl

/-- The value of the member is put into a field other than that of the unknown members. -/
def Member.LeavesExtra (m : Member σ) (extra : σ → Dict Json) (setExtra : Dict Json → σ → σ) :
    Prop :=
  (∀ v s t, m.read v s = .ok t → extra t = extra s) ∧
    ∀ v s e, m.read v (setExtra e s) = (m.read v s).map (setExtra e)

theorem Member.leavesExtra_of_set {α : Type} {m : Member σ} {extra : σ → Dict Json}
    {setExtra : Dict Json → σ → σ} {f : Scan → Except Error α} {set : α → σ → σ}
    (hm : ∀ v s, m.read v s = (f v).map fun a => set a s)
    (hextra : ∀ a s, extra (set a s) = extra s)
    (hset : ∀ a e s, set a (setExtra e s) = setExtra e (set a s)) :
    m.LeavesExtra extra setExtra := by
  constructor
  · intro v s t ht
    rw [hm] at ht
    obtain ⟨a, ha, rfl⟩ := map_eq_ok.1 ht
    exact hextra a s
  · intro v s e
    rw [hm, hm]
    cases f v with
    | error x => rfl
    | ok a => exact congrArg Except.ok (hset a e s)

/-- What a section needs for its members to be read in any order. -/
structure IsUnordered (members : List (Member σ)) (extra : σ → Dict Json)
    (setExtra : Dict Json → σ → σ) : Prop where
  commutes : ∀ m ∈ members, ∀ n ∈ members, m.key ≠ n.key → m.Commutes n
  leavesExtra : ∀ m ∈ members, m.LeavesExtra extra setExtra

variable {start : σ} {members : List (Member σ)} {extra : σ → Dict Json}
  {setExtra : Dict Json → σ → σ}

/-- Two members may be read in either order. -/
structure Member.Independent (m n : Member σ) : Prop where
  commutes : m.Commutes n
  symm : n.Commutes m

theorem Member.independent_of_set {α β : Type} {m n : Member σ} {f : Scan → Except Error α}
    {g : Scan → Except Error β} {set : α → σ → σ} {set' : β → σ → σ}
    (hm : ∀ v s, m.read v s = (f v).map fun a => set a s)
    (hn : ∀ v s, n.read v s = (g v).map fun a => set' a s)
    (hset : ∀ a b s, set a (set' b s) = set' b (set a s)) : m.Independent n :=
  ⟨commutes_of_set hm hn hset, commutes_of_set hn hm fun b a s => (hset a b s).symm⟩

theorem IsUnordered.of_pairwise (hmembers : members.Pairwise Member.Independent)
    (hextra : ∀ m ∈ members, m.LeavesExtra extra setExtra) :
    IsUnordered members extra setExtra where
  commutes m hm n hn := by
    have hpairs : members.Pairwise fun m n => m.key ≠ n.key → m.Commutes n :=
      hmembers.imp fun h _ => h.commutes
    exact hpairs.forall_of_forall_of_flip (fun m _ h => absurd rfl h)
      (hmembers.imp fun h _ => h.symm) hm hn
  leavesExtra := hextra

theorem mem_of_findMember {m : Member σ} {key : String} (h : findMember members key = some m) :
    m ∈ members ∧ m.key = key := by
  refine ⟨List.mem_of_find?_eq_some h, ?_⟩
  simpa using List.find?_some h

theorem keepUnknown_eq_ok {k : String} {v : Scan} {s t : σ} :
    keepUnknown extra setExtra k v s = .ok t ↔
      ∃ w, readAny v = .ok w ∧ setExtra ((extra s).insert k w) s = t := by
  show (readAny v).bind (fun w => .ok (setExtra ((extra s).insert k w) s)) = .ok t ↔ _
  rw [bind_eq_ok]
  simp only [Except.ok.injEq]

/-- The members of a section may be read in any order. -/
theorem readEntry_commute (hsection : IsSection start members extra setExtra)
    (hunordered : IsUnordered members extra setExtra) (x y : String × Json) (hxy : x.1 ≠ y.1) :
    StepsCommute (readEntry members (keepUnknown extra setExtra)) x y := by
  intro s t u hx hy
  rw [readEntry] at hx hy
  simp only [readEntry]
  -- a declared member sets a field of its own, and any other is kept under its own key
  cases hfx : findMember members x.1 with
  | some m =>
    obtain ⟨hm, hmk⟩ := mem_of_findMember hfx
    rw [hfx] at hx
    cases hfy : findMember members y.1 with
    | some n =>
      obtain ⟨hn, hnk⟩ := mem_of_findMember hfy
      rw [hfy] at hy
      exact hunordered.commutes m hm n hn (hmk ▸ hnk ▸ hxy) _ _ s t u hx hy
    | none =>
      rw [hfy] at hy
      obtain ⟨w, hw, rfl⟩ := keepUnknown_eq_ok.1 hy
      obtain ⟨hextra, hset⟩ := hunordered.leavesExtra m hm
      refine ⟨_, keepUnknown_eq_ok.2 ⟨w, hw, rfl⟩, ?_⟩
      rw [hextra _ s t hx]
      exact (hset _ s _).trans (map_eq_ok.2 ⟨t, hx, rfl⟩)
  | none =>
    rw [hfx] at hx
    obtain ⟨v, hv, rfl⟩ := keepUnknown_eq_ok.1 hx
    cases hfy : findMember members y.1 with
    | some n =>
      obtain ⟨hn, hnk⟩ := mem_of_findMember hfy
      rw [hfy] at hy
      obtain ⟨hextra, hset⟩ := hunordered.leavesExtra n hn
      obtain ⟨t', ht', rfl⟩ := map_eq_ok.1 ((hset _ s _).symm.trans hy)
      refine ⟨t', ht', keepUnknown_eq_ok.2 ⟨v, hv, ?_⟩⟩
      rw [hextra _ s t' ht']
    | none =>
      rw [hfy] at hy
      obtain ⟨w, hw, rfl⟩ := keepUnknown_eq_ok.1 hy
      refine ⟨_, keepUnknown_eq_ok.2 ⟨w, hw, rfl⟩, keepUnknown_eq_ok.2 ⟨v, hv, ?_⟩⟩
      rw [hsection.extra_setExtra, hsection.extra_setExtra, hsection.setExtra_setExtra,
        hsection.setExtra_setExtra, Dict.insert_comm _ hxy]

/-- **A section whose members may be read in any order is restored from its normal form.** -/
theorem document_restoresSorted (hsection : IsSection start members extra setExtra)
    (hunordered : IsUnordered members extra setExtra) {s t : σ}
    (hmembers : restoreAll normalize members s start = .ok t) (hextra : extra t = Dict.empty)
    (hunknown : AreUnknown members (extra s)) (hs : setExtra (extra s) t = s) :
    (Codec.document start members extra setExtra).RestoresSorted s := by
  have hread := foldlM_written hsection hmembers hextra hunknown hs
  have hform : (normalizeMembers (writeMembers members s ++ (extra s).entries)) =
      (writeMembers members s).map (fun e => (e.1, e.2.normalize)) ++ (extra s).entries := by
    rw [normalizeMembers_eq_map, List.map_append]
    congr 1
    exact (List.map_congr_left fun e he => by rw [(hunknown e he).2]; rfl).trans (List.map_id _)
  have hkeys :
      ((normalizeMembers (writeMembers members s ++ (extra s).entries)).map (·.1)).Nodup := by
    rw [normalizeMembers_eq_map, List.map_map]
    exact nodup_written hsection.keys hunknown
  have hperm := Dict.perm_ofList hkeys
  show (Codec.document start members extra setExtra).Reads
    (Json.object (writeMembers members s ++ (extra s).entries)).normalize s
  rw [normalize]
  refine reads_document hsection ((hperm.map _).nodup_iff.2 hkeys) ?_
  rw [← hform] at hread
  exact foldlM_perm hperm.symm (readEntry_commute hsection hunordered) hkeys hread

end Section

end Json
end ProxyPlane
