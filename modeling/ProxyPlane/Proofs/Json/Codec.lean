import ProxyPlane.Json.Codec
import ProxyPlane.Proofs.Json.RoundTrip
import ProxyPlane.Proofs.Outcome

/-!
# Reading back what a codec writes

## What is here

* `Codec.Reads c v a`: the tree of `v` is read as `a`; `Codec.Restores c a` says so of what `c`
  writes for `a`.
* `restores_string` and so on: the basic codecs restore their values.
* `Member.restore`, what reading does with the value that a member wrote; one lemma for each kind
  of member says that it puts the field back.
* `readObject_eq`: an object that holds each key once is read member by member.
* `document_restores`: a section of a document is restored if its members are.
* `decode_pretty` and `decode_compact`: a value whose form fits is restored from its text.
-/

set_option autoImplicit false
namespace ProxyPlane
namespace Json

/-- The tree of the JSON value is read as the value. -/
def Codec.Reads {α : Type} (c : Codec α) (v : Json) (a : α) : Prop :=
  c.read (Scan.ofJson v) = .ok a

/-- The tree of what a codec writes for a value is read as that value. -/
def Codec.Restores {α : Type} (c : Codec α) (a : α) : Prop := c.Reads (c.encode a) a

/-! ## Basic types -/

theorem restores_string (s : String) : Codec.string.Restores s := rfl

theorem restores_bool (b : Bool) : Codec.bool.Restores b := rfl

theorem restores_nat {bound n : Nat} (h : n < bound) : (Codec.nat bound).Restores n := by
  simp [Codec.Restores, Codec.Reads, Codec.nat, Json.ofNat, Scan.ofJson, h]

theorem readItems_map {α : Type} {c : Codec α} {form : α → Json} {xs : List α}
    (h : ∀ a ∈ xs, c.Reads (form a) a) :
    readItems c.read ((xs.map form).map Scan.ofJson) = .ok xs := by
  induction xs with
  | nil => rfl
  | cons a xs ih =>
    have ha : c.read (Scan.ofJson (form a)) = .ok a := h a List.mem_cons_self
    simp only [List.map_cons, readItems, ha, ih fun b hb => h b (List.mem_cons_of_mem _ hb)]
    rfl

theorem reads_list {α : Type} {c : Codec α} {form : α → Json} {xs : List α}
    (h : ∀ a ∈ xs, c.Reads (form a) a) : (Codec.list c).Reads (.array (xs.map form)) xs := by
  simp only [Codec.Reads, Codec.list, Scan.ofJson, ofItems_eq_map, readItems_map h]
  rfl

theorem restores_list {α : Type} {c : Codec α} {xs : List α} (h : ∀ a ∈ xs, c.Restores a) :
    (Codec.list c).Restores xs :=
  reads_list h

theorem readMembers_map {α : Type} {c : Codec α} {form : α → Json} {entries : List (String × α)}
    (d : Dict α) (h : ∀ e ∈ entries, c.Reads (form e.2) e.2) :
    readMembers c.read ((entries.map fun e => (e.1, form e.2)).map
      fun e => (.ok e.1, Scan.ofJson e.2)) d =
      .ok (entries.foldl (fun d e => d.insert e.1 e.2) d) := by
  induction entries generalizing d with
  | nil => rfl
  | cons e entries ih =>
    have he : c.read (Scan.ofJson (form e.2)) = .ok e.2 := h e List.mem_cons_self
    simp only [List.map_cons, readMembers, he, List.foldl_cons]
    exact ih _ fun f hf => h f (List.mem_cons_of_mem _ hf)

theorem reads_dict {α : Type} {c : Codec α} {form : α → Json} {d : Dict α}
    (h : ∀ e ∈ d.entries, c.Reads (form e.2) e.2) :
    (Codec.dict c).Reads (.object (d.map form).entries) d := by
  have hread := readMembers_map Dict.empty h
  rw [show d.entries.foldl (fun d e => d.insert e.1 e.2) Dict.empty = d from
    Dict.ofList_entries d] at hread
  simp only [Codec.Reads, Codec.dict, Dict.map, Scan.ofJson, ofMembers_eq_map, hread]
  rfl

theorem restores_dict {α : Type} {c : Codec α} {d : Dict α} (h : ∀ e ∈ d.entries, c.Restores e.2) :
    (Codec.dict c).Restores d :=
  reads_dict h

/-! ## Values of any shape -/

mutual

/-- **A value is read in normal form.** -/
theorem readAny_ofJson : (v : Json) → readAny (Scan.ofJson v) = .ok v.normalize
  | .null => rfl
  | .bool _ => rfl
  | .number _ => rfl
  | .string _ => rfl
  | .array items => by
    rw [Scan.ofJson, readAny, readAnyItems_ofItems items, normalize]
    rfl
  | .object members => by
    rw [Scan.ofJson, readAny, readAnyMembers_ofMembers members, normalize]
    rfl

theorem readAnyItems_ofItems : (items : List Json) →
    readAnyItems (Scan.ofItems items) = .ok (normalizeItems items)
  | [] => rfl
  | v :: rest => by
    rw [Scan.ofItems, readAnyItems, readAny_ofJson v, readAnyItems_ofItems rest, normalizeItems]
    rfl

theorem readAnyMembers_ofMembers : (members : List (String × Json)) → (d : Dict Json) →
    readAnyMembers (Scan.ofMembers members) d =
      .ok ((normalizeMembers members).foldl (fun d e => d.insert e.1 e.2) d)
  | [], _ => rfl
  | (k, v) :: rest, d => by
    rw [Scan.ofMembers, readAnyMembers, readAny_ofJson v, normalizeMembers, List.foldl_cons]
    exact readAnyMembers_ofMembers rest _

end

theorem restores_any {v : Json} (h : v.normalize = v) : Codec.any.Restores v := by
  have hread := readAny_ofJson v
  rwa [h] at hread

/-- Objects of any values are restored if these are in normal form. -/
theorem restores_fields {d : Dict Json} (h : ∀ e ∈ d.entries, e.2.normalize = e.2) :
    Codec.fields.Restores d :=
  restores_dict fun e he => restores_any (h e he)

/-- Only `null` is no value. -/
theorem read_option {α : Type} {c : Codec α} {v : Json} (h : v ≠ .null) :
    c.option.read (Scan.ofJson v) = (c.read (Scan.ofJson v)).map some := by
  cases v with
  | null => exact absurd rfl h
  | _ => rfl

/-! ## Members

What a member wrote is put back from any form of it that the codec of the member reads: the value as
it was written, or the same value in normal form. -/

namespace Member

variable {σ α : Type} {form : Json → Json}

/-- What reading does to an object `t` with a form of the value that the member wrote for `s`, if it
wrote one. -/
def restore (form : Json → Json) (m : Member σ) (s t : σ) : Except Error σ :=
  match m.write s with
  | none => .ok t
  | some v => m.read (Scan.ofJson (form v)) t

theorem restore_always {key : String} {c : Codec α} {get : σ → α} {set : α → σ → σ} {s t : σ}
    (h : c.Reads (form (c.encode (get s))) (get s)) :
    (always key c get set).restore form s t = .ok (set (get s) t) := by
  rw [Codec.Reads] at h
  simp only [restore, always, h]
  rfl

/-- What is not written is left at its default. -/
theorem restore_unlessEmpty {empty : α → Bool} {key : String} {c : Codec α} {get : σ → α}
    {set : α → σ → σ} {s t : σ} {default : α} (h : c.Reads (form (c.encode (get s))) (get s))
    (hempty : ∀ a, empty a = true → a = default) (hset : set default t = t) :
    (unlessEmpty empty key c get set).restore form s t = .ok (set (get s) t) := by
  rw [Codec.Reads] at h
  cases he : empty (get s) with
  | true =>
    simp only [restore, unlessEmpty, he, if_true]
    rw [hempty _ he, hset]
  | false =>
    simp only [restore, unlessEmpty, he, if_neg Bool.false_ne_true, h]
    rfl

theorem restore_optional {key : String} {c : Codec α} {get : σ → Option α}
    {set : Option α → σ → σ} {s t : σ}
    (h : ∀ a, get s = some a → c.Reads (form (c.encode a)) a ∧ form (c.encode a) ≠ .null)
    (hnone : set none t = t) :
    (optional key c get set).restore form s t = .ok (set (get s) t) := by
  cases hs : get s with
  | none => simp only [restore, optional, hs, Option.map_none, hnone]
  | some a =>
    obtain ⟨ha, hnull⟩ := h a hs
    rw [Codec.Reads] at ha
    simp only [restore, optional, hs, Option.map_some, read_option hnull, ha]
    rfl

end Member

/-! ## Sections of documents -/

section Section

variable {σ : Type} {form : Json → Json}

/-- What reading does to an object `t` with a form of all that some members wrote for `s`. -/
def restoreAll (form : Json → Json) (members : List (Member σ)) (s t : σ) : Except Error σ :=
  members.foldlM (fun t m => m.restore form s t) t

theorem restoreAll_nil (s t : σ) : restoreAll form [] s t = .ok t := rfl

theorem restoreAll_cons {m : Member σ} {ms : List (Member σ)} {s t u v : σ}
    (hm : m.restore form s t = .ok u) (hms : restoreAll form ms s u = .ok v) :
    restoreAll form (m :: ms) s t = .ok v := by
  rw [restoreAll, List.foldlM_cons, hm]
  exact hms

/-- What reading does to an object with one member of a text. -/
def readEntry (members : List (Member σ)) (unknown : String → Scan → σ → Except Error σ) (t : σ)
    (e : String × Json) : Except Error σ :=
  match findMember members e.1 with
  | some m => m.read (Scan.ofJson e.2) t
  | none => unknown e.1 (Scan.ofJson e.2) t

theorem findMember_of_mem {members : List (Member σ)} (hkeys : (members.map (·.key)).Nodup)
    {m : Member σ} (hm : m ∈ members) : findMember members m.key = some m := by
  induction members with
  | nil => exact absurd hm List.not_mem_nil
  | cons n members ih =>
    rw [List.map_cons, List.nodup_cons] at hkeys
    rw [findMember, List.find?_cons]
    rcases List.mem_cons.1 hm with rfl | hm
    · simp
    · have hne : n.key ≠ m.key := fun h => hkeys.1 (h ▸ List.mem_map_of_mem hm)
      simp only [beq_eq_false_iff_ne.2 hne]
      exact ih hkeys.2 hm

theorem findMember_eq_none {members : List (Member σ)} {key : String}
    (h : ∀ m ∈ members, m.key ≠ key) : findMember members key = none := by
  rw [findMember, List.find?_eq_none]
  intro m hm
  simpa using h m hm

/-- **An object with each key once is read by reading its members one after the other.** -/
theorem readObject_eq {members : List (Member σ)}
    {unknown : String → Scan → σ → Except Error σ} {es : List (String × Json)}
    (seen : List String) {t u : σ} (hkeys : (es.map (·.1)).Nodup) (hseen : ∀ e ∈ es, e.1 ∉ seen)
    (h : es.foldlM (readEntry members unknown) t = .ok u) :
    ∃ seen', readObject members unknown seen t (es.map fun e => (.ok e.1, Scan.ofJson e.2)) =
      .ok (u, seen') := by
  induction es generalizing t seen with
  | nil =>
    obtain rfl : t = u := by simpa [pure, Except.pure] using h
    exact ⟨seen, rfl⟩
  | cons e es ih =>
    rw [List.map_cons, List.nodup_cons] at hkeys
    have hrest := fun f hf => hseen f (List.mem_cons_of_mem e hf)
    obtain ⟨t', he, h⟩ := bind_eq_ok.1 h
    rw [readEntry] at he
    rw [List.map_cons, readObject]
    simp only [bind, Except.bind]
    cases hfind : findMember members e.1 with
    | none =>
      rw [hfind] at he
      simp only [he]
      exact ih seen hkeys.2 hrest h
    | some m =>
      rw [hfind] at he
      have hnew : seen.contains e.1 = false := by simpa using hseen e List.mem_cons_self
      simp only [hnew, he]
      -- the key has been seen from now on, but no later one is equal to it
      refine ih _ hkeys.2 (fun f hf hmem => ?_) h
      rcases List.mem_cons.1 hmem with heq | hmem
      · exact hkeys.1 (heq ▸ List.mem_map_of_mem hf)
      · exact hrest f hf hmem

theorem foldlM_writeMembers {members ms : List (Member σ)}
    (unknown : String → Scan → σ → Except Error σ) {s t u : σ}
    (hfind : ∀ m ∈ ms, findMember members m.key = some m) (h : restoreAll form ms s t = .ok u) :
    ((writeMembers ms s).map fun e => (e.1, form e.2)).foldlM (readEntry members unknown) t =
      .ok u := by
  induction ms generalizing t with
  | nil => exact h
  | cons m ms ih =>
    have hrest := fun n hn => hfind n (List.mem_cons_of_mem m hn)
    obtain ⟨t', (hm : m.restore form s t = .ok t'), h⟩ := bind_eq_ok.1 h
    rw [Member.restore] at hm
    cases hw : m.write s with
    | none =>
      rw [hw, Except.ok.injEq] at hm
      subst hm
      simp only [writeMembers, List.filterMap_cons, hw, Option.map_none]
      exact ih hrest h
    | some v =>
      rw [hw] at hm
      simp only [writeMembers, List.filterMap_cons, hw, Option.map_some, List.map_cons,
        List.foldlM_cons]
      refine bind_eq_ok.2 ⟨t', ?_, ih hrest h⟩
      rw [readEntry, hfind m List.mem_cons_self]
      exact hm

/-- What a section of a document needs, apart from its members: the unknown members can be read and
replaced, no key is declared twice, and no member must be there. -/
structure IsSection (start : σ) (members : List (Member σ)) (extra : σ → Dict Json)
    (setExtra : Dict Json → σ → σ) : Prop where
  extra_setExtra : ∀ e s, extra (setExtra e s) = e
  setExtra_extra : ∀ s, setExtra (extra s) s = s
  setExtra_setExtra : ∀ e e' s, setExtra e (setExtra e' s) = setExtra e s
  extra_start : extra start = Dict.empty
  keys : (members.map (·.key)).Nodup
  optional : members.all (fun m => !m.required) = true

/-- Unknown members: in normal form, and under keys that are not declared. -/
def AreUnknown (members : List (Member σ)) (extra : Dict Json) : Prop :=
  ∀ e ∈ extra.entries, (∀ m ∈ members, m.key ≠ e.1) ∧ e.2.normalize = e.2

theorem areUnknown_empty (members : List (Member σ)) : AreUnknown members Dict.empty := by
  intro e he
  exact absurd he List.not_mem_nil

variable {start : σ} {members : List (Member σ)} {extra : σ → Dict Json}
  {setExtra : Dict Json → σ → σ}

/-- What a section of a document does with an unknown member. -/
def keepUnknown (extra : σ → Dict Json) (setExtra : Dict Json → σ → σ) (k : String) (v : Scan)
    (s : σ) : Except Error σ := do
  let v ← readAny v
  return setExtra ((extra s).insert k v) s

/-- Unknown members are put behind those of the object one after the other. -/
theorem foldlM_unknown (hsection : IsSection start members extra setExtra)
    {entries : List (String × Json)}
    (h : ∀ e ∈ entries, (∀ m ∈ members, m.key ≠ e.1) ∧ e.2.normalize = e.2) (t : σ) :
    entries.foldlM (readEntry members (keepUnknown extra setExtra)) t =
      .ok (setExtra (entries.foldl (fun d e => d.insert e.1 e.2) (extra t)) t) := by
  induction entries generalizing t with
  | nil => rw [List.foldl_nil, hsection.setExtra_extra]; rfl
  | cons e entries ih =>
    obtain ⟨hkey, hnormal⟩ := h e List.mem_cons_self
    have hrest := ih (fun f hf => h f (List.mem_cons_of_mem _ hf))
      (setExtra ((extra t).insert e.1 e.2) t)
    rw [hsection.extra_setExtra, hsection.setExtra_setExtra] at hrest
    have hentry : readEntry members (keepUnknown extra setExtra) t e =
        .ok (setExtra ((extra t).insert e.1 e.2) t) := by
      rw [readEntry, findMember_eq_none hkey]
      simp only [keepUnknown, readAny_ofJson, hnormal]
      rfl
    rw [List.foldlM_cons, hentry, List.foldl_cons]
    exact hrest

/-- The keys that are written for a section are all different. -/
theorem nodup_written (hkeys : (members.map (·.key)).Nodup) {s : σ}
    (hunknown : AreUnknown members (extra s)) :
    ((writeMembers members s ++ (extra s).entries).map (·.1)).Nodup := by
  have hmem : ∀ ms : List (Member σ), ∀ e ∈ writeMembers ms s, ∃ m ∈ ms, m.key = e.1 := by
    intro ms e he
    obtain ⟨m, hm, hw⟩ := List.mem_filterMap.1 he
    cases hv : m.write s with
    | none => rw [hv] at hw; exact absurd hw (by simp)
    | some v =>
      rw [hv, Option.map_some, Option.some.injEq] at hw
      exact ⟨m, hm, hw ▸ rfl⟩
  have hwritten : ∀ ms : List (Member σ), (ms.map (·.key)).Nodup →
      ((writeMembers ms s).map (·.1)).Nodup := by
    intro ms hms
    induction ms with
    | nil => exact List.nodup_nil
    | cons m ms ih =>
      rw [List.map_cons, List.nodup_cons] at hms
      cases hw : m.write s with
      | none =>
        simp only [writeMembers, List.filterMap_cons, hw, Option.map_none]
        exact ih hms.2
      | some v =>
        simp only [writeMembers, List.filterMap_cons, hw, Option.map_some, List.map_cons]
        refine List.nodup_cons.2 ⟨fun hk => ?_, ih hms.2⟩
        obtain ⟨e, he, hek⟩ := List.mem_map.1 hk
        obtain ⟨n, hn, hnk⟩ := hmem ms e he
        exact hms.1 (List.mem_map.2 ⟨n, hn, hnk.trans hek⟩)
  rw [List.map_append, List.nodup_append]
  refine ⟨hwritten members hkeys, ?_, ?_⟩
  · exact List.Pairwise.map _ (fun a b h he => String.lt_irrefl _ (he ▸ h)) (extra s).increasing
  · intro k hk l hl hkl
    obtain ⟨e, he, rfl⟩ := List.mem_map.1 hk
    obtain ⟨f, hf, rfl⟩ := List.mem_map.1 hl
    obtain ⟨m, hm, hmk⟩ := hmem members e he
    exact (hunknown f hf).1 m hm (hmk.trans hkl)

/-- All that is written for a section, read in the order in which it is written. -/
theorem foldlM_written (hsection : IsSection start members extra setExtra) {s t : σ}
    (hmembers : restoreAll form members s start = .ok t) (hextra : extra t = Dict.empty)
    (hunknown : AreUnknown members (extra s)) (hs : setExtra (extra s) t = s) :
    ((writeMembers members s).map (fun e => (e.1, form e.2)) ++ (extra s).entries).foldlM
      (readEntry members (keepUnknown extra setExtra)) start = .ok s := by
  have hwritten := foldlM_writeMembers (keepUnknown extra setExtra)
    (fun m hm => findMember_of_mem hsection.keys hm) hmembers
  have hrest := foldlM_unknown hsection hunknown t
  rw [hextra, show (extra s).entries.foldl (fun d e => d.insert e.1 e.2) Dict.empty = extra s from
    Dict.ofList_entries (extra s), hs] at hrest
  rw [List.foldlM_append, hwritten]
  exact hrest

/-- A section is read from any object that has its members, each once. -/
theorem reads_document (hsection : IsSection start members extra setExtra)
    {es : List (String × Json)} {s : σ} (hkeys : (es.map (·.1)).Nodup)
    (h : es.foldlM (readEntry members (keepUnknown extra setExtra)) start = .ok s) :
    (Codec.document start members extra setExtra).Reads (.object es) s := by
  obtain ⟨seen, hread⟩ := readObject_eq [] hkeys (fun _ _ => List.not_mem_nil) h
  have hmissing : checkMissing members seen s = .ok s := by
    rw [checkMissing, List.find?_eq_none.2]
    intro m hm
    have hoptional := List.all_eq_true.1 hsection.optional m hm
    simp only [Bool.not_eq_true'] at hoptional
    simp [hoptional]
  rw [Codec.Reads, Scan.ofJson, ofMembers_eq_map]
  simp only [Codec.document]
  rw [show readObject members (fun k v s => do
      let v ← readAny v
      return setExtra ((extra s).insert k v) s) [] start
      (es.map fun e => (.ok e.1, Scan.ofJson e.2)) = .ok (s, seen) from hread]
  exact hmissing

/-- **A section of a document is restored if its members are**: `t` is the section with all members
put back, and `s` differs from it only in the unknown members. -/
theorem document_restores (hsection : IsSection start members extra setExtra) {s t : σ}
    (hmembers : restoreAll id members s start = .ok t) (hextra : extra t = Dict.empty)
    (hunknown : AreUnknown members (extra s)) (hs : setExtra (extra s) t = s) :
    (Codec.document start members extra setExtra).Restores s := by
  refine reads_document hsection (nodup_written hsection.keys hunknown) ?_
  have h := foldlM_written hsection hmembers hextra hunknown hs
  simpa using h

end Section

/-! ## Whole texts -/

theorem decode_of_scan {α : Type} {c : Codec α} {a : α} (h : c.Restores a) {text : Bytes}
    (hscan : scan text = (Scan.ofJson (c.encode a), .ok [])) : c.decode text = .ok a := by
  rw [Codec.Restores, Codec.Reads] at h
  rw [Codec.decode, hscan]
  simp only [h]
  rfl

/-- **A value is restored from its indented text.** -/
theorem decode_pretty {α : Type} {c : Codec α} {a : α} (h : c.Restores a)
    (hfits : Fits maxDepth (c.encode a)) : c.decode (c.pretty a) = .ok a :=
  decode_of_scan h (scan_pretty hfits)

/-- **A value is restored from its compact text.** -/
theorem decode_compact {α : Type} {c : Codec α} {a : α} (h : c.Restores a)
    (hfits : Fits maxDepth (c.encode a)) : c.decode (c.compact a) = .ok a :=
  decode_of_scan h (scan_compact hfits)

end Json
end ProxyPlane
