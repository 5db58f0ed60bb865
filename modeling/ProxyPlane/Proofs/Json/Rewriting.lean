import Mathlib.Data.List.Forall2
import ProxyPlane.Proofs.Json.Order

/-!
# Writing again what was read

A codec reads more than it writes: keys in any order, fields that may be absent, fields with an
empty value.  What it reads and writes again differs from the value only as its type declares, and
is read as the same once more.

## What is here

* `Change`, what may become of a value, with `Change.list`, `Change.dict` and `Change.object`.
* `Declared`, a field that an object type declares, and `Declared.Allows`, what may become of it.
* `Codec.Rewrites c change`: what `c` reads and writes again has changed as `change` says, and is
  restored from its normal form.
* `rewrites_string`, `rewrites_list` and so on: what the basic codecs change.
-/

set_option autoImplicit false
namespace ProxyPlane
namespace Json

/-! ## Changes -/

/-- What may become of a value: a relation of its normal form to that of what is written. -/
abbrev Change := Json → Json → Prop

/-- When the value of a field is written. -/
inductive Presence
  /-- Always; a field that is absent has the default. -/
  | always (default : Json)
  /-- Unless it is empty; a field that is absent has the empty value. -/
  | unlessEmpty (empty : Json)
  /-- Unless there is none; `null` is none. -/
  | optional

/-- The value that means the same as an absent field. -/
def Presence.absent : Presence → Json
  | always default => default
  | unlessEmpty empty => empty
  | optional => .null

/-- A field that an object type declares. -/
structure Declared where
  key : String
  presence : Presence
  change : Change

/-- What may become of a declared field of an object. -/
inductive Declared.Allows (f : Declared) : Option Json → Option Json → Prop
  | kept {v w : Json} (h : f.change v w) : f.Allows (some v) (some w)
  | filledIn {default : Json} (h : f.presence = .always default) : f.Allows none (some default)
  | emptyLeftOut {v empty : Json} (h : f.presence = .unlessEmpty empty)
      (hv : f.change v empty) : f.Allows (some v) none
  | nullLeftOut (h : f.presence = .optional) : f.Allows (some .null) none
  | absent (h : ∀ default, f.presence ≠ .always default) : f.Allows none none

/-- What may become of the members of an object: those that are declared change, and all others
stay as they are. -/
structure MembersChange (fields : List Declared) (d e : Dict Json) : Prop where
  declared : ∀ f ∈ fields, f.Allows (d.get? f.key) (e.get? f.key)
  undeclared : ∀ k, (∀ f ∈ fields, f.key ≠ k) → e.get? k = d.get? k

namespace Change

/-- Nothing changes. -/
def same : Change := fun v w => w = v

/-- The elements of an array change. -/
def list (item : Change) : Change := fun v w =>
  ∃ vs ws, v = .array vs ∧ w = .array ws ∧ List.Forall₂ item vs ws

/-- The keys of an object stay, and the values under them change. -/
def dict (value : Change) : Change := fun v w =>
  ∃ d e : Dict Json, v = .ofDict d ∧ w = .ofDict e ∧
    ∀ k, Option.Rel value (d.get? k) (e.get? k)

/-- The members of an object change. -/
def object (fields : List Declared) : Change := fun v w =>
  ∃ d e : Dict Json, v = .ofDict d ∧ w = .ofDict e ∧ MembersChange fields d e

end Change

/-- What a codec reads and writes again has changed as stated, and is read as before. -/
structure Codec.Rewrites {α : Type} (c : Codec α) (change : Change) : Prop where
  restores : ∀ {v : Json} {a : α}, c.Reads v a → c.RestoresSorted a
  changes : ∀ {v : Json} {a : α}, c.Reads v a → change v.normalize (c.encode a).normalize
  null : ∀ {v : Json} {a : α}, c.Reads v a → (c.encode a).normalize = .null → v = .null

/-- A value is read just as its tree is. -/
theorem ofValue_eq_ok {α : Type} {c : Codec α} {v : Json} {a : α} :
    c.ofValue v = .ok a ↔ c.Reads v a := by
  rw [Codec.ofValue, Codec.Reads]
  split
  · rename_i h
    rw [h]
    constructor
    · intro hok
      cases hok
    · intro hok
      cases hok
  · exact Iff.rfl

/-! ## Basic types -/

/-- A codec that reads only what it writes changes nothing. -/
theorem rewrites_of_reads {α : Type} {c : Codec α}
    (h : ∀ {v : Json} {a : α}, c.Reads v a → v = c.encode a ∧ v.normalize = v) :
    c.Rewrites .same where
  restores {v a} hv := by
    obtain ⟨rfl, hnormal⟩ := h hv
    rw [Codec.RestoresSorted, hnormal]
    exact hv
  changes {v a} hv := by rw [(h hv).1]; rfl
  null {v a} hv hnull := by
    obtain ⟨rfl, hnormal⟩ := h hv
    rw [← hnormal, hnull]

theorem rewrites_string : Codec.string.Rewrites .same :=
  rewrites_of_reads fun {v a} h => by
    cases v with
    | string s => cases h; exact ⟨rfl, rfl⟩
    | _ => exact absurd h nofun

theorem rewrites_bool : Codec.bool.Rewrites .same :=
  rewrites_of_reads fun {v a} h => by
    cases v with
    | bool b => cases h; exact ⟨rfl, rfl⟩
    | _ => exact absurd h nofun

theorem rewrites_nat (bound : Nat) : (Codec.nat bound).Rewrites .same :=
  rewrites_of_reads fun {v a} h => by
    cases v with
    | number n =>
      cases n with
      | int i =>
        rw [Codec.Reads, Scan.ofJson, Codec.nat] at h
        dsimp only at h
        split at h
        · rename_i hi
          cases h
          refine ⟨?_, rfl⟩
          show Json.number (.int i) = .number (.int (i.toNat : Int))
          rw [Int.toNat_of_nonneg hi.1]
        · cases h
      | float x => cases h
    | _ => cases h

theorem ofDict_injective {d e : Dict Json} (h : ofDict d = ofDict e) : d = e :=
  Dict.ext_entries (Json.object.inj h)

theorem normalize_ofDict_of_forall {d : Dict Json} (h : ∀ e ∈ d.entries, e.2.normalize = e.2) :
    (ofDict d).normalize = ofDict d := by
  have hmap : d.map normalize = d :=
    Dict.ext_entries ((List.map_congr_left fun e he => by rw [h e he]; rfl).trans (List.map_id _))
  rw [ofDict, normalize_ofDict, hmap]

theorem eq_normalize_of_reads_any {v w : Json} (h : Codec.any.Reads v w) : w = v.normalize :=
  (Except.ok.inj ((readAny_ofJson v).symm.trans h)).symm

/-- Values of any shape are kept in normal form. -/
theorem rewrites_any : Codec.any.Rewrites .same where
  restores {v w} h := by
    rw [eq_normalize_of_reads_any h]
    exact restoresSorted_any (normalize_normalize v)
  changes {v w} h := by
    rw [eq_normalize_of_reads_any h]
    exact normalize_normalize v
  null {v w} h hnull := by
    rw [eq_normalize_of_reads_any h] at hnull
    refine Classical.byContradiction fun hv => ?_
    exact normalize_ne_null (normalize_ne_null hv) hnull

/-! ## Arrays and dictionaries -/

theorem forall₂_of_readItems {α : Type} {c : Codec α} {vs : List Json} {xs : List α}
    (h : readItems c.read (vs.map Scan.ofJson) = .ok xs) : List.Forall₂ c.Reads vs xs := by
  induction vs generalizing xs with
  | nil => cases h; exact .nil
  | cons v vs ih =>
    obtain ⟨x, hx, h⟩ := bind_eq_ok.1 h
    obtain ⟨rest, hrest, h⟩ := bind_eq_ok.1 h
    cases h
    exact .cons hx (ih hrest)

theorem exists_of_reads_list {α : Type} {c : Codec α} {v : Json} {xs : List α}
    (h : (Codec.list c).Reads v xs) : ∃ vs, v = .array vs ∧ List.Forall₂ c.Reads vs xs := by
  cases v with
  | array vs =>
    rw [Codec.Reads, Scan.ofJson, ofItems_eq_map] at h
    obtain ⟨ys, hys, h⟩ := bind_eq_ok.1 h
    cases h
    exact ⟨vs, rfl, forall₂_of_readItems hys⟩
  | _ => cases h

/-- Every element of the second of two lists is paired with one of the first. -/
theorem exists_of_mem_forall₂ {α β : Type} {R : α → β → Prop} {xs : List α} {ys : List β}
    (h : List.Forall₂ R xs ys) {y : β} (hy : y ∈ ys) : ∃ x ∈ xs, R x y := by
  induction h with
  | nil => exact absurd hy List.not_mem_nil
  | cons hxy _ ih =>
    rcases List.mem_cons.1 hy with rfl | hy
    · exact ⟨_, List.mem_cons_self, hxy⟩
    · obtain ⟨x, hx, hr⟩ := ih hy
      exact ⟨x, List.mem_cons_of_mem _ hx, hr⟩

/-- What all pairs of two lists have, all elements of the second have. -/
theorem forall_mem_of_forall₂ {α β : Type} {R : α → β → Prop} {p : β → Prop} {xs : List α}
    {ys : List β} (h : List.Forall₂ R xs ys) (hp : ∀ x y, R x y → p y) : ∀ y ∈ ys, p y := by
  intro y hy
  obtain ⟨x, -, hxy⟩ := exists_of_mem_forall₂ h hy
  exact hp x y hxy

theorem rewrites_list {α : Type} {c : Codec α} {change : Change} (hc : c.Rewrites change) :
    (Codec.list c).Rewrites (.list change) where
  restores {v xs} h := by
    obtain ⟨vs, rfl, hvs⟩ := exists_of_reads_list h
    exact restoresSorted_list (forall_mem_of_forall₂ hvs fun _ _ => hc.restores)
  changes {v xs} h := by
    obtain ⟨vs, rfl, hvs⟩ := exists_of_reads_list h
    refine ⟨vs.map normalize, xs.map fun a => (c.encode a).normalize, ?_, ?_, ?_⟩
    · rw [normalize, normalizeItems_eq_map]
    · show (Json.array (xs.map c.encode)).normalize = _
      rw [normalize, normalizeItems_eq_map, List.map_map]
      rfl
    · rw [List.forall₂_map_left_iff, List.forall₂_map_right_iff]
      exact hvs.imp fun _ _ => hc.changes
  null {v xs} _ hnull := absurd hnull (normalize_ne_null nofun)

/-- Some value of a normal form is read as the value. -/
def Codec.ReadsForm {α : Type} (c : Codec α) (form : Json) (a : α) : Prop :=
  ∃ v : Json, v.normalize = form ∧ c.Reads v a

theorem rel_of_readMembers {α : Type} {c : Codec α} {es : List (String × Json)} {d : Dict Json}
    {x y : Dict α} (hx : ∀ k, Option.Rel c.ReadsForm (d.get? k) (x.get? k))
    (h : readMembers c.read (Scan.ofMembers es) x = .ok y) (k : String) :
    Option.Rel c.ReadsForm
      (((normalizeMembers es).foldl (fun d e => d.insert e.1 e.2) d).get? k) (y.get? k) := by
  induction es generalizing d x with
  | nil => cases h; exact hx k
  | cons e es ih =>
    obtain ⟨key, v⟩ := e
    obtain ⟨a, ha, h⟩ := bind_eq_ok.1 h
    refine ih (d := d.insert key v.normalize) (fun j => ?_) h
    rw [Dict.get?_insert, Dict.get?_insert]
    by_cases hj : j = key
    · rw [if_pos hj, if_pos hj]
      exact .some ⟨v, rfl, ha⟩
    · rw [if_neg hj, if_neg hj]
      exact hx j

theorem exists_of_reads_dict {α : Type} {c : Codec α} {v : Json} {x : Dict α}
    (h : (Codec.dict c).Reads v x) :
    ∃ d : Dict Json, v.normalize = .ofDict d ∧
      ∀ k, Option.Rel c.ReadsForm (d.get? k) (x.get? k) := by
  cases v with
  | object es =>
    obtain ⟨y, hy, h⟩ := bind_eq_ok.1 h
    cases h
    exact ⟨_, rfl, rel_of_readMembers (fun _ => .none) hy⟩
  | _ => exact absurd h nofun

/-- The values of a free object are kept in normal form. -/
theorem normalize_of_reads_fields {v : Json} {d : Dict Json} (h : Codec.fields.Reads v d) :
    v.normalize = .ofDict d ∧ ∀ e ∈ d.entries, e.2.normalize = e.2 := by
  obtain ⟨x, hx, hrel⟩ := exists_of_reads_dict h
  have hform : ∀ {w form : Json}, Codec.any.ReadsForm form w → w = form ∧ w.normalize = w := by
    rintro w - ⟨u, rfl, hu⟩
    rw [eq_normalize_of_reads_any hu]
    exact ⟨rfl, normalize_normalize u⟩
  constructor
  · rw [hx]
    refine congrArg ofDict (Dict.ext_get? fun k => ?_)
    have hk := hrel k
    generalize x.get? k = o at hk
    generalize d.get? k = p at hk
    cases hk with
    | none => rfl
    | some h => rw [(hform h).1]
  · intro e he
    have hk := hrel e.1
    rw [Dict.get?_of_mem he] at hk
    generalize x.get? e.1 = o at hk
    cases hk with
    | some h => exact (hform h).2

theorem rewrites_dict {α : Type} {c : Codec α} {change : Change} (hc : c.Rewrites change) :
    (Codec.dict c).Rewrites (.dict change) where
  restores {v x} h := by
    obtain ⟨d, -, hrel⟩ := exists_of_reads_dict h
    refine restoresSorted_dict fun e he => ?_
    have hk := hrel e.1
    rw [Dict.get?_of_mem he] at hk
    generalize d.get? e.1 = o at hk
    cases hk with
    | some hform =>
      obtain ⟨w, -, hw⟩ := hform
      exact hc.restores hw
  changes {v x} h := by
    obtain ⟨d, hd, hrel⟩ := exists_of_reads_dict h
    refine ⟨d, x.map fun a => (c.encode a).normalize, hd, ?_, fun k => ?_⟩
    · show (Json.object (x.map c.encode).entries).normalize = _
      rw [normalize_ofDict]
      simp only [Dict.map, List.map_map]
      rfl
    · have hk := hrel k
      rw [Dict.get?_map]
      generalize d.get? k = o at hk
      generalize x.get? k = p at hk
      cases hk with
      | none => exact .none
      | some hform =>
        obtain ⟨w, rfl, hw⟩ := hform
        exact .some (hc.changes hw)
  null {v x} _ hnull := absurd hnull (normalize_ne_null nofun)

end Json
end ProxyPlane
