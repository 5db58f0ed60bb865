import ProxyPlane.Proofs.Json.Sections

/-!
# Parts of values

A path selects values inside a value, several of them where it branches.  What a section reads of a
value and what a path selects in it are followed side by side, a step at a time.

## What is here

* `Step` and `select`, the values at the end of a path.
* `Codec.ReadsMember`: what stands under a key is read as a value, or the default is taken.
* `readsMember_of_readsForm`: every member of a section is read so.
* `Codec.ReadsMember.select`, `exists_of_select_elements` and `exists_of_select_members`: a step of
  a path is a step of what is read.
-/

set_option autoImplicit false
namespace ProxyPlane
namespace Json

/-! ## Paths -/

/-- A step from a value to those inside it. -/
inductive Step
  /-- To the member under a key of an object. -/
  | member (key : String)
  /-- To all members of an object. -/
  | members
  /-- To all elements of an array. -/
  | elements

/-- Where a step leads: nowhere in a value of another kind. -/
def Step.targets : Step → Json → List Json
  | member key, v => (v.member? key).toList
  | members, object ms => ms.map (·.2)
  | elements, array vs => vs
  | _, _ => []

/-- The values at the end of a path. -/
def select : List Step → Json → List Json
  | [], v => [v]
  | step :: path, v => (step.targets v).flatMap (select path)

theorem mem_select_cons {step : Step} {path : List Step} {v x : Json} :
    x ∈ select (step :: path) v ↔ ∃ w ∈ step.targets v, x ∈ select path w :=
  List.mem_flatMap

/-! ## Normal forms that are read -/

section Forms

variable {α : Type} {c : Codec α} {form : Json}

theorem eq_of_readsForm_string {s : String} (h : Codec.string.ReadsForm form s) :
    form = .string s := by
  obtain ⟨v, rfl, hv⟩ := h
  rw [← rewrites_string.changes hv]
  rfl

theorem exists_of_readsForm_list {xs : List α} (h : (Codec.list c).ReadsForm form xs) :
    ∃ forms, form = .array forms ∧ List.Forall₂ c.ReadsForm forms xs := by
  obtain ⟨v, rfl, hv⟩ := h
  obtain ⟨vs, rfl, hvs⟩ := exists_of_reads_list hv
  refine ⟨vs.map normalize, ?_, ?_⟩
  · rw [normalize, normalizeItems_eq_map]
  · rw [List.forall₂_map_left_iff]
    exact hvs.imp fun v _ hread => ⟨v, rfl, hread⟩

theorem eq_of_readsForm_strings {xs : List String}
    (h : (Codec.list Codec.string).ReadsForm form xs) : form = .array (xs.map .string) := by
  obtain ⟨forms, rfl, hforms⟩ := exists_of_readsForm_list h
  have heq : List.Forall₂ Eq forms (xs.map .string) :=
    List.forall₂_map_right_iff.2 (hforms.imp fun _ _ => eq_of_readsForm_string)
  rw [List.forall₂_eq_eq_eq] at heq
  rw [heq]

theorem exists_of_readsForm_dict {xs : Dict α} (h : (Codec.dict c).ReadsForm form xs) :
    ∃ d : Dict Json, form = .ofDict d ∧
      ∀ e ∈ d.entries, ∃ a, (e.1, a) ∈ xs.entries ∧ c.ReadsForm e.2 a := by
  obtain ⟨v, rfl, hv⟩ := h
  obtain ⟨d, hd, hrel⟩ := exists_of_reads_dict hv
  refine ⟨d, hd, fun e he => ?_⟩
  have hread := hrel e.1
  rw [Dict.get?_of_mem he] at hread
  cases hget : xs.get? e.1 with
  | none =>
    rw [hget] at hread
    cases hread
  | some a =>
    rw [hget] at hread
    cases hread with
    | some hread => exact ⟨a, Dict.mem_of_get? hget, hread⟩

/-- An optional value is `null`, or it is read as the value. -/
theorem readsForm_option {o : Option α} (h : c.option.ReadsForm form o) :
    (form = .null ∧ o = none) ∨ ∃ a, o = some a ∧ c.ReadsForm form a := by
  obtain ⟨v, rfl, hv⟩ := h
  by_cases hnull : v = .null
  · subst hnull
    exact .inl ⟨rfl, (Except.ok.inj hv).symm⟩
  · rw [Codec.Reads, read_option hnull] at hv
    obtain ⟨a, ha, rfl⟩ := map_eq_ok.1 hv
    exact .inr ⟨a, rfl, v, rfl, ha⟩

/-- An optional value is `null`, or it has the shape of what is read. -/
theorem eq_null_or_of_readsForm_option {p : Json → Prop} {o : Option α}
    (h : c.option.ReadsForm form o) (hp : ∀ a, c.ReadsForm form a → p form) :
    form = .null ∨ p form := by
  rcases readsForm_option h with ⟨hnull, -⟩ | ⟨a, -, ha⟩
  · exact .inl hnull
  · exact .inr (hp a ha)

end Forms

/-! ## Members of sections -/

/-- What stands under a key of a normal form is read as the value; if nothing stands there, the
value is the default. -/
inductive Codec.ReadsMember {α : Type} (c : Codec α) (default : α) : Option Json → α → Prop
  | absent : c.ReadsMember default none default
  | present {form : Json} {a : α} (h : c.ReadsForm form a) : c.ReadsMember default (some form) a

namespace Codec.ReadsMember

variable {α : Type} {c : Codec α} {default a : α} {o : Option Json}

theorem readsForm (h : c.ReadsMember default o a) {form : Json} (ho : o = some form) :
    c.ReadsForm form a := by
  cases h with
  | absent => cases ho
  | present h =>
    cases ho
    exact h

/-- A value other than the default stands there. -/
theorem exists_of_ne (h : c.ReadsMember default o a) (hne : a ≠ default) :
    ∃ form, o = some form ∧ c.ReadsForm form a := by
  cases h with
  | absent => exact absurd rfl hne
  | present h => exact ⟨_, rfl, h⟩

end Codec.ReadsMember

section Members

variable {σ α : Type} {start : σ} {members : List (Member σ)} {extra : σ → Dict Json}
  {setExtra : Dict Json → σ → σ} {m : Member σ} {f : Declared}

/-- What an object has under a field stays until all its members are read. -/
theorem Member.Holds.foldlM (hsection : IsSection start members extra setExtra)
    (hunordered : IsUnordered members extra setExtra) (hm : m ∈ members) (hkey : m.key = f.key)
    (hkeeps : ∀ {v : Json} {s t : σ}, m.read (Scan.ofJson v) s = .ok t → m.Keeps v t)
    {es : List (String × Json)} {d : Dict Json} {s t : σ} (hs : m.Holds f d s)
    (ht : es.foldlM (Json.readEntry members (keepUnknown extra setExtra)) s = .ok t) :
    m.Holds f ((normalizeMembers es).foldl (fun d e => d.insert e.1 e.2) d) t := by
  induction es generalizing d s with
  | nil =>
    cases ht
    exact hs
  | cons e es ih =>
    obtain ⟨u, hu, ht⟩ := bind_eq_ok.1 ht
    exact ih (hs.readEntry hsection hunordered hm hkey hkeeps hu) ht

theorem exists_of_readsForm_document {form : Json} {s : σ}
    (h : (Codec.document start members extra setExtra).ReadsForm form s) :
    ∃ d : Dict Json, form = .ofDict d := by
  obtain ⟨v, rfl, hv⟩ := h
  obtain ⟨es, rfl, -⟩ := exists_of_reads_document hv
  exact ⟨_, rfl⟩

/-- **What a section has in a field is read from what stands under its key.** -/
theorem readsMember_of_readsForm (hsection : IsSection start members extra setExtra)
    (hunordered : IsUnordered members extra setExtra) {c : Codec α} {default : α} {get : σ → α}
    {set : α → σ → σ} (hm : m ∈ members) (hlens : IsLens start default get set)
    (hread : ∀ v s, m.read v s = (c.read v).map fun a => set a s) (absent : Json)
    (habsent : c.Reads absent default) {form : Json} {s : σ}
    (h : (Codec.document start members extra setExtra).ReadsForm form s) :
    c.ReadsMember default (form.member? m.key) (get s) := by
  obtain ⟨v, rfl, hv⟩ := h
  obtain ⟨es, rfl, hs⟩ := exists_of_reads_document hv
  have hstart : m.Keeps absent start := by
    rw [Member.Keeps, hread]
    exact map_eq_ok.2 ⟨default, habsent, hlens.set_start⟩
  have hkeeps : ∀ {v : Json} {s t : σ}, m.read (Scan.ofJson v) s = .ok t → m.Keeps v t := by
    intro v s t ht
    rw [hread] at ht
    rw [Member.Keeps, hread]
    exact hlens.keeps_of_read ht
  have hholds : m.Holds ⟨m.key, .always absent, .same⟩
      (Dict.ofList (normalizeMembers es)) s :=
    Member.Holds.foldlM hsection hunordered hm rfl hkeeps (.inl ⟨rfl, hstart⟩) hs
  have hget : ∀ {v : Json}, m.Keeps v s → c.Reads v (get s) := by
    intro v hv
    rw [Member.Keeps, hread] at hv
    exact hlens.eq_ok_of_keeps hv
  show c.ReadsMember default ((Dict.ofList (normalizeMembers es)).get? m.key) (get s)
  rcases hholds with ⟨hnone, hs⟩ | ⟨v, hsome, hs⟩
  · rw [show _ = none from hnone, ← Except.ok.inj (habsent.symm.trans (hget hs))]
    exact .absent
  · rw [show _ = some v.normalize from hsome]
    exact .present ⟨v, rfl, hget hs⟩

theorem readsMember_always (hsection : IsSection start members extra setExtra)
    (hunordered : IsUnordered members extra setExtra) {key : String} {c : Codec α} {default : α}
    {get : σ → α} {set : α → σ → σ} (hm : .always key c get set ∈ members)
    (hlens : IsLens start default get set) (absent : Json) (habsent : c.Reads absent default)
    {form : Json} {s : σ} (h : (Codec.document start members extra setExtra).ReadsForm form s) :
    c.ReadsMember default (form.member? key) (get s) :=
  readsMember_of_readsForm hsection hunordered hm hlens (fun _ _ => rfl) absent habsent h

theorem readsMember_unlessEmpty (hsection : IsSection start members extra setExtra)
    (hunordered : IsUnordered members extra setExtra) {empty : α → Bool} {key : String}
    {c : Codec α} {default : α} {get : σ → α} {set : α → σ → σ}
    (hm : .unlessEmpty empty key c get set ∈ members) (hlens : IsLens start default get set)
    (absent : Json) (habsent : c.Reads absent default) {form : Json} {s : σ}
    (h : (Codec.document start members extra setExtra).ReadsForm form s) :
    c.ReadsMember default (form.member? key) (get s) :=
  readsMember_of_readsForm hsection hunordered hm hlens (fun _ _ => rfl) absent habsent h

theorem readsMember_optional (hsection : IsSection start members extra setExtra)
    (hunordered : IsUnordered members extra setExtra) {key : String} {c : Codec α}
    {get : σ → Option α} {set : Option α → σ → σ} (hm : .optional key c get set ∈ members)
    (hlens : IsLens start none get set) {form : Json} {s : σ}
    (h : (Codec.document start members extra setExtra).ReadsForm form s) :
    c.option.ReadsMember none (form.member? key) (get s) :=
  readsMember_of_readsForm hsection hunordered hm hlens (fun _ _ => rfl) .null rfl h

end Members

/-! ## Following a path -/

section Following

variable {α : Type} {c : Codec α} {form x : Json} {path : List Step}

theorem Codec.ReadsMember.select {default a : α} {key : String}
    (h : c.ReadsMember default (form.member? key) a)
    (hx : x ∈ form.select (.member key :: path)) :
    ∃ form', c.ReadsForm form' a ∧ x ∈ form'.select path := by
  obtain ⟨form', hform', hx⟩ := mem_select_cons.1 hx
  exact ⟨form', h.readsForm (Option.mem_toList.1 hform'), hx⟩

theorem exists_of_select_option {step : Step} {o : Option α} (h : c.option.ReadsForm form o)
    (hx : x ∈ form.select (step :: path)) : ∃ a, o = some a ∧ c.ReadsForm form a := by
  rcases readsForm_option h with ⟨rfl, -⟩ | h
  · obtain ⟨w, hw, -⟩ := mem_select_cons.1 hx
    cases step <;> cases hw
  · exact h

theorem exists_of_select_elements {xs : List α} (h : (Codec.list c).ReadsForm form xs)
    (hx : x ∈ form.select (.elements :: path)) :
    ∃ a ∈ xs, ∃ form', c.ReadsForm form' a ∧ x ∈ form'.select path := by
  obtain ⟨forms, rfl, hforms⟩ := exists_of_readsForm_list h
  obtain ⟨form', hform', hx⟩ := mem_select_cons.1 hx
  obtain ⟨a, ha, hread⟩ := exists_of_mem_forall₂ hforms.flip hform'
  exact ⟨a, ha, form', hread, hx⟩

theorem exists_of_select_members {xs : Dict α} (h : (Codec.dict c).ReadsForm form xs)
    (hx : x ∈ form.select (.members :: path)) :
    ∃ e ∈ xs.entries, ∃ form', c.ReadsForm form' e.2 ∧ x ∈ form'.select path := by
  obtain ⟨d, rfl, hd⟩ := exists_of_readsForm_dict h
  obtain ⟨form', hform', hx⟩ := mem_select_cons.1 hx
  obtain ⟨e, he, rfl⟩ := List.mem_map.1 hform'
  obtain ⟨a, ha, hread⟩ := hd e he
  exact ⟨(e.1, a), ha, e.2, hread, hx⟩

end Following

end Json
end ProxyPlane
