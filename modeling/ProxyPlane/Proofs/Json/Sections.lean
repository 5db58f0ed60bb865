import ProxyPlane.Proofs.Json.Rewriting

/-!
# Sections that are read and written again

The members of an object are read into a section one after the other.  What carries the proof is
that a section holds a value just if reading the value once more leaves the section as it is: this
is kept by whatever is read later, because members commute.

## What is here

* `IsField`: a member of a section is a declared field, with its default at the start.
* `Member.Holds`: a section has what an object has under a declared field.  `IsField.allows` says
  what is written for the field then, and `IsField.restore` that it is put back.
* `AreFields` for all members of a section, and `HoldsAll` for all that an object has.
* `Member.Holds.readEntry`: what an object has under one field when another member is read.
* `holdsAll_readEntry` and `holdsAll_foldlM`: one member, and a whole object, read into a section.
* `document_rewrites`: what a section reads and writes again.
-/

set_option autoImplicit false
namespace ProxyPlane
namespace Json

/-! ## Fields -/

section Fields

variable {σ α : Type} {start : σ}

/-- A part of an object that can be read off and replaced, with its value at the start. -/
structure IsLens (start : σ) (default : α) (get : σ → α) (set : α → σ → σ) : Prop where
  get_set : ∀ a s, get (set a s) = a
  set_set : ∀ a b s, set a (set b s) = set a s
  set_start : set default start = start

/-- A member of a section is a declared field.  The last argument puts the field of one object into
another. -/
inductive IsField (start : σ) : Member σ → Declared → (σ → σ → σ) → Prop
  | always {α : Type} {key : String} {c : Codec α} {change : Change} {get : σ → α}
      {set : α → σ → σ} {default : α} {form : Json} (hc : c.Rewrites change)
      (hlens : IsLens start default get set) (hread : c.Reads form default)
      (hform : (c.encode default).normalize = form) :
      IsField start (.always key c get set) ⟨key, .always form, change⟩ fun s t => set (get s) t
  | unlessEmpty {α : Type} {empty : α → Bool} {key : String} {c : Codec α} {change : Change}
      {get : σ → α} {set : α → σ → σ} {default : α} {form : Json} (hc : c.Rewrites change)
      (hlens : IsLens start default get set) (hread : c.Reads form default)
      (hform : (c.encode default).normalize = form)
      (hempty : ∀ a, empty a = true ↔ a = default) :
      IsField start (.unlessEmpty empty key c get set) ⟨key, .unlessEmpty form, change⟩
        fun s t => set (get s) t
  | optional {α : Type} {key : String} {c : Codec α} {change : Change} {get : σ → Option α}
      {set : Option α → σ → σ} (hc : c.Rewrites change) (hlens : IsLens start none get set) :
      IsField start (.optional key c get set) ⟨key, .optional, change⟩ fun s t => set (get s) t

/-- Reading the value under the member leaves the object as it is: the object has it already. -/
def Member.Keeps (m : Member σ) (v : Json) (s : σ) : Prop := m.read (Scan.ofJson v) s = .ok s

/-- The object has the value that the members `d` have under a declared field, or else the one that
means the same as an absent field. -/
def Member.Holds (m : Member σ) (f : Declared) (d : Dict Json) (s : σ) : Prop :=
  (d.get? f.key = none ∧ m.Keeps f.presence.absent s) ∨
    ∃ v : Json, d.get? f.key = some v.normalize ∧ m.Keeps v s

theorem Member.Holds.congr {m : Member σ} {f : Declared} {d e : Dict Json} {s : σ}
    (h : m.Holds f d s) (hde : e.get? f.key = d.get? f.key) : m.Holds f e s := by
  rw [Member.Holds, hde]
  exact h

/-- Whatever is kept of each value is kept of what an object holds. -/
theorem Member.Holds.imp {m n : Member σ} {f : Declared} {d : Dict Json} {s t : σ}
    (h : m.Holds f d s) (hst : ∀ v : Json, m.Keeps v s → n.Keeps v t) : n.Holds f d t := by
  rcases h with ⟨hnone, hs⟩ | ⟨v, hv, hs⟩
  · exact .inl ⟨hnone, hst _ hs⟩
  · exact .inr ⟨v, hv, hst v hs⟩

namespace IsLens

variable {get : σ → α} {set : α → σ → σ} {default : α} {x : Except Error α} {s t : σ}

/-- An object that stays as it is under a value has that value. -/
theorem eq_ok_of_keeps (h : IsLens start default get set)
    (hs : x.map (fun a => set a s) = .ok s) : x = .ok (get s) := by
  obtain ⟨a, ha, hset⟩ := map_eq_ok.1 hs
  have hget : get s = a := by
    conv_lhs => rw [← hset]
    exact h.get_set a s
  rw [ha, hget]

/-- What was put into an object leaves it as it is afterwards. -/
theorem keeps_of_read (h : IsLens start default get set)
    (ht : x.map (fun a => set a s) = .ok t) : x.map (fun a => set a t) = .ok t := by
  obtain ⟨a, ha, rfl⟩ := map_eq_ok.1 ht
  exact map_eq_ok.2 ⟨a, ha, h.set_set a a s⟩

end IsLens

namespace IsField

variable {m : Member σ} {f : Declared} {copy : σ → σ → σ} {d : Dict Json} {s t : σ} {v : Json}

theorem key_eq (h : IsField start m f copy) : m.key = f.key := by
  cases h <;> rfl

/-- At the start an object has what absent fields mean. -/
theorem keeps_start (h : IsField start m f copy) : m.Keeps f.presence.absent start := by
  cases h with
  | always hc hlens hread hform => exact map_eq_ok.2 ⟨_, hread, hlens.set_start⟩
  | unlessEmpty hc hlens hread hform hempty => exact map_eq_ok.2 ⟨_, hread, hlens.set_start⟩
  | optional hc hlens => exact congrArg Except.ok hlens.set_start

/-- An object has the value that was read into it. -/
theorem keeps_of_read (h : IsField start m f copy) (ht : m.read (Scan.ofJson v) s = .ok t) :
    m.Keeps v t := by
  cases h with
  | always hc hlens hread hform => exact hlens.keeps_of_read ht
  | unlessEmpty hc hlens hread hform hempty => exact hlens.keeps_of_read ht
  | optional hc hlens => exact hlens.keeps_of_read ht

/-- A value of an optional field is `null`, or it is read as the value of the field. -/
theorem reads_of_keeps_optional {key : String} {c : Codec α} {get : σ → Option α}
    {set : Option α → σ → σ} (hlens : IsLens start none get set)
    (hs : (Member.optional key c get set).Keeps v s) :
    (v = .null ∧ get s = none) ∨ ∃ a, get s = some a ∧ v ≠ .null ∧ c.Reads v a := by
  have hread : c.option.read (Scan.ofJson v) = .ok (get s) := hlens.eq_ok_of_keeps hs
  by_cases hv : v = .null
  · subst hv
    exact .inl ⟨rfl, (Except.ok.inj hread).symm⟩
  · rw [read_option hv] at hread
    obtain ⟨a, ha, hget⟩ := map_eq_ok.1 hread
    exact .inr ⟨a, hget.symm, hv, ha⟩

/-- **What is written for a declared field is what may become of it.** -/
theorem allows (h : IsField start m f copy) (hs : m.Holds f d s) :
    f.Allows (d.get? f.key) ((m.write s).map normalize) := by
  cases h with
  | always hc hlens hread hform =>
    rcases hs with ⟨hnone, hs⟩ | ⟨v, hv, hs⟩
    · have hdefault := hread.symm.trans (hlens.eq_ok_of_keeps hs)
      rw [hnone]
      refine .filledIn ?_
      show Presence.always _ = .always _
      rw [← hform, Except.ok.inj hdefault]
    · rw [hv]
      exact .kept (hc.changes (hlens.eq_ok_of_keeps hs))
  | @unlessEmpty _ empty key c change get set default form hc hlens hread hform hempty =>
    rcases hs with ⟨hnone, hs⟩ | ⟨v, hv, hs⟩
    · have hdefault := hread.symm.trans (hlens.eq_ok_of_keeps hs)
      have hwrite : (Member.unlessEmpty empty key c get set).write s = none :=
        if_pos ((hempty _).2 (Except.ok.inj hdefault).symm)
      rw [hnone, hwrite]
      exact .absent nofun
    · have hchange := hc.changes (hlens.eq_ok_of_keeps hs)
      rw [hv]
      cases he : empty (get s) with
      | true =>
        have hwrite : (Member.unlessEmpty empty key c get set).write s = none := if_pos he
        rw [(hempty _).1 he, hform] at hchange
        rw [hwrite]
        exact .emptyLeftOut rfl hchange
      | false =>
        have hwrite : (Member.unlessEmpty empty key c get set).write s = some (c.encode (get s)) :=
          if_neg (by simp [he])
        rw [hwrite]
        exact .kept hchange
  | @optional _ key c change get set hc hlens =>
    have hwrite : (Member.optional key c get set).write s = (get s).map c.encode := rfl
    rw [hwrite]
    rcases hs with ⟨hnone, hs⟩ | ⟨v, hv, hs⟩
    · have hget : get s = none := (Except.ok.inj (hlens.eq_ok_of_keeps hs)).symm
      rw [hnone, hget]
      exact .absent nofun
    · rw [hv]
      rcases reads_of_keeps_optional hlens hs with ⟨rfl, hget⟩ | ⟨a, hget, -, ha⟩
      · rw [hget]
        exact .nullLeftOut rfl
      · rw [hget]
        exact .kept (hc.changes ha)

/-- **The field of an object is put back into one that has what absent fields mean.** -/
theorem restore (h : IsField start m f copy) (hs : m.Holds f d s)
    (ht : m.Keeps f.presence.absent t) : m.restore normalize s t = .ok (copy s t) := by
  cases h with
  | always hc hlens hread hform =>
    refine Member.restore_always ?_
    rcases hs with ⟨-, hs⟩ | ⟨v, -, hs⟩
    · exact hc.restores (hlens.eq_ok_of_keeps hs)
    · exact hc.restores (hlens.eq_ok_of_keeps hs)
  | unlessEmpty hc hlens hread hform hempty =>
    refine Member.restore_unlessEmpty ?_ (fun a => (hempty a).1) ?_
    · rcases hs with ⟨-, hs⟩ | ⟨v, -, hs⟩
      · exact hc.restores (hlens.eq_ok_of_keeps hs)
      · exact hc.restores (hlens.eq_ok_of_keeps hs)
    · obtain ⟨a, ha, hset⟩ := map_eq_ok.1 ht
      rwa [Except.ok.inj (ha.symm.trans hread)] at hset
  | optional hc hlens =>
    refine Member.restore_optional (fun a hget => ?_) (Except.ok.inj ht)
    rcases hs with ⟨-, hs⟩ | ⟨v, -, hs⟩
    · rw [← Except.ok.inj (hlens.eq_ok_of_keeps hs)] at hget
      exact absurd hget nofun
    · rcases reads_of_keeps_optional hlens hs with ⟨-, hnone⟩ | ⟨b, hb, hv, hread⟩
      · exact absurd (hnone.symm.trans hget) nofun
      · cases hb.symm.trans hget
        exact ⟨hc.restores hread, fun hnull => hv (hc.null hread hnull)⟩

end IsField

end Fields

/-! ## All members of a section -/

section Section

variable {σ : Type} {start : σ} {members : List (Member σ)} {fields : List Declared}
  {put : σ → σ → σ} {extra : σ → Dict Json} {setExtra : Dict Json → σ → σ}

/-- The members of a section are declared fields.  The last argument puts all fields of one object
into another. -/
inductive AreFields (start : σ) : List (Member σ) → List Declared → (σ → σ → σ) → Prop
  | nil : AreFields start [] [] fun _ t => t
  | cons {m : Member σ} {f : Declared} {copy : σ → σ → σ} {ms : List (Member σ)}
      {fs : List Declared} {put : σ → σ → σ} (h : IsField start m f copy)
      (hs : AreFields start ms fs put) :
      AreFields start (m :: ms) (f :: fs) fun s t => put s (copy s t)

namespace AreFields

theorem exists_isField (h : AreFields start members fields put) :
    ∀ p ∈ members.zip fields, ∃ copy, IsField start p.1 p.2 copy := by
  induction h with
  | nil => exact fun p hp => absurd hp List.not_mem_nil
  | cons h _ ih => exact List.forall_mem_cons.2 ⟨⟨_, h⟩, ih⟩

theorem exists_member (h : AreFields start members fields put) {f : Declared} (hf : f ∈ fields) :
    ∃ m, (m, f) ∈ members.zip fields := by
  induction h with
  | nil => exact absurd hf List.not_mem_nil
  | cons _ _ ih =>
    rcases List.mem_cons.1 hf with rfl | hf
    · exact ⟨_, List.mem_cons_self⟩
    · obtain ⟨n, hn⟩ := ih hf
      exact ⟨n, List.mem_cons_of_mem _ hn⟩

theorem exists_declared (h : AreFields start members fields put) {m : Member σ}
    (hm : m ∈ members) : ∃ f ∈ fields, f.key = m.key := by
  induction h with
  | nil => exact absurd hm List.not_mem_nil
  | cons h _ ih =>
    rcases List.mem_cons.1 hm with rfl | hm
    · exact ⟨_, List.mem_cons_self, h.key_eq.symm⟩
    · obtain ⟨f, hf, hkey⟩ := ih hm
      exact ⟨f, List.mem_cons_of_mem _ hf, hkey⟩

end AreFields

/-- Members that commute do not disturb what an object has under the other. -/
theorem Member.Commutes.keeps {m n : Member σ} (h : n.Commutes m) {v w : Json} {s t : σ}
    (hs : n.Keeps w s) (ht : m.read (Scan.ofJson v) s = .ok t) : n.Keeps w t := by
  obtain ⟨t', ht', hn⟩ := h _ _ s s t hs ht
  rwa [Except.ok.inj (ht'.symm.trans ht)] at hn

/-- **All fields of an object are put back into one that has what absent fields mean.** -/
theorem AreFields.restoreAll (h : AreFields start members fields put)
    (hcommutes : ∀ m ∈ members, ∀ n ∈ members, m.key ≠ n.key → m.Commutes n)
    (hkeys : (members.map (·.key)).Nodup) {d : Dict Json} {s t : σ}
    (hs : ∀ p ∈ members.zip fields, p.1.Holds p.2 d s)
    (ht : ∀ p ∈ members.zip fields, p.1.Keeps p.2.presence.absent t) :
    restoreAll normalize members s t = .ok (put s t) := by
  induction h generalizing t with
  | nil => rfl
  | @cons m f copy ms fs put h hfields ih =>
    rw [List.map_cons, List.nodup_cons] at hkeys
    rw [List.zip_cons_cons, List.forall_mem_cons] at hs ht
    have hcopy := h.restore hs.1 ht.1
    refine restoreAll_cons hcopy (ih (fun n hn n' hn' => ?_) hkeys.2 hs.2 fun p hp => ?_)
    · exact hcommutes n (List.mem_cons_of_mem _ hn) n' (List.mem_cons_of_mem _ hn')
    · -- the fields behind this one still have what absent fields mean
      have hmem : p.1 ∈ ms := (List.of_mem_zip hp).1
      have hne : p.1.key ≠ m.key := fun heq => hkeys.1 (heq ▸ List.mem_map_of_mem hmem)
      have hcommute := hcommutes p.1 (List.mem_cons_of_mem _ hmem) m List.mem_cons_self hne
      rw [Member.restore] at hcopy
      cases hw : m.write s with
      | none =>
        rw [hw] at hcopy
        exact Except.ok.inj hcopy ▸ ht.2 p hp
      | some v =>
        rw [hw] at hcopy
        exact hcommute.keeps (ht.2 p hp) hcopy

/-! ## Reading an object -/

/-- A section has all that the members `d` have: its fields under the keys that are declared, and
everything else as it stands there. -/
structure HoldsAll (members : List (Member σ)) (fields : List Declared) (extra : σ → Dict Json)
    (d : Dict Json) (s : σ) : Prop where
  declared : ∀ p ∈ members.zip fields, p.1.Holds p.2 d s
  reserved : ∀ m ∈ members, (extra s).get? m.key = none
  unknown : ∀ k, (∀ m ∈ members, m.key ≠ k) → (extra s).get? k = d.get? k

theorem holdsAll_start (hsection : IsSection start members extra setExtra)
    (hfields : AreFields start members fields put) :
    HoldsAll members fields extra Dict.empty start where
  declared p hp := by
    obtain ⟨copy, hp⟩ := hfields.exists_isField p hp
    exact .inl ⟨rfl, hp.keeps_start⟩
  reserved m _ := by
    rw [hsection.extra_start]
    rfl
  unknown k _ := by rw [hsection.extra_start]

/-- What an object has under a field stays when one more member is read, and becomes the value of
that member if it is under the same key. -/
theorem Member.Holds.readEntry (hsection : IsSection start members extra setExtra)
    (hunordered : IsUnordered members extra setExtra) {m : Member σ} {f : Declared}
    (hm : m ∈ members) (hkey : m.key = f.key)
    (hkeeps : ∀ {v : Json} {s t : σ}, m.read (Scan.ofJson v) s = .ok t → m.Keeps v t)
    {d : Dict Json} {s t : σ} {e : String × Json} (hs : m.Holds f d s)
    (ht : readEntry members (keepUnknown extra setExtra) s e = .ok t) :
    m.Holds f (d.insert e.1 e.2.normalize) t := by
  rw [Json.readEntry] at ht
  by_cases heq : m.key = e.1
  · rw [← heq, findMember_of_mem hsection.keys hm] at ht
    refine .inr ⟨e.2, ?_, hkeeps ht⟩
    rw [← hkey, heq, Dict.get?_insert, if_pos rfl]
  · have hget : (d.insert e.1 e.2.normalize).get? f.key = d.get? f.key := by
      rw [Dict.get?_insert, ← hkey, if_neg heq]
    cases hfind : findMember members e.1 with
    | some n =>
      rw [hfind] at ht
      obtain ⟨hn, hnkey⟩ := mem_of_findMember hfind
      have hcommute := hunordered.commutes m hm n hn (hnkey ▸ heq)
      exact (hs.imp fun v hv => hcommute.keeps hv ht).congr hget
    | none =>
      rw [hfind] at ht
      obtain ⟨w, -, rfl⟩ := keepUnknown_eq_ok.1 ht
      refine (hs.imp fun v hv => ?_).congr hget
      refine ((hunordered.leavesExtra m hm).2 _ s _).trans ?_
      exact map_eq_ok.2 ⟨s, hv, rfl⟩

/-- **One more member is read into a section.** -/
theorem holdsAll_readEntry (hsection : IsSection start members extra setExtra)
    (hunordered : IsUnordered members extra setExtra)
    (hfields : AreFields start members fields put) {d : Dict Json} {s t : σ} {e : String × Json}
    (hs : HoldsAll members fields extra d s)
    (ht : readEntry members (keepUnknown extra setExtra) s e = .ok t) :
    HoldsAll members fields extra (d.insert e.1 e.2.normalize) t where
  declared p hp := by
    obtain ⟨copy, hfield⟩ := hfields.exists_isField p hp
    exact (hs.declared p hp).readEntry hsection hunordered (List.of_mem_zip hp).1 hfield.key_eq
      hfield.keeps_of_read ht
  reserved n hn := by
    rw [readEntry] at ht
    cases hfind : findMember members e.1 with
    | some m =>
      rw [hfind] at ht
      rw [(hunordered.leavesExtra m (mem_of_findMember hfind).1).1 _ s t ht]
      exact hs.reserved n hn
    | none =>
      rw [hfind] at ht
      obtain ⟨w, -, rfl⟩ := keepUnknown_eq_ok.1 ht
      rw [hsection.extra_setExtra, Dict.get?_insert,
        if_neg (by simpa using List.find?_eq_none.1 hfind n hn)]
      exact hs.reserved n hn
  unknown k hk := by
    rw [readEntry] at ht
    cases hfind : findMember members e.1 with
    | some m =>
      rw [hfind] at ht
      obtain ⟨hm, hkey⟩ := mem_of_findMember hfind
      rw [(hunordered.leavesExtra m hm).1 _ s t ht, Dict.get?_insert,
        if_neg fun heq => hk m hm (hkey.trans heq.symm)]
      exact hs.unknown k hk
    | none =>
      rw [hfind] at ht
      obtain ⟨w, hw, rfl⟩ := keepUnknown_eq_ok.1 ht
      obtain rfl : e.2.normalize = w := Except.ok.inj ((readAny_ofJson e.2).symm.trans hw)
      rw [hsection.extra_setExtra, Dict.get?_insert, Dict.get?_insert, hs.unknown k hk]

/-- **A section has all that was read into it.** -/
theorem holdsAll_foldlM (hsection : IsSection start members extra setExtra)
    (hunordered : IsUnordered members extra setExtra)
    (hfields : AreFields start members fields put) {es : List (String × Json)} {d : Dict Json}
    {s t : σ} (hs : HoldsAll members fields extra d s)
    (ht : es.foldlM (readEntry members (keepUnknown extra setExtra)) s = .ok t) :
    HoldsAll members fields extra
      ((normalizeMembers es).foldl (fun d e => d.insert e.1 e.2) d) t := by
  induction es generalizing d s with
  | nil => cases ht; exact hs
  | cons e es ih =>
    obtain ⟨u, hu, ht⟩ := bind_eq_ok.1 ht
    exact ih (holdsAll_readEntry hsection hunordered hfields hs hu) ht

/-- An object that is read is read member by member. -/
theorem foldlM_of_readObject {unknown : String → Scan → σ → Except Error σ}
    {es : List (String × Json)} {seen seen' : List String} {s t : σ}
    (h : readObject members unknown seen s (Scan.ofMembers es) = .ok (t, seen')) :
    es.foldlM (readEntry members unknown) s = .ok t := by
  induction es generalizing seen s with
  | nil => cases h; rfl
  | cons e es ih =>
    obtain ⟨k, v⟩ := e
    rw [Scan.ofMembers, readObject] at h
    simp only [bind, Except.bind] at h
    rw [List.foldlM_cons]
    cases hfind : findMember members k with
    | none =>
      rw [hfind] at h
      obtain ⟨u, hu, h⟩ := bind_eq_ok.1 h
      refine bind_eq_ok.2 ⟨u, ?_, ih h⟩
      rw [readEntry, hfind]
      exact hu
    | some m =>
      rw [hfind] at h
      dsimp only at h
      split at h
      · cases h
      · obtain ⟨u, hu, h⟩ := bind_eq_ok.1 h
        refine bind_eq_ok.2 ⟨u, ?_, ih h⟩
        rw [readEntry, hfind]
        exact hu

theorem exists_of_reads_document {v : Json} {s : σ}
    (h : (Codec.document start members extra setExtra).Reads v s) :
    ∃ es, v = .object es ∧
      es.foldlM (readEntry members (keepUnknown extra setExtra)) start = .ok s := by
  cases v with
  | object es =>
    obtain ⟨r, hr, h⟩ := bind_eq_ok.1 h
    obtain ⟨-, -, h⟩ := bind_eq_ok.1 h
    rw [checkMissing] at h
    split at h
    · cases h
    · cases h
      exact ⟨es, rfl, foldlM_of_readObject hr⟩
  | _ => cases h

/-! ## Writing it again -/

theorem lookup_writeMembers_eq_none {ms : List (Member σ)} {key : String}
    (h : ∀ m ∈ ms, m.key ≠ key) (s : σ) : (writeMembers ms s).lookup key = none := by
  rw [List.lookup_eq_none_iff]
  intro e he
  obtain ⟨m, hm, hw⟩ := List.mem_filterMap.1 he
  obtain ⟨v, -, rfl⟩ := Option.map_eq_some_iff.1 hw
  simpa using Ne.symm (h m hm)

theorem lookup_writeMembers {ms : List (Member σ)} (hkeys : (ms.map (·.key)).Nodup) (s : σ)
    {m : Member σ} (hm : m ∈ ms) : (writeMembers ms s).lookup m.key = m.write s := by
  induction ms with
  | nil => exact absurd hm List.not_mem_nil
  | cons n ms ih =>
    rw [List.map_cons, List.nodup_cons] at hkeys
    rw [writeMembers, List.filterMap_cons]
    rcases List.mem_cons.1 hm with rfl | hm
    · have hne : ∀ n ∈ ms, n.key ≠ m.key := fun n hn heq =>
        hkeys.1 (heq ▸ List.mem_map_of_mem hn)
      have hrest := lookup_writeMembers_eq_none hne s
      cases hw : m.write s with
      | none => exact hrest
      | some v => exact lookup_cons_self _ _ _
    · have hne : m.key ≠ n.key := fun heq => hkeys.1 (heq ▸ List.mem_map_of_mem hm)
      cases hw : n.write s with
      | none => exact ih hkeys.2 hm
      | some v => exact (lookup_cons_of_ne hne _ _).trans (ih hkeys.2 hm)

/-- The members of what is written for a section, in normal form. -/
def writtenMembers (members : List (Member σ)) (extra : σ → Dict Json) (s : σ) : Dict Json :=
  Dict.ofList (normalizeMembers (writeMembers members s ++ (extra s).entries))

/-- What stands under each key of what is written for a section. -/
theorem get?_writtenMembers (hkeys : (members.map (·.key)).Nodup) {s : σ}
    (hunknown : AreUnknown members (extra s)) (k : String) :
    (writtenMembers members extra s).get? k =
      (((writeMembers members s).lookup k).or ((extra s).get? k)).map normalize := by
  have hnodup := nodup_written hkeys hunknown
  rw [writtenMembers, Dict.get?_ofList, normalizeMembers_eq_map, lookup_map_snd,
    List.lookup_append]
  · rfl
  · rw [normalizeMembers_eq_map, List.map_map]
    exact hnodup

theorem HoldsAll.areUnknown {es : List (String × Json)} {s : σ}
    (h : HoldsAll members fields extra (Dict.ofList (normalizeMembers es)) s) :
    AreUnknown members (extra s) := by
  intro e he
  have hget := Dict.get?_of_mem he
  have hnew : ∀ m ∈ members, m.key ≠ e.1 := by
    intro m hm heq
    rw [← heq, h.reserved m hm] at hget
    exact absurd hget nofun
  rw [h.unknown e.1 hnew] at hget
  exact ⟨hnew, normalize_of_mem_normalizeMembers es e (Dict.mem_ofList (Dict.mem_of_get? hget))⟩

/-- What an object has become once it is written again. -/
theorem HoldsAll.changes (hfields : AreFields start members fields put)
    (hkeys : (members.map (·.key)).Nodup) {d : Dict Json} {s : σ}
    (h : HoldsAll members fields extra d s) (hunknown : AreUnknown members (extra s)) :
    MembersChange fields d (writtenMembers members extra s) := by
  refine ⟨fun f hf => ?_, fun k hk => ?_⟩
  · obtain ⟨m, hp⟩ := hfields.exists_member hf
    obtain ⟨copy, hfield⟩ := hfields.exists_isField _ hp
    have hm : m ∈ members := (List.of_mem_zip hp).1
    rw [get?_writtenMembers hkeys hunknown, ← hfield.key_eq, lookup_writeMembers hkeys s hm,
      h.reserved m hm, Option.or_none, hfield.key_eq]
    exact hfield.allows (h.declared _ hp)
  · have hnew : ∀ m ∈ members, m.key ≠ k := by
      intro m hm heq
      obtain ⟨f, hf, hkey⟩ := hfields.exists_declared hm
      exact hk f hf (hkey.trans heq)
    rw [get?_writtenMembers hkeys hunknown, lookup_writeMembers_eq_none hnew, Option.none_or,
      ← h.unknown k hnew]
    cases hget : (extra s).get? k with
    | none => rfl
    | some v => exact congrArg some (hunknown _ (Dict.mem_of_get? hget)).2

/-- **A section that is read and written again** has changed only in its declared fields, and is
read as the same section. -/
theorem document_rewrites (hsection : IsSection start members extra setExtra)
    (hunordered : IsUnordered members extra setExtra)
    (hfields : AreFields start members fields put) (hextra : ∀ s, extra (put s start) = Dict.empty)
    (hput : ∀ s, setExtra (extra s) (put s start) = s) :
    (Codec.document start members extra setExtra).Rewrites (.object fields) where
  restores {v s} hv := by
    obtain ⟨es, rfl, hs⟩ := exists_of_reads_document hv
    have hholds := holdsAll_foldlM hsection hunordered hfields
      (holdsAll_start hsection hfields) hs
    refine document_restoresSorted hsection hunordered ?_ (hextra s) hholds.areUnknown (hput s)
    refine hfields.restoreAll hunordered.commutes hsection.keys hholds.declared fun p hp => ?_
    obtain ⟨copy, hfield⟩ := hfields.exists_isField p hp
    exact hfield.keeps_start
  changes {v s} hv := by
    obtain ⟨es, rfl, hs⟩ := exists_of_reads_document hv
    have hholds := holdsAll_foldlM hsection hunordered hfields
      (holdsAll_start hsection hfields) hs
    exact ⟨_, _, rfl, rfl, hholds.changes hfields hsection.keys hholds.areUnknown⟩
  null _ hnull := absurd hnull (normalize_ne_null nofun)

end Section

end Json
end ProxyPlane
