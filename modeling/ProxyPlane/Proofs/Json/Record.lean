import ProxyPlane.Proofs.Document.Depth
import ProxyPlane.Proofs.Json.Codec

/-!
# Reading records

Records have no unknown members, and some of their members must be there.

## What is here

* `record_restores`: a record is read back from what is written for it if its members are.
* `fits_record`: it is nested one deeper than its members.
* `Codec.Yields`, what holds of all values that a codec reads, whatever the text; `yields_record`
  for records, and `Codec.Yields.of_decode` for whole texts.
-/

set_option autoImplicit false
namespace ProxyPlane
namespace Json

variable {σ α : Type}

/-! ## Reading back what is written -/

/-- All declared keys that stood in an object were seen. -/
theorem mem_seen_of_readObject {members : List (Member σ)}
    {unknown : String → Scan → σ → Except Error σ}
    {entries : List (Except Error String × Scan)} {seen : List String} {s : σ}
    {r : σ × List String} (h : readObject members unknown seen s entries = .ok r) :
    (∀ k ∈ seen, k ∈ r.2) ∧
      ∀ e ∈ entries, ∀ k, e.1 = .ok k → findMember members k ≠ none → k ∈ r.2 := by
  induction entries generalizing seen s with
  | nil =>
    cases h
    exact ⟨fun k hk => hk, fun e he => absurd he List.not_mem_nil⟩
  | cons entry rest ih =>
    obtain ⟨key, value⟩ := entry
    rw [readObject] at h
    obtain ⟨k, rfl, hentry⟩ := bind_eq_ok.1 h
    cases hfind : findMember members k with
    | none =>
      rw [hfind] at hentry
      obtain ⟨s', -, hlater⟩ := bind_eq_ok.1 hentry
      obtain ⟨hseen, hrest⟩ := ih hlater
      refine ⟨hseen, List.forall_mem_cons.2 ⟨fun j hj hknown => ?_, hrest⟩⟩
      cases hj
      exact absurd hfind hknown
    | some m =>
      rw [hfind] at hentry
      simp only at hentry
      split at hentry
      · cases hentry
      · obtain ⟨s', -, hlater⟩ := bind_eq_ok.1 hentry
        obtain ⟨hseen, hrest⟩ := ih hlater
        refine ⟨fun j hj => hseen j (List.mem_cons_of_mem k hj),
          List.forall_mem_cons.2 ⟨fun j hj _ => ?_, hrest⟩⟩
        cases hj
        exact hseen k List.mem_cons_self

/-- **A record is restored if its members are**, and if those that must be there are written. -/
theorem record_restores {start s : σ} {members : List (Member σ)}
    (hkeys : (members.map (·.key)).Nodup) (hmembers : restoreAll id members s start = .ok s)
    (hneeded : ∀ m ∈ members, m.required = true → (m.write s).isSome = true) :
    (Codec.record start members).Restores s := by
  have hnodup := @nodup_written σ members (fun _ => Dict.empty) hkeys s (areUnknown_empty members)
  rw [show (Dict.empty : Dict Json).entries = [] from rfl, List.append_nil] at hnodup
  have hwritten := foldlM_writeMembers (fun _ v s => do ignore v; return s)
    (fun m hm => findMember_of_mem hkeys hm) hmembers
  simp only [id, Prod.eta, List.map_id'] at hwritten
  obtain ⟨seen, hread⟩ := readObject_eq [] hnodup (fun _ _ => List.not_mem_nil) hwritten
  have hmissing : checkMissing members seen s = .ok s := by
    rw [checkMissing, List.find?_eq_none.2]
    intro m hm
    simp only [Bool.and_eq_true, Bool.not_eq_true', not_and, Bool.not_eq_false,
      List.contains_iff_mem]
    intro hrequired
    obtain ⟨v, hv⟩ := Option.isSome_iff_exists.1 (hneeded m hm hrequired)
    refine (mem_seen_of_readObject hread).2 (.ok m.key, Scan.ofJson v) ?_ m.key rfl ?_
    · refine List.mem_map.2 ⟨(m.key, v), List.mem_filterMap.2 ⟨m, hm, by rw [hv]; rfl⟩, rfl⟩
    · rw [findMember_of_mem hkeys hm]
      exact Option.some_ne_none _
  rw [Codec.Restores, Codec.Reads]
  simp only [Codec.record, Scan.ofJson, ofMembers_eq_map, hread]
  exact hmissing

section Needed

variable {key : String} {c : Codec α} {get : σ → α} {set : α → σ → σ}

theorem Member.restore_needed {s t : σ} (h : c.Restores (get s)) :
    (needed key c get set).restore id s t = .ok (set (get s) t) :=
  show (always key c get set).restore id s t = _ from restore_always h

theorem Member.fits_needed {d : Nat} {s : σ} (h : Json.Fits d (c.encode (get s))) :
    (needed key c get set).Fits d s :=
  show (always key c get set).Fits d s from fits_always h

end Needed

/-- **A record is nested one deeper than its members.** -/
theorem fits_record {start s : σ} {members : List (Member σ)} {d : Nat}
    (h : ∀ m ∈ members, m.Fits d s) : Fits (d + 1) ((Codec.record start members).encode s) := by
  refine .object fun e he => ?_
  obtain ⟨m, hm, hw⟩ := List.mem_filterMap.1 he
  obtain ⟨v, hv, rfl⟩ := Option.map_eq_some_iff.1 hw
  exact h m hm v hv

/-! ## What can be read at all -/

/-- Something holds of every value that is read, whatever the tree. -/
def Codec.Yields (c : Codec α) (p : α → Prop) : Prop := ∀ v a, c.read v = .ok a → p a

theorem mismatch_ne_ok (expected : String) (v : Scan) (a : α) : mismatch expected v ≠ .ok a := by
  unfold mismatch
  split <;> exact nofun

theorem yields_true (c : Codec α) : c.Yields fun _ => True := fun _ _ _ => trivial

theorem yields_nat (bound : Nat) : (Codec.nat bound).Yields (· < bound) := by
  intro v n h
  simp only [Codec.nat] at h
  split at h
  · split at h
    · cases h
      omega
    · cases h
  · exact absurd h (mismatch_ne_ok _ _ _)

theorem yields_list {c : Codec α} {p : α → Prop} (hc : c.Yields p) :
    (Codec.list c).Yields fun xs => ∀ a ∈ xs, p a := by
  have hitems : ∀ items xs, readItems c.read items = .ok xs → ∀ a ∈ xs, p a := by
    intro items
    induction items with
    | nil =>
      intro xs h
      cases h
      exact List.forall_mem_nil _
    | cons v items ih =>
      intro xs h
      obtain ⟨a, ha, hlater⟩ := bind_eq_ok.1 h
      obtain ⟨rest, hrest, hdone⟩ := bind_eq_ok.1 hlater
      cases hdone
      exact List.forall_mem_cons.2 ⟨hc v a ha, ih rest hrest⟩
  intro v xs h
  simp only [Codec.list] at h
  split at h
  · rename_i items stop
    obtain ⟨ys, hys, hlater⟩ := bind_eq_ok.1 h
    obtain ⟨-, -, hdone⟩ := bind_eq_ok.1 hlater
    cases hdone
    exact hitems items xs hys
  · cases h
  · exact absurd h (mismatch_ne_ok _ _ _)

/-- Reading the member keeps what holds of an object. -/
def Member.Preserves (inv : σ → Prop) (m : Member σ) : Prop :=
  ∀ v s s', m.read v s = .ok s' → inv s → inv s'

section Preserves

variable {inv : σ → Prop} {p : α → Prop} {key : String} {c : Codec α} {get : σ → α}
  {set : α → σ → σ}

theorem Member.preserves_always (hc : c.Yields p) (hset : ∀ a s, p a → inv s → inv (set a s)) :
    (always key c get set).Preserves inv := by
  intro v s s' h hs
  obtain ⟨a, ha, rfl⟩ := map_eq_ok.1 h
  exact hset a s (hc v a ha) hs

theorem Member.preserves_needed (hc : c.Yields p) (hset : ∀ a s, p a → inv s → inv (set a s)) :
    (needed key c get set).Preserves inv :=
  show (always key c get set).Preserves inv from preserves_always hc hset

end Preserves

theorem preserves_readObject {inv : σ → Prop} {members : List (Member σ)}
    (hmembers : ∀ m ∈ members, m.Preserves inv) {entries : List (Except Error String × Scan)}
    {seen : List String} {s : σ} {r : σ × List String}
    (h : readObject members (fun _ v s => do ignore v; return s) seen s entries = .ok r)
    (hs : inv s) : inv r.1 := by
  induction entries generalizing seen s with
  | nil =>
    cases h
    exact hs
  | cons entry rest ih =>
    obtain ⟨key, value⟩ := entry
    rw [readObject] at h
    obtain ⟨k, rfl, hentry⟩ := bind_eq_ok.1 h
    cases hfind : findMember members k with
    | none =>
      rw [hfind] at hentry
      obtain ⟨s', hignored, hlater⟩ := bind_eq_ok.1 hentry
      obtain ⟨-, -, hsame⟩ := bind_eq_ok.1 hignored
      cases hsame
      exact ih hlater hs
    | some m =>
      rw [hfind] at hentry
      simp only at hentry
      split at hentry
      · cases hentry
      · obtain ⟨s', hread, hlater⟩ := bind_eq_ok.1 hentry
        exact ih hlater (hmembers m (List.mem_of_find?_eq_some hfind) value s s' hread hs)

theorem preserves_readFields {inv : σ → Prop} {members : List (Member σ)}
    (hmembers : ∀ m ∈ members, m.Preserves inv) {items : List Scan} {stop : Option Error} {s r : σ}
    (h : readFields members s items stop = .ok r) (hs : inv s) : inv r := by
  induction members generalizing items s with
  | nil =>
    obtain rfl : r = s := by
      unfold readFields at h
      split at h <;> simp_all
    exact hs
  | cons m members ih =>
    obtain ⟨hm, hrest⟩ := List.forall_mem_cons.1 hmembers
    cases items with
    | cons v items =>
      obtain ⟨s', hread, hlater⟩ := bind_eq_ok.1 h
      exact ih hrest hlater (hm v s s' hread hs)
    | nil =>
      cases stop with
      | some e => cases h
      | none =>
        rw [readFields] at h
        split at h
        · cases h
        · exact ih hrest h hs

/-- **What holds of the record that reading starts with, and is kept by every member, holds of all
records that are read**, from an object or from an array of fields. -/
theorem yields_record {inv : σ → Prop} {start : σ} {members : List (Member σ)}
    (hstart : inv start) (hmembers : ∀ m ∈ members, m.Preserves inv) :
    (Codec.record start members).Yields inv := by
  intro v s h
  simp only [Codec.record] at h
  split at h
  · obtain ⟨r, hread, hlater⟩ := bind_eq_ok.1 h
    obtain ⟨-, -, hcheck⟩ := bind_eq_ok.1 hlater
    rw [checkMissing] at hcheck
    split at hcheck
    · cases hcheck
    · cases hcheck
      exact preserves_readObject hmembers hread hstart
  · exact preserves_readFields hmembers h hstart
  · cases h
  · exact absurd h (mismatch_ne_ok _ _ _)

/-- What holds of all that a codec reads holds of the values of texts. -/
theorem Codec.Yields.of_decode {c : Codec α} {p : α → Prop} (hc : c.Yields p) {text : Bytes} {a : α}
    (h : c.decode text = .ok a) : p a := by
  obtain ⟨b, hb, hlater⟩ := bind_eq_ok.1 h
  obtain ⟨-, -, hdone⟩ := bind_eq_ok.1 hlater
  cases hdone
  exact hc _ a hb

end Json
end ProxyPlane
