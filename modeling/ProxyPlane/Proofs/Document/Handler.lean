import ProxyPlane.Document.Handler
import ProxyPlane.Proofs.Json.Order

/-!
# Reading back route handlers

The object that writes a handler of a known kind holds the members of that kind in key order, beside
the one that names the kind.

## What is here

* `HeaderOps.restoresSorted` and so on: the sections inside a handler are restored from their normal
  forms if their unknown members are under other keys.
* `tagged_eq_insert`: the object of a known kind is its members with the kind among them.
* `Handler.restores_reverseProxy`, `restores_headers` and `restores_blockExploits`.
* `Handler.restores_proxyTo` and `restores_responseHeader`: the handlers that the compiler builds.
-/

set_option autoImplicit false
namespace ProxyPlane

open Json

/-! ## Sections inside handlers -/

theorem HeaderOps.isSection : IsSection HeaderOps.empty HeaderOps.members (·.extra)
    fun e s => { s with extra := e } :=
  ⟨fun _ _ => rfl, fun _ => rfl, fun _ _ _ => rfl, rfl, by decide, rfl⟩

theorem HeaderOps.isUnordered : IsUnordered HeaderOps.members (·.extra)
    fun e s => { s with extra := e } := by
  refine .of_pairwise (List.pairwise_singleton _ _) (List.forall_mem_singleton.2 ?_)
  exact Member.leavesExtra_of_set (fun _ _ => rfl) (fun _ _ => rfl) fun _ _ _ => rfl

theorem HeaderOps.restoresSorted (ops : HeaderOps) (h : AreUnknown HeaderOps.members ops.extra) :
    HeaderOps.codec.RestoresSorted ops := by
  refine document_restoresSorted isSection isUnordered
    (restoreAll_cons (Member.restore_unlessEmpty ?_ (fun _ => Dict.eq_empty_of_isEmpty) rfl)
      (restoreAll_nil _ _)) rfl h rfl
  exact restoresSorted_dict fun e _ => restoresSorted_list fun s _ => restoresSorted_string s

theorem HeaderRules.isSection : IsSection HeaderRules.empty HeaderRules.members (·.extra)
    fun e s => { s with extra := e } :=
  ⟨fun _ _ => rfl, fun _ => rfl, fun _ _ _ => rfl, rfl, by decide, rfl⟩

theorem HeaderRules.isUnordered : IsUnordered HeaderRules.members (·.extra)
    fun e s => { s with extra := e } := by
  refine .of_pairwise (List.pairwise_pair.2 ?_) fun m hm => ?_
  · exact Member.independent_of_set (fun _ _ => rfl) (fun _ _ => rfl) fun _ _ _ => rfl
  · simp only [members, List.mem_cons, List.not_mem_nil, or_false] at hm
    rcases hm with rfl | rfl <;>
      exact Member.leavesExtra_of_set (fun _ _ => rfl) (fun _ _ => rfl) fun _ _ _ => rfl

theorem HeaderRules.restoresSorted (r : HeaderRules)
    (hrequest : ∀ ops, r.request = some ops → HeaderOps.codec.RestoresSorted ops)
    (hresponse : ∀ ops, r.response = some ops → HeaderOps.codec.RestoresSorted ops)
    (h : AreUnknown HeaderRules.members r.extra) : HeaderRules.codec.RestoresSorted r := by
  refine document_restoresSorted isSection isUnordered
    (restoreAll_cons (Member.restore_optional ?_ rfl)
      (restoreAll_cons (Member.restore_optional ?_ rfl) (restoreAll_nil _ _))) rfl h rfl
  · exact fun ops hops => ⟨hrequest ops hops, normalize_ne_null nofun⟩
  · exact fun ops hops => ⟨hresponse ops hops, normalize_ne_null nofun⟩

theorem Backend.isSection : IsSection Backend.empty Backend.members (·.extra)
    fun e s => { s with extra := e } :=
  ⟨fun _ _ => rfl, fun _ => rfl, fun _ _ _ => rfl, rfl, by decide, rfl⟩

theorem Backend.isUnordered : IsUnordered Backend.members (·.extra)
    fun e s => { s with extra := e } := by
  refine .of_pairwise (List.pairwise_singleton _ _) (List.forall_mem_singleton.2 ?_)
  exact Member.leavesExtra_of_set (fun _ _ => rfl) (fun _ _ => rfl) fun _ _ _ => rfl

theorem Backend.restoresSorted (b : Backend) (h : AreUnknown Backend.members b.extra) :
    Backend.codec.RestoresSorted b :=
  document_restoresSorted isSection isUnordered
    (restoreAll_cons (Member.restore_always (restoresSorted_string b.dial)) (restoreAll_nil _ _))
    rfl h rfl

theorem ReverseProxy.isSection : IsSection ReverseProxy.empty ReverseProxy.members (·.extra)
    fun e s => { s with extra := e } :=
  ⟨fun _ _ => rfl, fun _ => rfl, fun _ _ _ => rfl, rfl, by decide, rfl⟩

theorem ReverseProxy.isUnordered : IsUnordered ReverseProxy.members (·.extra)
    fun e s => { s with extra := e } := by
  refine .of_pairwise ?_ fun m hm => ?_
  · simp only [members, List.pairwise_cons, List.forall_mem_cons, List.not_mem_nil, false_implies,
      implies_true, List.Pairwise.nil, and_true]
    and_intros <;>
      exact Member.independent_of_set (fun _ _ => rfl) (fun _ _ => rfl) fun _ _ _ => rfl
  · simp only [members, List.mem_cons, List.not_mem_nil, or_false] at hm
    rcases hm with rfl | rfl | rfl <;>
      exact Member.leavesExtra_of_set (fun _ _ => rfl) (fun _ _ => rfl) fun _ _ _ => rfl

theorem ReverseProxy.restoresSorted (p : ReverseProxy)
    (hbackends : ∀ b ∈ p.backends, Backend.codec.RestoresSorted b)
    (hheaders : ∀ r, p.headers = some r → HeaderRules.codec.RestoresSorted r)
    (htransport : ∀ v, p.transport = some v → v.normalize = v ∧ v ≠ .null)
    (h : AreUnknown ReverseProxy.members p.extra) : ReverseProxy.codec.RestoresSorted p := by
  refine document_restoresSorted isSection isUnordered
    (restoreAll_cons (Member.restore_always (restoresSorted_list hbackends))
      (restoreAll_cons (Member.restore_optional ?_ rfl)
        (restoreAll_cons (Member.restore_optional ?_ rfl) (restoreAll_nil _ _)))) rfl h rfl
  · exact fun r hr => ⟨hheaders r hr, normalize_ne_null nofun⟩
  · intro v hv
    obtain ⟨hnormal, hnull⟩ := htransport v hv
    exact ⟨restoresSorted_any hnormal, normalize_ne_null hnull⟩

/-! ## Objects of known kinds -/

namespace Handler

/-- The object of a known kind is its members with the kind among them. -/
theorem tagged_eq_insert (kind : String) {fields : Dict Json} (h : fields.get? kindKey = none) :
    tagged kind fields = fields.insert kindKey (.string kind) := by
  refine Dict.ext_get? fun j => ?_
  rw [tagged, Dict.get?_foldl_insert _ fields.nodup_keys, Dict.get?_insert, Dict.get?_insert]
  show (fields.get? j).or _ = _
  by_cases hj : j = kindKey
  · rw [hj, h, if_pos rfl, if_pos rfl]
    rfl
  · rw [if_neg hj, if_neg hj, Dict.get?_empty, Option.or_none]

theorem kindOf_insert (kind : String) (fields : Dict Json) :
    kindOf (fields.insert kindKey (.string kind)) = some kind := by
  rw [kindOf, Dict.get?_insert, if_pos rfl]
  rfl

variable {σ : Type} {start : σ} {members : List (Member σ)} {extra : σ → Dict Json}
  {setExtra : Dict Json → σ → σ}

/-- The members of a section in key order. -/
theorem ofDict_fieldsOf (s : σ) :
    Json.ofDict (fieldsOf (Codec.document start members extra setExtra) s) =
      ((Codec.document start members extra setExtra).encode s).normalize := by
  show Json.object (Dict.ofList (Dict.ofList _).entries).entries = _
  rw [Dict.ofList_entries]
  rfl

/-- The member that names the kind is not among those of a section. -/
theorem get?_fieldsOf (hmembers : ∀ m ∈ members, m.key ≠ kindKey) {s : σ}
    (hextra : (extra s).get? kindKey = none) :
    (fieldsOf (Codec.document start members extra setExtra) s).get? kindKey = none := by
  rw [Dict.get?, List.lookup_eq_none_iff]
  intro e he
  show (kindKey != e.1) = true
  rw [show fieldsOf (Codec.document start members extra setExtra) s =
    Dict.ofList (normalizeMembers (writeMembers members s ++ (extra s).entries)) from
      Dict.ofList_entries _] at he
  have hmem := Dict.mem_ofList he
  rw [normalizeMembers_eq_map] at hmem
  obtain ⟨f, hf, rfl⟩ := List.mem_map.1 hmem
  rcases List.mem_append.1 hf with hf | hf
  · obtain ⟨m, hm, hw⟩ := List.mem_filterMap.1 hf
    obtain ⟨v, -, rfl⟩ := Option.map_eq_some_iff.1 hw
    simpa using Ne.symm (hmembers m hm)
  · rw [Dict.get?, List.lookup_eq_none_iff] at hextra
    exact hextra f hf

/-- The values of the members of a section are in normal form. -/
theorem normalize_of_mem_fieldsOf {s : σ} :
    ∀ e ∈ (fieldsOf (Codec.document start members extra setExtra) s).entries,
      e.2.normalize = e.2 := by
  intro e he
  rw [show fieldsOf (Codec.document start members extra setExtra) s =
    Dict.ofList (normalizeMembers (writeMembers members s ++ (extra s).entries)) from
      Dict.ofList_entries _] at he
  exact normalize_of_mem_normalizeMembers _ e (Dict.mem_ofList he)

/-- The members of an object of a known kind are found again. -/
theorem decodeFields?_tagged {kind : String} {s : σ}
    (hkind : (fieldsOf (Codec.document start members extra setExtra) s).get? kindKey = none)
    (h : (Codec.document start members extra setExtra).RestoresSorted s) :
    decodeFields? (Codec.document start members extra setExtra)
      (tagged kind (fieldsOf (Codec.document start members extra setExtra) s)) = some s := by
  rw [Codec.RestoresSorted, Codec.Reads] at h
  rw [tagged_eq_insert kind hkind, decodeFields?, Dict.erase_insert_self_of_get? _ _ hkind,
    ofDict_fieldsOf, Codec.ofValue, h]
  rfl

/-- An object in normal form is read as its handler. -/
theorem reads_ofDict {fields : Dict Json} (hnormal : ∀ e ∈ fields.entries, e.2.normalize = e.2) :
    Handler.codec.Reads (.ofDict fields) (ofFields fields) := by
  have hobject : Codec.fields.Restores fields := restores_fields hnormal
  refine map_eq_ok.2 ⟨fields, ?_, rfl⟩
  have hencode : Codec.fields.encode fields = Json.ofDict fields := by
    show Json.object (fields.entries.map id) = Json.object fields.entries
    rw [List.map_id]
  rw [Codec.Restores, Codec.Reads, hencode] at hobject
  exact hobject

/-- A handler is restored if it is the handler of its object. -/
theorem restores_of_ofFields {h : Handler} (hnormal : ∀ e ∈ h.toFields.entries, e.2.normalize = e.2)
    (hof : ofFields h.toFields = h) : Handler.codec.Restores h := by
  have hread := reads_ofDict hnormal
  rw [hof] at hread
  exact hread

theorem normalize_of_mem_tagged {kind : String} {fields : Dict Json}
    (hkind : fields.get? kindKey = none) (hnormal : ∀ e ∈ fields.entries, e.2.normalize = e.2) :
    ∀ e ∈ (tagged kind fields).entries, e.2.normalize = e.2 := by
  intro e he
  rw [tagged_eq_insert kind hkind] at he
  rcases mem_insertEntry he with rfl | he
  · rfl
  · exact hnormal e he

/-- A reverse proxy is the handler of its object. -/
theorem ofFields_reverseProxy {p : ReverseProxy} (h : ReverseProxy.codec.RestoresSorted p)
    (hnone : (fieldsOf ReverseProxy.codec p).get? kindKey = none) :
    ofFields (Handler.reverseProxy p).toFields = .reverseProxy p := by
  rw [toFields, ofFields, tagged_eq_insert _ hnone, kindOf_insert, ← tagged_eq_insert _ hnone]
  simp only [ReverseProxy.codec] at *
  rw [decodeFields?_tagged hnone h]

/-- Header rules are the handler of their object. -/
theorem ofFields_headers {r : HeaderRules} (h : HeaderRules.codec.RestoresSorted r)
    (hnone : (fieldsOf HeaderRules.codec r).get? kindKey = none) :
    ofFields (Handler.headers r).toFields = .headers r := by
  rw [toFields, ofFields, tagged_eq_insert _ hnone, kindOf_insert, ← tagged_eq_insert _ hnone]
  simp only [HeaderRules.codec] at *
  rw [decodeFields?_tagged hnone h]

theorem restores_reverseProxy {p : ReverseProxy} (h : ReverseProxy.codec.RestoresSorted p)
    (hkind : p.extra.get? kindKey = none) : Handler.codec.Restores (.reverseProxy p) := by
  have hnone : (fieldsOf ReverseProxy.codec p).get? kindKey = none :=
    get?_fieldsOf (by decide) hkind
  exact restores_of_ofFields (normalize_of_mem_tagged hnone normalize_of_mem_fieldsOf)
    (ofFields_reverseProxy h hnone)

theorem restores_headers {r : HeaderRules} (h : HeaderRules.codec.RestoresSorted r)
    (hkind : r.extra.get? kindKey = none) : Handler.codec.Restores (.headers r) := by
  have hnone : (fieldsOf HeaderRules.codec r).get? kindKey = none :=
    get?_fieldsOf (by decide) hkind
  exact restores_of_ofFields (normalize_of_mem_tagged hnone normalize_of_mem_fieldsOf)
    (ofFields_headers h hnone)

theorem restores_blockExploits : Handler.codec.Restores .blockExploits :=
  restores_of_ofFields
    (normalize_of_mem_tagged rfl (by simp [Dict.insert, insertEntry, Json.normalize])) rfl

/-! ## Handlers that the compiler builds -/

theorem upgradeHeaders_restoresSorted : HeaderRules.codec.RestoresSorted upgradeHeaders := by
  refine HeaderRules.restoresSorted _ (fun ops hops => ?_) nofun (areUnknown_empty _)
  cases hops
  exact HeaderOps.restoresSorted _ (areUnknown_empty _)

theorem restores_proxyTo (dial : String) (upgrade tls : Bool) :
    Handler.codec.Restores (proxyTo dial upgrade tls) := by
  refine restores_reverseProxy (ReverseProxy.restoresSorted _ ?_ ?_ ?_ (areUnknown_empty _)) rfl
  · intro b hb
    obtain rfl := List.mem_singleton.1 hb
    exact Backend.restoresSorted _ (areUnknown_empty _)
  · intro r hr
    cases upgrade with
    | false => exact absurd hr nofun
    | true =>
      cases hr
      exact upgradeHeaders_restoresSorted
  · intro v hv
    cases tls with
    | false => exact absurd hv nofun
    | true =>
      cases hv
      exact ⟨by decide, nofun⟩

theorem restores_responseHeader (name value : String) :
    Handler.codec.Restores (responseHeader name value) := by
  refine restores_headers (HeaderRules.restoresSorted _ nofun (fun ops hops => ?_)
    (areUnknown_empty _)) rfl
  cases hops
  exact HeaderOps.restoresSorted _ (areUnknown_empty _)

end Handler
end ProxyPlane
