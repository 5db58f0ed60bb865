import Mathlib.Data.List.Flatten
import Mathlib.Data.List.Perm.Basic
import ProxyPlane.Proofs.Render
import ProxyPlane.Proofs.Routing

/-!
# Fewer records in another order

The first route that accepts a request serves it, and the validator remembers which hosts were
claimed, so both read the records in their order.  Valid records share no domain, and therefore
what is left of them after some were deleted and some disabled renders in any order, and serves the
hosts it still has with the routes that served them before.

## What is here

* `IsReduction`, deleting, disabling and permuting records.
* `subperm_enabledRecords`: every enabled record that is left was enabled before.
* `AreConsistent.of_subperm`: consistent records stay consistent when some are left out.
* `Matching.exact`, hosts that match themselves only, and `serve_of_mem_domains`, which route serves
  a domain then.
* `render_of_isReduction`: a reduction renders, and its hosts are served as before.
-/

set_option autoImplicit false
namespace ProxyPlane

open Compile

/-! ## Deleting, disabling and permuting -/

/-- A record stays as it is or is disabled. -/
def StaysOrStops (r r' : RoutingRecord) : Prop := r' = r ∨ r' = { r with enabled := false }

/-- The second list is the first after some records were deleted, some of the others disabled, and
what is left permuted. -/
def IsReduction (records records' : List RoutingRecord) : Prop :=
  ∃ kept switched, kept.Sublist records ∧ List.Forall₂ StaysOrStops kept switched ∧
    switched.Perm records'

/-- The records that stay enabled are some of those that were. -/
theorem sublist_enabledRecords {kept switched : List RoutingRecord}
    (h : List.Forall₂ StaysOrStops kept switched) :
    (enabledRecords switched).Sublist (enabledRecords kept) := by
  induction h with
  | nil => exact .slnil
  | @cons r r' rest rest' hr hrest ih =>
    rw [enabledRecords, enabledRecords, List.filter_cons, List.filter_cons]
    rcases hr with rfl | rfl
    · cases r'.enabled with
      | false => exact ih
      | true => exact ih.cons_cons _
    · cases r.enabled with
      | false => exact ih
      | true => exact ih.cons _

/-- **Every enabled record of a reduction was enabled before.** -/
theorem subperm_enabledRecords {records records' : List RoutingRecord}
    (h : IsReduction records records') :
    (enabledRecords records').Subperm (enabledRecords records) := by
  obtain ⟨kept, switched, hkept, hswitched, hperm⟩ := h
  exact ⟨enabledRecords switched, hperm.filter _,
    (sublist_enabledRecords hswitched).trans (hkept.filter _)⟩

/-! ## What stays consistent -/

/-- Domains that are named once are named once by fewer records in another order. -/
theorem nodup_domains_of_subperm {records records' : List RoutingRecord}
    (hsub : records'.Subperm records) (h : (records.flatMap (·.domains)).Nodup) :
    (records'.flatMap (·.domains)).Nodup := by
  obtain ⟨kept, hperm, hkept⟩ := hsub
  have hkeptDomains : (kept.flatMap (·.domains)).Nodup := h.sublist (hkept.flatMap _)
  exact ((hperm.flatMap fun _ _ => .rfl).nodup_iff).1 hkeptDomains

/-- **Consistent records stay consistent when some are left out and the rest permuted.** -/
theorem AreConsistent.of_subperm {records records' : List RoutingRecord}
    (hsub : (enabledRecords records').Subperm (enabledRecords records))
    (h : AreConsistent records) : AreConsistent records' where
  domains := nodup_domains_of_subperm hsub h.domains
  patterns := fun r hr => h.patterns r (hsub.subset hr)
  targets := fun r hr => h.targets r (hsub.subset hr)

/-! ## Which route serves a domain -/

/-- Host strings match just themselves, and patterns match paths in some given way. -/
def Matching.exact {π : Type} (path : String → π → Bool) : Matching String π where
  host h host := h == host
  path := path

section Exact

variable {π : Type} (matchesPath : String → π → Bool) {host : String} (path : π)

theorem anyHost_exact {hosts : List String} :
    (Matching.exact matchesPath).anyHost host hosts = true ↔ host ∈ hosts := by
  simp [Matching.anyHost, Matching.exact]

/-- **Where no domain is shared, the routes of the record with a domain serve it**, whatever the
order of the records. -/
theorem serve_of_mem_domains {records : List RoutingRecord} {r : RoutingRecord}
    (hdomains : (records.flatMap (·.domains)).Nodup) (hr : r ∈ records) (hhost : host ∈ r.domains) :
    (Matching.exact matchesPath).serve host path (records.flatMap recordRoutes) =
      (Matching.exact matchesPath).serve host path (recordRoutes r) := by
  have hfind : records.find? (fun r => (Matching.exact matchesPath).anyHost host r.domains) =
      some r := by
    have hsome : (records.find? fun r =>
        (Matching.exact matchesPath).anyHost host r.domains).isSome :=
      List.find?_isSome.2 ⟨r, hr, (anyHost_exact matchesPath).2 hhost⟩
    obtain ⟨r', hr'⟩ := Option.isSome_iff_exists.1 hsome
    have hhost' : host ∈ r'.domains := by
      have hany := List.find?_some hr'
      exact (anyHost_exact matchesPath).1 hany
    rw [hr', eq_of_mem_domains hdomains hr (List.mem_of_find?_eq_some hr') hhost hhost']
  rw [serve_flatMap_recordRoutes, hfind, Option.bind_some]

theorem exists_serve_recordRoutes {r : RoutingRecord} (hhost : host ∈ r.domains) :
    ∃ x, (Matching.exact matchesPath).serve host path (recordRoutes r) = some x := by
  rw [serve_recordRoutes _ host path ((anyHost_exact matchesPath).2 hhost)]
  cases r.locations.find? ((Matching.exact matchesPath).takes path) with
  | some l => exact ⟨_, rfl⟩
  | none => exact ⟨_, rfl⟩

end Exact

/-! ## Reductions -/

/-- A reduction of records of which a document can be made has one, too. -/
theorem documentOf_of_isReduction {m : SyncManager} {records records' : List RoutingRecord}
    {email : String} {d : Document} (h : IsReduction records records')
    (hd : m.documentOf records email = .ok d) :
    ∃ d', m.documentOf records' email = .ok d' := by
  have hsub := subperm_enabledRecords h
  obtain ⟨hcompile, hconsistent⟩ := documentOf_eq_ok.1 hd
  have hdomains := (compile_eq_ok.1 hcompile).1
  exact ((documentOf_of_domains m email fun r hr => hdomains r (hsub.subset hr)).1).2
    (hconsistent.of_subperm hsub)

section Rendering

variable {σ σ' : Type} {answer : {β : Type} → SyncOp β → σ → β × σ}
  {answer' : {β : Type} → SyncOp β → σ' → β × σ'} {s : σ} {s' : σ'}
  {records records' : List RoutingRecord} {email : Option String} {d : Document}

/-- **Deleting, disabling and permuting records is harmless.**  What is left of records that render
renders with the same storage root and e-mail address.  However patterns match paths, a request for
a domain that is left is served by the route that served it before, with the same handlers. -/
theorem render_of_isReduction (m : SyncManager) (hreads : StoreReads answer s records email)
    (hreads' : StoreReads answer' s' records' email) (h : IsReduction records records')
    (hd : (m.render.run answer s).1 = .ok d) :
    ∃ d', (m.render.run answer' s').1 = .ok d' ∧
      compile records m.storageRoot (email.getD "") = .ok d ∧
      compile records' m.storageRoot (email.getD "") = .ok d' ∧
      ∃ server server', d.servers = [(serverName, server)] ∧
        d'.servers = [(serverName, server')] ∧
        ∀ {π : Type} (matchesPath : String → π → Bool) (host : String) (path : π),
          (∃ r ∈ records', r.enabled = true ∧ host ∈ r.domains) →
            ∃ x, (Matching.exact matchesPath).serve host path server.routes = some x ∧
              (Matching.exact matchesPath).serve host path server'.routes = some x := by
  rw [render_of_storeReads hreads m] at hd
  obtain ⟨d', hd'⟩ := documentOf_of_isReduction h hd
  obtain ⟨hcompile, hconsistent⟩ := documentOf_eq_ok.1 hd
  obtain ⟨hcompile', hconsistent'⟩ := documentOf_eq_ok.1 hd'
  obtain ⟨-, rfl⟩ := compile_eq_ok.1 hcompile
  obtain ⟨-, rfl⟩ := compile_eq_ok.1 hcompile'
  refine ⟨_, by rw [render_of_storeReads hreads' m, hd'], hcompile, hcompile', _, _, rfl, rfl, ?_⟩
  rintro π matchesPath host path ⟨r, hr, henabled, hhost⟩
  have hleft : r ∈ enabledRecords records' := List.mem_filter.2 ⟨hr, henabled⟩
  have hbefore : r ∈ enabledRecords records := (subperm_enabledRecords h).subset hleft
  -- no other record has the host: either document serves it by the routes of this record
  obtain ⟨x, hx⟩ := exists_serve_recordRoutes matchesPath path hhost
  refine ⟨x, ?_, ?_⟩
  · exact (serve_of_mem_domains matchesPath path hconsistent.domains hbefore hhost).trans hx
  · exact (serve_of_mem_domains matchesPath path hconsistent'.domains hleft hhost).trans hx

end Rendering

/-- A world whose store holds the records and nothing else. -/
def recordsWorld (records : List RoutingRecord) : World where
  files := FileTree.empty
  backing := .memory (MemoryStore.ofRecords records) 0 fun _ => false
  peer := ⟨none, [], fun _ => .error "closed", []⟩
  clock := ⟨0, 0⟩

theorem storeReads_recordsWorld (records : List RoutingRecord) :
    StoreReads World.answer (recordsWorld records) records none := ⟨rfl, rfl⟩

/-- Three records, the first with a path rule. -/
def threeRecords : List RoutingRecord :=
  [{ RoutingRecord.create "r1" "a.example, b.example" "10.0.0.1" 80 with
     locations := [⟨"/api/", "https", "::1", 8443⟩] },
   RoutingRecord.create "r2" "c.example" "10.0.0.2" 8080,
   RoutingRecord.create "r3" "d.example" "10.0.0.3" 80]

/-- Without the last of them, the second disabled and in front of the first. -/
def twoRecords : List RoutingRecord :=
  [{ RoutingRecord.create "r2" "c.example" "10.0.0.2" 8080 with enabled := false },
   { RoutingRecord.create "r1" "a.example, b.example" "10.0.0.1" 80 with
     locations := [⟨"/api/", "https", "::1", 8443⟩] }]

theorem isReduction_twoRecords : IsReduction threeRecords twoRecords :=
  ⟨threeRecords.take 2, twoRecords.reverse, List.take_sublist 2 _,
    .cons (.inl rfl) (.cons (.inr rfl) .nil), List.reverse_perm _⟩

theorem render_of_isReduction_twoRecords :
    ∃ (m : SyncManager) (d d' : Document) (server server' : Server),
      (m.render.run World.answer (recordsWorld threeRecords)).1 = .ok d ∧
      (m.render.run World.answer (recordsWorld twoRecords)).1 = .ok d' ∧
      d.servers = [(serverName, server)] ∧ d'.servers = [(serverName, server')] ∧
      ∃ x, (Matching.exact literalMatching.path).serve "b.example" "/api/users" server.routes =
          some x ∧
        (Matching.exact literalMatching.path).serve "b.example" "/api/users" server'.routes =
          some x := by
  let m := SyncManager.create ⟨"http://localhost:2019"⟩ "/etc/proxy"
  obtain ⟨d, hd⟩ : ∃ d, (m.render.run World.answer (recordsWorld threeRecords)).1 = .ok d :=
    ⟨_, rfl⟩
  obtain ⟨d', hd', -, -, server, server', hserver, hserver', hserve⟩ :=
    render_of_isReduction m (storeReads_recordsWorld threeRecords)
      (storeReads_recordsWorld twoRecords) isReduction_twoRecords hd
  refine ⟨m, d, d', server, server', hd, hd', hserver, hserver',
    hserve _ _ _ ⟨_, .tail _ (.head _), rfl, ?_⟩⟩
  decide

end ProxyPlane
