import ProxyPlane.Proofs.Import.Resolution
import ProxyPlane.Proofs.Import.RoundTrip

/-!
# Adding imported records

An import compares the hosts of a document as they are written.  The records that come of it divide
them at commas and trim them, and put the address of a target together again.  So what is imported
without conflicts renders together with the records that were there before, if its hosts are single
domains and its targets do not start with a bracket; what it takes in general is stated, too.

## What is here

* `isDialable_imported_iff`: which targets of imported records can be dialled.
* `documentOf_append_toRecords_iff`: when records and imported ones render together.
* `nodup_append_toRecords`: single domains without conflicts are not repeated.
* `documentOf_cleanImport`: what a conflict-free import needs.
* `not_documentOf_overlapping`: hosts without conflicts that do not render.
-/

set_option autoImplicit false
namespace ProxyPlane

open Compile

/-! ## Targets of candidates -/

theorem Occurrence.forwardHost_withProxy (p : ReverseProxy) (c : Candidate) :
    (Occurrence.withProxy p c).forwardHost = c.forwardHost ∨
      ∃ address port,
        Address.split address = .ok ((Occurrence.withProxy p c).forwardHost, port) := by
  rw [Occurrence.withProxy]
  cases p.backends with
  | nil => exact .inl rfl
  | cons u _ =>
    cases hsplit : Address.split u.dial with
    | error e => exact .inl (by simp [hsplit])
    | ok t => exact .inr ⟨u.dial, t.2, by simp [hsplit]⟩

/-- The target of a candidate is the host of an address. -/
theorem Occurrence.exists_split_candidate {o : Occurrence} (h : o.candidate.isActionable = true) :
    ∃ address port, Address.split address = .ok (o.candidate.forwardHost, port) := by
  have htarget : o.candidate.forwardHost = "" ∨
      ∃ address port, Address.split address = .ok (o.candidate.forwardHost, port) := by
    rw [Occurrence.candidate]
    cases Occurrence.proxy? (Handler.flatten o.route.handle) with
    | none => exact .inl rfl
    | some p => exact Occurrence.forwardHost_withProxy p _
  refine htarget.resolve_left fun hempty => ?_
  rw [Candidate.isActionable, hempty] at h
  simp at h

theorem exists_split_of_extract {bs : Bytes} {r : ImportResult} (h : extract bs = .ok r)
    {c : Candidate} (hc : c ∈ r.hosts) (htarget : c.isActionable = true) :
    ∃ address port, Address.split address = .ok (c.forwardHost, port) := by
  obtain ⟨d, -, rfl⟩ := map_eq_ok.1 h
  obtain ⟨s, -, rfl⟩ := List.mem_map.1 hc
  exact Occurrence.exists_split_candidate htarget

/-! ## Imported records -/

section Imported

variable {bs : Bytes} {r : ImportResult} {ids : Nat → String} {x : RoutingRecord}

/-- Every imported record comes from a candidate with a target. -/
theorem exists_candidate_of_mem {hosts : List Candidate}
    (hx : x ∈ toRecords ids Dict.empty hosts) :
    ∃ c ∈ hosts, c.isActionable = true ∧ IsImportOf c x := by
  have hmem : x.anonymous ∈ (toRecords ids Dict.empty hosts).map RoutingRecord.anonymous :=
    List.mem_map_of_mem hx
  rw [toRecords_eq] at hmem
  obtain ⟨c, hc, heq⟩ := List.mem_map.1 hmem
  obtain ⟨hc, htarget⟩ := List.mem_filter.1 hc
  exact ⟨c, hc, htarget, isImportOf_of_anonymous heq⟩

/-- **The target of an imported record can be dialled unless it starts with a bracket.** -/
theorem isDialable_imported_iff (hextract : extract bs = .ok r)
    (hx : x ∈ toRecords ids Dict.empty r.hosts) :
    x.HasDialableTargets ↔ x.forwardHost.toList.head? ≠ some '[' := by
  obtain ⟨c, hc, htarget, himport⟩ := exists_candidate_of_mem hx
  obtain ⟨address, port, hsplit⟩ := exists_split_of_extract hextract hc htarget
  rw [RoutingRecord.HasDialableTargets, himport.locations,
    and_iff_left fun l hl => absurd hl List.not_mem_nil, himport.forwardHost]
  constructor
  · rintro ⟨t, ht⟩ hhead
    exact Address.split_join_of_bracket hsplit hhead _ t ht
  · exact fun hhead => ⟨_, Address.split_join (Address.isPlain_of_split hsplit hhead) _⟩

theorem enabledRecords_append_toRecords (ids : Nat → String) (existing : List RoutingRecord)
    (hosts : List Candidate) :
    enabledRecords (existing ++ toRecords ids Dict.empty hosts) =
      enabledRecords existing ++ toRecords ids Dict.empty hosts := by
  rw [enabledRecords, enabledRecords, List.filter_append]
  refine congrArg _ (List.filter_eq_self.2 fun x hx => ?_)
  obtain ⟨c, -, -, himport⟩ := exists_candidate_of_mem hx
  exact himport.enabled

end Imported

/-! ## Records together -/

section Together

variable {m : SyncManager} {existing : List RoutingRecord} {email : String} {d : Document}
  {bs : Bytes} {r : ImportResult}

/-- **When records and imported ones render together.**  Every imported record must have a domain
and a target without a bracket in front, and no domain may be repeated. -/
theorem documentOf_append_toRecords_iff (h : m.documentOf existing email = .ok d)
    (hextract : extract bs = .ok r) (ids : Nat → String) :
    (∃ d', m.documentOf (existing ++ toRecords ids Dict.empty r.hosts) email = .ok d') ↔
      (∀ x ∈ toRecords ids Dict.empty r.hosts,
        x.domains ≠ [] ∧ x.forwardHost.toList.head? ≠ some '[') ∧
      ((enabledRecords existing ++ toRecords ids Dict.empty r.hosts).flatMap
        (·.domains)).Nodup := by
  obtain ⟨hcompile, hconsistent⟩ := documentOf_eq_ok.1 h
  have henabled := enabledRecords_append_toRecords ids existing r.hosts
  constructor
  · rintro ⟨d', hd'⟩
    obtain ⟨hcompile', hconsistent'⟩ := documentOf_eq_ok.1 hd'
    have hdomains := (compile_eq_ok.1 hcompile').1
    have htargets := hconsistent'.targets
    rw [henabled] at hdomains htargets
    refine ⟨fun x hx => ⟨hdomains x (List.mem_append_right _ hx), ?_⟩, ?_⟩
    · exact (isDialable_imported_iff hextract hx).1 (htargets x (List.mem_append_right _ hx))
    · exact henabled ▸ hconsistent'.domains
  · rintro ⟨himported, hnodup⟩
    refine (documentOf_of_domains m email ?_).1.2 ⟨henabled ▸ hnodup, ?_, ?_⟩
    -- each rule holds of the records that were there, and of the imported ones
    all_goals
      rw [henabled]
      intro x hx
      rcases List.mem_append.1 hx with hx | hx
    · exact (compile_eq_ok.1 hcompile).1 x hx
    · exact (himported x hx).1
    · exact hconsistent.patterns x hx
    · obtain ⟨c, -, -, himport⟩ := exists_candidate_of_mem hx
      rw [RoutingRecord.patterns, himport.locations]
      exact List.nodup_nil
    · exact hconsistent.targets x hx
    · exact (isDialable_imported_iff hextract hx).2 (himported x hx).2

/-- Single domains that were compared are not repeated. -/
theorem nodup_append_toRecords (hnodup : ((enabledRecords existing).flatMap (·.domains)).Nodup)
    (hextract : extract bs = .ok r) (hclean : (r.detectConflicts existing).conflicts = [])
    (hdomains : ∀ c ∈ r.hosts, c.isActionable = true → IsDomain c.domainNames)
    (ids : Nat → String) :
    ((enabledRecords existing ++ toRecords ids Dict.empty r.hosts).flatMap (·.domains)).Nodup := by
  have hunmanaged : ∀ c ∈ r.hosts, c.domainNames ∉ existing.flatMap (·.domains) := by
    have hnone := (List.append_eq_nil_iff.1 hclean).2
    intro c hc hmem
    have hconflict := List.filter_eq_nil_iff.1 (List.map_eq_nil_iff.1 hnone) c hc
    exact hconflict (List.contains_iff_mem.2 hmem)
  -- the domains of an imported record are the one name that it was imported under
  have hone : (toRecords ids Dict.empty r.hosts).flatMap (·.domains) =
      (toRecords ids Dict.empty r.hosts).map (·.domainNames) := by
    rw [List.map_eq_flatMap]
    refine List.flatMap_congr fun x hx => ?_
    obtain ⟨c, hc, htarget, himport⟩ := exists_candidate_of_mem hx
    exact RoutingRecord.domains_eq_singleton (himport.domainNames ▸ hdomains c hc htarget)
  rw [List.flatMap_append, hone, List.nodup_append]
  refine ⟨hnodup, ?_, ?_⟩
  · rw [map_domainNames_toRecords, nodup_importedNames_iff (nodup_domainNames_extract hextract)]
    exact fun c _ hrenamed => absurd ((Dict.get?_empty _).symm.trans hrenamed.2) nofun
  · intro host hhost name hname heq
    obtain ⟨y, hy, hydomain⟩ := List.mem_flatMap.1 hhost
    obtain ⟨x, hx, rfl⟩ := List.mem_map.1 hname
    obtain ⟨c, hc, -, himport⟩ := exists_candidate_of_mem hx
    refine hunmanaged c hc (List.mem_flatMap.2 ⟨y, (List.mem_filter.1 hy).1, ?_⟩)
    rwa [← himport.domainNames, ← heq]

/-- **What a conflict-free import needs.**  Records that render still render together with all that
is imported without conflicts just if every imported record has a domain and a target without a
bracket in front, and no domain is repeated once hosts are divided into domains.  It is enough that
the host of every candidate with a target is a single domain, and its target has no bracket in
front. -/
theorem documentOf_cleanImport (h : m.documentOf existing email = .ok d)
    (hextract : extract bs = .ok r) (hclean : (r.detectConflicts existing).conflicts = [])
    (ids : Nat → String) :
    ((∃ d', m.documentOf (existing ++ toRecords ids Dict.empty r.hosts) email = .ok d') ↔
      (∀ x ∈ toRecords ids Dict.empty r.hosts,
        x.domains ≠ [] ∧ x.forwardHost.toList.head? ≠ some '[') ∧
      ((enabledRecords existing ++
        toRecords ids Dict.empty r.hosts).flatMap (·.domains)).Nodup) ∧
    ((∀ c ∈ r.hosts, c.isActionable = true →
        IsDomain c.domainNames ∧ c.forwardHost.toList.head? ≠ some '[') →
      ∃ d', m.documentOf (existing ++ toRecords ids Dict.empty r.hosts) email = .ok d') := by
  refine ⟨documentOf_append_toRecords_iff h hextract ids, fun hplain => ?_⟩
  refine (documentOf_append_toRecords_iff h hextract ids).2 ⟨fun x hx => ?_, ?_⟩
  · obtain ⟨c, hc, htarget, himport⟩ := exists_candidate_of_mem hx
    obtain ⟨hdomain, hhead⟩ := hplain c hc htarget
    have hdomains : x.domains = [x.domainNames] :=
      RoutingRecord.domains_eq_singleton (himport.domainNames ▸ hdomain)
    rw [hdomains, himport.forwardHost]
    exact ⟨List.cons_ne_nil _ _, hhead⟩
  · exact nodup_append_toRecords (documentOf_eq_ok.1 h).2.domains hextract hclean
      (fun c hc htarget => (hplain c hc htarget).1) ids

end Together

/-! ## Hosts that are compared as they are written -/

instance (d : String) : Decidable (IsDomain d) :=
  decidable_of_iff (d.toList ≠ [] ∧ ',' ∉ d.toList ∧ trimWhile isBlank d.toList = d.toList)
    ⟨fun ⟨hne, hcomma, htrim⟩ => ⟨hne, hcomma, htrim⟩, fun h => ⟨h.ne_nil, h.noComma, h.trimmed⟩⟩

/-- A record for a third host. -/
def otherRecords : List RoutingRecord := [RoutingRecord.create "r1" "c.example" "10.0.0.9" 80]

theorem documentOf_cleanImport_twoHosts :
    ∃ (m : SyncManager) (d d' : Document) (r : ImportResult),
      m.documentOf otherRecords "" = .ok d ∧ extract twoHostsText = .ok r ∧
      (r.detectConflicts otherRecords).conflicts = [] ∧
      m.documentOf (otherRecords ++ toRecords Numeral.write Dict.empty r.hosts) "" = .ok d' := by
  let m := SyncManager.create ⟨"http://localhost:2019"⟩ "/etc/proxy"
  have hcheck : (extract twoHostsText).map (fun r => decide
      ((r.detectConflicts otherRecords).conflicts = [] ∧
        ∀ c ∈ r.hosts, c.isActionable = true →
          IsDomain c.domainNames ∧ c.forwardHost.toList.head? ≠ some '[')) = .ok true := by
    decide +kernel
  obtain ⟨r, hextract, hdecide⟩ := map_eq_ok.1 hcheck
  obtain ⟨hclean, hplain⟩ := of_decide_eq_true hdecide
  obtain ⟨d, hd⟩ : ∃ d, m.documentOf otherRecords "" = .ok d := ⟨_, rfl⟩
  obtain ⟨d', hd'⟩ := (documentOf_cleanImport hd hextract hclean Numeral.write).2 hplain
  exact ⟨m, d, d', r, hd, hextract, hclean, hd'⟩

/-- The text of a document in which one host is two domains, and one of them stands alone, too. -/
def overlappingText : Bytes :=
  (proxiesDocument
    [("a.example, b.example", "10.0.0.1:80"), ("b.example", "10.0.0.2:80")]).compact

theorem not_documentOf_overlapping :
    ∃ (m : SyncManager) (d : Document) (r : ImportResult),
      m.documentOf [] "" = .ok d ∧ extract overlappingText = .ok r ∧
      (r.detectConflicts []).conflicts = [] ∧
      ¬∃ d', m.documentOf ([] ++ toRecords Numeral.write Dict.empty r.hosts) "" = .ok d' := by
  let m := SyncManager.create ⟨"http://localhost:2019"⟩ "/etc/proxy"
  have hcheck : (extract overlappingText).map (fun r => decide
      ((r.detectConflicts []).conflicts = [] ∧
        ¬((enabledRecords ([] ++ toRecords Numeral.write Dict.empty r.hosts)).flatMap
          (·.domains)).Nodup)) = .ok true := by decide +kernel
  obtain ⟨r, hextract, hdecide⟩ := map_eq_ok.1 hcheck
  obtain ⟨hclean, hrepeated⟩ := of_decide_eq_true hdecide
  refine ⟨m, _, r, rfl, hextract, hclean, ?_⟩
  rintro ⟨d', hd'⟩
  exact hrepeated (documentOf_eq_ok.1 hd').2.domains

end ProxyPlane
