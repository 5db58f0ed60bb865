import ProxyPlane.Proofs.Address
import ProxyPlane.Proofs.Import.Findings
import ProxyPlane.Proofs.Import.Flattening
import ProxyPlane.Proofs.Render
import ProxyPlane.Proofs.Routing
import ProxyPlane.Proofs.Text.Numeral

/-!
# Hosts of compiled documents

The compiler writes the path rules of a record in front of its own route.  Extraction first finds
the domains of the record there, and its own route takes all of them over, so that in the end each
domain is found with the target of its record.

## What is here

* `targets`, the domains of the enabled records with their records.
* `Recovers`, what is found out about a domain of a record.
* `candidate_catchAllRoute`: what a record's own route says about its domains.
* `slotFor?_document`: the own route of a record speaks for its domains.
* `extractDocument_document`: what is found in a compiled document.
-/

set_option autoImplicit false
namespace ProxyPlane

open Compile

/-! ## What is to be found -/

/-- The domains of the enabled records with their records, in the order of the records and then of
their domains. -/
def targets (records : List RoutingRecord) : List (RoutingRecord × String) :=
  (enabledRecords records).flatMap fun r => r.domains.map fun domain => (r, domain)

/-- A candidate says about a domain what the record of the domain does, and there is nothing that a
record could not say. -/
structure Recovers (r : RoutingRecord) (domain : String) (c : Candidate) : Prop where
  domainNames : c.domainNames = domain
  forwardHost : c.forwardHost = r.forwardHost
  forwardPort : c.forwardPort = r.forwardPort
  websocketSupport : c.websocketSupport = r.websocketSupport
  forwardScheme : c.forwardScheme = if r.forwardScheme.toLower = "https" then "https" else "http"
  sslForced : c.sslForced = "https".toList.isPrefixOf domain.toList
  warnings : c.warnings = []

theorem mem_targets {records : List RoutingRecord} {t : RoutingRecord × String} :
    t ∈ targets records ↔ t.1 ∈ enabledRecords records ∧ t.2 ∈ t.1.domains := by
  simp only [targets, List.mem_flatMap, List.mem_map]
  constructor
  · rintro ⟨r, hr, domain, hdomain, rfl⟩
    exact ⟨hr, hdomain⟩
  · rintro ⟨hr, hdomain⟩
    exact ⟨_, hr, _, hdomain, rfl⟩

theorem map_snd_targets (records : List RoutingRecord) :
    (targets records).map (·.2) = (enabledRecords records).flatMap (·.domains) := by
  rw [targets, List.map_flatMap]
  simp only [List.map_map, Function.comp_def, List.map_id']

/-! ## What the handlers of a record say -/

/-- The handlers of a record hold no routes. -/
theorem flatten_recordHandlers (r : RoutingRecord) :
    Handler.flatten (recordHandlers r) = recordHandlers r := by
  refine Handler.flatten_of_not_isSubroute fun x hx hkind => ?_
  obtain ⟨fields, rfl, -⟩ := Handler.exists_of_isSubroute hkind
  rcases mem_recordHandlers hx with ⟨name, value, h⟩ | h | ⟨dial, upgrade, tls, h⟩ <;> cases h

theorem filterMap_warning?_recordHandlers (r : RoutingRecord) :
    (recordHandlers r).filterMap Occurrence.warning? = [] := by
  refine List.filterMap_eq_nil_iff.2 fun x hx => ?_
  rcases mem_recordHandlers hx with ⟨name, value, rfl⟩ | rfl | ⟨dial, upgrade, tls, rfl⟩ <;> rfl

/-- The first proxy among the handlers of a record is the one to its target. -/
theorem proxy?_recordHandlers {r : RoutingRecord} {p : ReverseProxy}
    (hp : target r.forwardScheme r.forwardHost r.forwardPort r.websocketSupport = .reverseProxy p) :
    Occurrence.proxy? (recordHandlers r) = some p := by
  rw [recordHandlers, hp, Occurrence.proxy?]
  cases r.hstsEnabled <;> cases r.blockExploits <;> rfl

/-- **What a record's own route says about a domain.** -/
theorem candidate_catchAllRoute {r : RoutingRecord} {o : Occurrence}
    (hroute : o.route = catchAllRoute r.domains r)
    (hserver : o.server.tlsConnectionPolicies = none)
    (hhost : Address.IsPlain r.forwardHost) (hport : r.forwardPort < portBound) :
    Recovers r o.host o.candidate := by
  obtain ⟨p, hp, hbackends, htls, hupgrade⟩ := exists_proxyTo
    (Address.join r.forwardHost r.forwardPort) r.websocketSupport (isHttps r.forwardScheme)
  have hhandle : o.route.handle = recordHandlers r := hroute ▸ rfl
  have hwrite : Numeral.u16? (Numeral.write r.forwardPort) = some r.forwardPort := by
    rw [Numeral.u16?, Numeral.read?_write]
    exact if_pos hport
  have hscheme : (if isHttps r.forwardScheme = true then "https" else "http") =
      if r.forwardScheme.toLower = "https" then "https" else "http" := by
    simp only [isHttps_iff]
  rw [Occurrence.candidate, hhandle, flatten_recordHandlers, proxy?_recordHandlers hp,
    filterMap_warning?_recordHandlers, hserver]
  simp only [Occurrence.withProxy, hbackends, Address.split_join hhost, hwrite, htls, hupgrade]
  exact ⟨rfl, rfl, rfl, rfl, hscheme, Bool.or_false _, rfl⟩

/-! ## Who speaks for a domain -/

/-- The places in the document of some records, all of them enabled. -/
def places (records : List RoutingRecord) : List Occurrence :=
  routesOccurrences serverName (server (records.flatMap recordRoutes)) 0
    (records.flatMap recordRoutes)

theorem occurrences_document (root email : String) (records : List RoutingRecord) :
    (document root email (records.flatMap recordRoutes)).occurrences = places records :=
  List.append_nil _

section Places

variable {records : List RoutingRecord} {r : RoutingRecord} {domain : String}

theorem hosts_recordRoutes (r : RoutingRecord) :
    (recordRoutes r).flatMap Route.hosts =
      (r.locations.flatMap fun _ => r.domains) ++ r.domains := by
  rw [recordRoutes, List.flatMap_append, List.flatMap_map, List.flatMap_singleton]
  simp [Route.hosts, pathRoute, catchAllRoute]

/-- Path rules own no hosts. -/
theorem ownHosts_recordRoutes (r : RoutingRecord) :
    (recordRoutes r).flatMap Route.ownHosts = r.domains := by
  have hrule : ∀ l : PathRule, (pathRoute r.domains r.websocketSupport l).ownHosts = [] :=
    fun _ => rfl
  rw [recordRoutes, List.flatMap_append, List.flatMap_map, List.flatMap_singleton]
  simp only [hrule]
  simp [Route.ownHosts, catchAllRoute, MatcherSet.empty]

/-- Each domain of records is found once, in their order. -/
theorem eraseDups_hosts (h : (records.flatMap (·.domains)).Nodup) :
    ((records.flatMap recordRoutes).flatMap Route.hosts).eraseDups =
      records.flatMap (·.domains) := by
  have hmem : ∀ (r : RoutingRecord) (x : String),
      x ∈ (recordRoutes r).flatMap Route.hosts → x ∈ r.domains := by
    intro r x hx
    rw [hosts_recordRoutes] at hx
    rcases List.mem_append.1 hx with hx | hx
    · obtain ⟨l, -, hx⟩ := List.mem_flatMap.1 hx
      exact hx
    · exact hx
  induction records with
  | nil => rfl
  | cons r rest ih =>
    rw [List.flatMap_cons, List.nodup_append] at h
    obtain ⟨hown, hrest, hcross⟩ := h
    have hone : ((recordRoutes r).flatMap Route.hosts).eraseDups = r.domains := by
      rw [hosts_recordRoutes]
      cases r.locations with
      | nil => exact eraseDups_of_nodup hown
      | cons l ls =>
        -- the first path rule names all domains, and nothing new is named behind it
        rw [List.flatMap_cons, List.append_assoc, eraseDups_append_of_subset,
          eraseDups_of_nodup hown]
        intro x hx
        rcases List.mem_append.1 hx with hx | hx
        · obtain ⟨l, -, hx⟩ := List.mem_flatMap.1 hx
          exact hx
        · exact hx
    rw [List.flatMap_cons, List.flatMap_append, List.flatMap_cons, eraseDups_append_of_disjoint,
      hone, ih hrest]
    intro x hx hx'
    obtain ⟨y, hy, hx⟩ := List.mem_flatMap.1 hx
    obtain ⟨r', hr', hy⟩ := List.mem_flatMap.1 hy
    exact hcross x (hmem r x hx') x (List.mem_flatMap.2 ⟨r', hr', hmem r' x
      (List.mem_flatMap.2 ⟨y, hy, hx⟩)⟩) rfl

theorem ownedHosts_places (records : List RoutingRecord) :
    ownedHosts (places records) = records.flatMap (·.domains) := by
  rw [places, ownedHosts_routesOccurrences, List.flatMap_assoc]
  simp only [ownHosts_recordRoutes]

/-- A place of a compiled route that owns its host is the own route of the record. -/
theorem route_of_pathless {o : Occurrence} (h : (records.flatMap (·.domains)).Nodup)
    (hr : r ∈ records) (hdomain : o.host ∈ r.domains)
    (ho : o ∈ places records) (hpathless : o.pathless = true) :
    o.route = catchAllRoute r.domains r := by
  obtain ⟨-, hroute, s, hs, hhost, hpath⟩ := mem_routesOccurrences ho
  obtain ⟨r', hr', hroute⟩ := List.mem_flatMap.1 hroute
  rcases List.mem_append.1 hroute with hrule | hown
  · obtain ⟨l, -, hl⟩ := List.mem_map.1 hrule
    rw [← hl] at hs
    obtain rfl := List.mem_singleton.1 hs
    exact absurd (hpath.symm.trans hpathless) nofun
  · have hcatch := List.mem_singleton.1 hown
    rw [hcatch] at hs
    obtain rfl := List.mem_singleton.1 hs
    obtain rfl := eq_of_mem_domains h hr hr' hdomain hhost
    exact hcatch

/-- **The own route of a record speaks for its domains.** -/
theorem slotFor?_document (h : (records.flatMap (·.domains)).Nodup) (hr : r ∈ records)
    (hdomain : domain ∈ r.domains) :
    ∃ o, slotFor? (places records) domain = some ⟨o, true⟩ ∧ o.host = domain ∧
      o.route = catchAllRoute r.domains r ∧ o.server.tlsConnectionPolicies = none := by
  have hown : domain ∈ ownedHosts (places records) := by
    rw [ownedHosts_places]
    exact List.mem_flatMap.2 ⟨r, hr, hdomain⟩
  obtain ⟨o, ho, rfl, hpathless, hslot⟩ := slotFor?_of_mem_ownedHosts hown
  refine ⟨o, hslot, rfl, route_of_pathless h hr hdomain ho hpathless, ?_⟩
  rw [(mem_routesOccurrences ho).1]
  rfl

end Places

/-! ## Compiled documents -/

theorem forall₂_filterMap {α β : Type} {R : α → β → Prop} {f : α → Option β} {xs : List α}
    (h : ∀ x ∈ xs, ∃ y, f x = some y ∧ R x y) : List.Forall₂ R xs (xs.filterMap f) := by
  induction xs with
  | nil => exact .nil
  | cons x xs ih =>
    obtain ⟨y, hy, hxy⟩ := h x List.mem_cons_self
    rw [List.filterMap_cons_some hy]
    exact .cons hxy (ih fun z hz => h z (List.mem_cons_of_mem _ hz))

/-- **What is found in a compiled document**: each domain of its records once, as its record has it,
and no conflict. -/
theorem extractDocument_document {records : List RoutingRecord} (root email : String)
    (h : ((enabledRecords records).flatMap (·.domains)).Nodup)
    (hhost : ∀ r ∈ enabledRecords records, Address.IsPlain r.forwardHost)
    (hport : ∀ r ∈ enabledRecords records, r.forwardPort < portBound) :
    ∃ hosts, extractDocument
        (document root email ((enabledRecords records).flatMap recordRoutes)) = ⟨hosts, [], []⟩ ∧
      List.Forall₂ (fun t c => Recovers t.1 t.2 c) (targets records) hosts := by
  have hduplicates : repeats [] (ownedHosts (places (enabledRecords records))) = [] := by
    rw [ownedHosts_places]
    exact repeats_of_nodup h fun _ _ => List.not_mem_nil
  have hdomains : ((places (enabledRecords records)).map (·.host)).eraseDups =
      (targets records).map (·.2) := by
    rw [places, map_host_routesOccurrences, eraseDups_hosts h, map_snd_targets]
  refine ⟨(targets records).filterMap fun t =>
    (slotFor? (places (enabledRecords records)) t.2).map fun s => s.place.candidate,
    ?_, forall₂_filterMap fun t ht => ?_⟩
  · rw [extractDocument, occurrences_document, foldl_add, findingsOf, hduplicates, hdomains,
      List.filterMap_map, List.map_filterMap]
    rfl
  · obtain ⟨hr, hdomain⟩ := mem_targets.1 ht
    obtain ⟨o, hslot, hdomain, hroute, hserver⟩ := slotFor?_document h hr hdomain
    have hrecovers := candidate_catchAllRoute hroute hserver (hhost _ hr) (hport _ hr)
    rw [hdomain] at hrecovers
    exact ⟨o.candidate, by rw [hslot]; rfl, hrecovers⟩

end ProxyPlane
