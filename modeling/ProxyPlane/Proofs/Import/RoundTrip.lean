import Mathlib.Data.List.Forall2
import ProxyPlane.Proofs.Domains
import ProxyPlane.Proofs.Import.Compiled

/-!
# Importing compiled documents

What is found in a compiled document can be imported again.  The records that come back are not the
ones that were compiled: each has one domain, and path rules and header rules are gone.  But they
send the requests for their domains to the same targets, and importing once more changes nothing.

## What is here

* `IsImportOf`, what a record has of the candidate that it is imported from.
* `recovered`, the record that a domain of a record comes back as, and `ComeBack`, the records that
  come back from some records; `map_anonymous_toRecords`: those are the imported ones.
* `ComeBack.areConsistent` and `ComeBack.eq_of_comeBack`: they render, and come back as they are.
* `ownRoutes_document`: the one route without paths that a compiled document has for a domain.
* `reimport_compiled`: from records to a document and back, and once more.
-/

set_option autoImplicit false
namespace ProxyPlane

open Compile

/-! ## What is imported -/

/-- The record without its identifier. -/
def RoutingRecord.anonymous (r : RoutingRecord) : RoutingRecord := { r with id := "" }

/-- Whether a record sends requests anywhere. -/
def RoutingRecord.hasTarget (r : RoutingRecord) : Bool :=
  !r.forwardHost.isEmpty && r.forwardPort != 0

/-- The record that a domain of a record comes back as, apart from its identifier. -/
def recovered (t : RoutingRecord × String) : RoutingRecord :=
  { RoutingRecord.create "" t.2 t.1.forwardHost t.1.forwardPort with
    forwardScheme := if t.1.forwardScheme.toLower = "https" then "https" else "http"
    sslForced := "https".toList.isPrefixOf t.2.toList
    websocketSupport := t.1.websocketSupport }

/-- A record is imported from a candidate: it has the domain, the target and the choices of the
candidate, is enabled, and has no path rules. -/
structure IsImportOf (c : Candidate) (r : RoutingRecord) : Prop where
  domainNames : r.domainNames = c.domainNames
  forwardScheme : r.forwardScheme = c.forwardScheme
  forwardHost : r.forwardHost = c.forwardHost
  forwardPort : r.forwardPort = c.forwardPort
  sslForced : r.sslForced = c.sslForced
  websocketSupport : r.websocketSupport = c.websocketSupport
  enabled : r.enabled = true
  locations : r.locations = []

/-- Without resolutions, each candidate with a target is imported under its own domain. -/
theorem toRecords_eq (ids : Nat → String) (hosts : List Candidate) :
    (toRecords ids Dict.empty hosts).map RoutingRecord.anonymous =
      (hosts.filter Candidate.isActionable).map fun c => c.toRecord "" c.domainNames := by
  induction hosts generalizing ids with
  | nil => rfl
  | cons c rest ih =>
    have hdomain : (((Dict.empty : Dict Resolution).get? c.domainNames).getD .importIt).domain?
        c.domainNames = some c.domainNames := rfl
    rw [toRecords, hdomain]
    cases hc : c.isActionable with
    | false =>
      rw [List.filter_cons_of_neg (by simp [hc])]
      exact ih ids
    | true =>
      rw [List.filter_cons_of_pos hc, List.map_cons]
      exact congrArg _ (ih _)

theorem isImportOf_of_anonymous {c : Candidate} {r : RoutingRecord}
    (h : c.toRecord "" c.domainNames = r.anonymous) : IsImportOf c r where
  domainNames := (congrArg (·.domainNames) h).symm
  forwardScheme := (congrArg (·.forwardScheme) h).symm
  forwardHost := (congrArg (·.forwardHost) h).symm
  forwardPort := (congrArg (·.forwardPort) h).symm
  sslForced := (congrArg (·.sslForced) h).symm
  websocketSupport := (congrArg (·.websocketSupport) h).symm
  enabled := (congrArg (·.enabled) h).symm
  locations := (congrArg (·.locations) h).symm

/-- **The imported records are those of the candidates with a target**, one for each, in order. -/
theorem forall₂_isImportOf (ids : Nat → String) (hosts : List Candidate) :
    List.Forall₂ IsImportOf (hosts.filter Candidate.isActionable)
      (toRecords ids Dict.empty hosts) := by
  have hequal := toRecords_eq ids hosts
  rw [← List.forall₂_eq_eq_eq, List.forall₂_map_left_iff, List.forall₂_map_right_iff] at hequal
  exact hequal.flip.imp fun c r h => isImportOf_of_anonymous h.symm

theorem map_filter_of_forall₂ {α β γ : Type} {R : α → β → Prop} {p : α → Bool} {q : β → Bool}
    {f : α → γ} {g : β → γ} {xs : List α} {ys : List β} (h : List.Forall₂ R xs ys)
    (htest : ∀ x y, R x y → p x = q y) (hvalue : ∀ x y, R x y → f x = g y) :
    (xs.filter p).map f = (ys.filter q).map g := by
  induction h with
  | nil => rfl
  | @cons x y xs ys hxy _ ih =>
    rw [List.filter_cons, List.filter_cons, htest x y hxy]
    split
    · rw [List.map_cons, List.map_cons, hvalue x y hxy, ih]
    · exact ih

/-- **What is imported from the candidates of some records.** -/
theorem map_anonymous_toRecords {records : List RoutingRecord} {hosts : List Candidate}
    (h : List.Forall₂ (fun t c => Recovers t.1 t.2 c) (targets records) hosts)
    (ids : Nat → String) :
    (toRecords ids Dict.empty hosts).map RoutingRecord.anonymous =
      ((targets records).filter fun t => t.1.hasTarget).map recovered := by
  rw [toRecords_eq]
  refine (map_filter_of_forall₂ h (fun t c hc => ?_) fun t c hc => ?_).symm
  · rw [RoutingRecord.hasTarget, Candidate.isActionable, hc.forwardHost, hc.forwardPort]
  · rw [recovered, Candidate.toRecord, hc.domainNames, hc.forwardHost, hc.forwardPort,
      hc.forwardScheme, hc.sslForced, hc.websocketSupport]

/-! ## Records that come back -/

theorem recovered_recovered (t : RoutingRecord × String) :
    recovered (recovered t, t.2) = recovered t := by
  have hscheme : (if (recovered t).forwardScheme.toLower = "https" then "https" else "http") =
      (recovered t).forwardScheme := by
    simp only [recovered, ← isHttps_iff]
    cases isHttps t.1.forwardScheme with
    | false => rfl
    | true => rfl
  rw [recovered, hscheme]
  rfl

/-- A target is the same after its scheme was read back. -/
theorem target_recovered (t : RoutingRecord × String) :
    target (recovered t).forwardScheme (recovered t).forwardHost (recovered t).forwardPort
        (recovered t).websocketSupport =
      target t.1.forwardScheme t.1.forwardHost t.1.forwardPort t.1.websocketSupport := by
  have hscheme : isHttps (recovered t).forwardScheme = isHttps t.1.forwardScheme := by
    simp only [recovered, ← isHttps_iff]
    cases isHttps t.1.forwardScheme with
    | false => rfl
    | true => rfl
  rw [target, target, hscheme]
  rfl

section Imported

variable {records imported : List RoutingRecord} {r : RoutingRecord}

/-- The records are those that come back, apart from their identifiers. -/
def ComeBack (records imported : List RoutingRecord) : Prop :=
  imported.map RoutingRecord.anonymous =
    ((targets records).filter fun t => t.1.hasTarget).map recovered

namespace ComeBack

variable (h : ComeBack records imported)

include h

theorem exists_of_mem (hr : r ∈ imported) :
    ∃ t ∈ targets records, t.1.hasTarget = true ∧ recovered t = r.anonymous := by
  have hmem : r.anonymous ∈ imported.map RoutingRecord.anonymous := List.mem_map_of_mem hr
  rw [h] at hmem
  obtain ⟨t, ht, heq⟩ := List.mem_map.1 hmem
  obtain ⟨ht, htarget⟩ := List.mem_filter.1 ht
  exact ⟨t, ht, htarget, heq⟩

/-- Each record that comes back has a domain and the target of a record. -/
theorem exists_record_of_mem (hr : r ∈ imported) :
    ∃ x ∈ enabledRecords records, r.domainNames ∈ x.domains ∧ r.forwardHost = x.forwardHost ∧
      r.forwardPort = x.forwardPort ∧
      target r.forwardScheme r.forwardHost r.forwardPort r.websocketSupport =
        target x.forwardScheme x.forwardHost x.forwardPort x.websocketSupport := by
  obtain ⟨t, ht, -, heq⟩ := h.exists_of_mem hr
  obtain ⟨hx, hdomain⟩ := mem_targets.1 ht
  have hnames : t.2 = r.domainNames := congrArg (·.domainNames) heq
  have htarget := target_recovered t
  rw [heq] at htarget
  exact ⟨t.1, hx, hnames ▸ hdomain, (congrArg (·.forwardHost) heq).symm,
    (congrArg (·.forwardPort) heq).symm, htarget⟩

theorem domains_eq (hr : r ∈ imported) : r.domains = [r.domainNames] := by
  obtain ⟨x, -, hdomain, -⟩ := h.exists_record_of_mem hr
  exact RoutingRecord.domains_eq_singleton (RoutingRecord.isDomain_of_mem_domains hdomain)

theorem enabledRecords_eq : enabledRecords imported = imported := by
  refine List.filter_eq_self.2 fun r hr => ?_
  obtain ⟨t, -, -, heq⟩ := h.exists_of_mem hr
  exact (congrArg (·.enabled) heq).symm

theorem targets_eq : targets imported = imported.map fun r => (r, r.domainNames) := by
  rw [targets, h.enabledRecords_eq, List.map_eq_flatMap]
  refine List.flatMap_congr fun r hr => ?_
  rw [h.domains_eq hr, List.map_singleton]

/-- The domains of the records that come back are among those of the records. -/
theorem domains_sublist :
    (imported.flatMap (·.domains)).Sublist ((enabledRecords records).flatMap (·.domains)) := by
  have hnames : imported.flatMap (·.domains) =
      (imported.map RoutingRecord.anonymous).map (·.domainNames) := by
    rw [List.map_map, List.map_eq_flatMap]
    exact List.flatMap_congr fun r hr => h.domains_eq hr
  rw [hnames, h, List.map_map, ← map_snd_targets]
  exact List.filter_sublist.map _

/-- **Records that come back come back as they are.** -/
theorem eq_of_comeBack {again : List RoutingRecord} (hagain : ComeBack imported again) :
    again.map RoutingRecord.anonymous = imported.map RoutingRecord.anonymous := by
  have hall : ∀ t ∈ targets imported, t.1.hasTarget = true := by
    intro t ht
    rw [h.targets_eq] at ht
    obtain ⟨r, hr, rfl⟩ := List.mem_map.1 ht
    obtain ⟨t, -, htarget, heq⟩ := h.exists_of_mem hr
    calc r.hasTarget = (recovered t).hasTarget := congrArg (·.hasTarget) heq.symm
      _ = true := htarget
  rw [hagain, List.filter_eq_self.2 hall, h.targets_eq, List.map_map]
  refine List.map_congr_left fun r hr => ?_
  obtain ⟨t, -, -, heq⟩ := h.exists_of_mem hr
  calc recovered (r, r.domainNames) = recovered (r.anonymous, r.anonymous.domainNames) := rfl
    _ = recovered (recovered t, t.2) := by rw [← heq]; rfl
    _ = r.anonymous := (recovered_recovered t).trans heq

theorem isPlain_of_mem (hplain : ∀ r ∈ enabledRecords records, Address.IsPlain r.forwardHost)
    (hr : r ∈ imported) : Address.IsPlain r.forwardHost := by
  obtain ⟨x, hx, -, hhost, -⟩ := h.exists_record_of_mem hr
  exact hhost ▸ hplain x hx

theorem port_lt_of_mem (hport : ∀ r ∈ enabledRecords records, r.forwardPort < portBound)
    (hr : r ∈ imported) : r.forwardPort < portBound := by
  obtain ⟨x, hx, -, -, hsame, -⟩ := h.exists_record_of_mem hr
  exact hsame ▸ hport x hx

/-- **Records that come back render.** -/
theorem areConsistent (hdomains : ((enabledRecords records).flatMap (·.domains)).Nodup)
    (hplain : ∀ r ∈ enabledRecords records, Address.IsPlain r.forwardHost) :
    AreConsistent imported := by
  have hlocations : ∀ r ∈ imported, r.locations = [] := by
    intro r hr
    obtain ⟨t, -, -, heq⟩ := h.exists_of_mem hr
    exact (congrArg (·.locations) heq).symm
  refine ⟨?_, fun r hr => ?_, fun r hr => ?_⟩
  · rw [h.enabledRecords_eq]
    exact hdomains.sublist h.domains_sublist
  · rw [h.enabledRecords_eq] at hr
    rw [RoutingRecord.patterns, hlocations r hr]
    exact List.nodup_nil
  · rw [h.enabledRecords_eq] at hr
    refine ⟨⟨_, Address.split_join (h.isPlain_of_mem hplain hr) _⟩, fun l hl => ?_⟩
    rw [hlocations r hr] at hl
    exact absurd hl List.not_mem_nil

end ComeBack

end Imported

/-! ## Routes without paths -/

/-- Whether a route names a host without paths. -/
def Route.owns (x : Route) (host : String) : Bool :=
  x.matchers.any fun m => m.path.isEmpty && m.host.contains host

/-- The reverse proxies among the handlers of a route. -/
def Route.proxies (x : Route) : List ReverseProxy :=
  x.handle.filterMap fun
    | .reverseProxy p => some p
    | _ => none

/-- The routes of a document that name a host without paths. -/
def Document.ownRoutes (d : Document) (host : String) : List Route :=
  d.servers.flatMap fun e => e.2.routes.filter (·.owns host)

/-- Two documents have one route each that names the host without paths, and one reverse proxy each
on it, and that is the same. -/
def HaveSameProxy (d d' : Document) (host : String) : Prop :=
  ∃ x x' p, d.ownRoutes host = [x] ∧ d'.ownRoutes host = [x'] ∧
    x.proxies = [p] ∧ x'.proxies = [p]

theorem filter_owns_recordRoutes (r : RoutingRecord) (host : String) :
    (recordRoutes r).filter (·.owns host) =
      if r.domains.contains host then [catchAllRoute r.domains r] else [] := by
  have hrules : (r.locations.map (pathRoute r.domains r.websocketSupport)).filter
      (·.owns host) = [] := by
    refine List.filter_eq_nil_iff.2 fun x hx => ?_
    obtain ⟨l, -, rfl⟩ := List.mem_map.1 hx
    simp [Route.owns, pathRoute, pathPatterns]
  have hown : (catchAllRoute r.domains r).owns host = r.domains.contains host := by
    simp [Route.owns, catchAllRoute, MatcherSet.empty]
  rw [recordRoutes, List.filter_append, hrules, List.nil_append, List.filter_cons, hown,
    List.filter_nil]

theorem filter_contains_domains {records : List RoutingRecord} {r : RoutingRecord} {host : String}
    (h : (records.flatMap (·.domains)).Nodup) (hr : r ∈ records) (hhost : host ∈ r.domains) :
    records.filter (·.domains.contains host) = [r] := by
  induction records with
  | nil => exact absurd hr List.not_mem_nil
  | cons x rest ih =>
    rw [List.flatMap_cons, List.nodup_append] at h
    obtain ⟨-, hrest, hcross⟩ := h
    have hdisjoint : host ∈ x.domains → ∀ y ∈ rest, host ∉ y.domains := fun hx y hy hmem =>
      hcross host hx host (List.mem_flatMap.2 ⟨y, hy, hmem⟩) rfl
    rcases List.mem_cons.1 hr with rfl | hr
    · have hnone : rest.filter (·.domains.contains host) = [] :=
        List.filter_eq_nil_iff.2 fun y hy => by simpa using hdisjoint hhost y hy
      rw [List.filter_cons_of_pos (by simpa using hhost), hnone]
    · have hx : host ∉ x.domains := fun hx => hdisjoint hx r hr hhost
      rw [List.filter_cons_of_neg (by simpa using hx), ih hrest hr]

/-- **A compiled document has one route without paths for each domain**: the own route of the record
of the domain. -/
theorem ownRoutes_document {records : List RoutingRecord} {r : RoutingRecord} {host : String}
    (root email : String) (h : (records.flatMap (·.domains)).Nodup) (hr : r ∈ records)
    (hhost : host ∈ r.domains) :
    (document root email (records.flatMap recordRoutes)).ownRoutes host =
      [catchAllRoute r.domains r] := by
  have hroutes : (records.flatMap recordRoutes).filter (·.owns host) =
      (records.filter (·.domains.contains host)).map fun r => catchAllRoute r.domains r := by
    rw [List.filter_flatMap]
    simp only [filter_owns_recordRoutes]
    clear h hr
    induction records with
    | nil => rfl
    | cons x rest ih =>
      rw [List.flatMap_cons, ih, List.filter_cons]
      split <;> simp
  rw [filter_contains_domains h hr hhost] at hroutes
  exact (List.append_nil _).trans hroutes

/-- The own route of a record has one reverse proxy, the one to its target. -/
theorem proxies_catchAllRoute {r : RoutingRecord} {p : ReverseProxy}
    (hp : target r.forwardScheme r.forwardHost r.forwardPort r.websocketSupport =
      .reverseProxy p) : (catchAllRoute r.domains r).proxies = [p] := by
  rw [Route.proxies, catchAllRoute, recordHandlers, hp]
  cases r.hstsEnabled <;> cases r.blockExploits <;> rfl

/-! ## There and back -/

section RoundTrip

variable {m : SyncManager} {records : List RoutingRecord} {email : String} {d : Document}

/-- **What is found in the text of a compiled document.** -/
theorem extract_compact (h : m.documentOf records email = .ok d)
    (hplain : ∀ r ∈ enabledRecords records, Address.IsPlain r.forwardHost)
    (hport : ∀ r ∈ enabledRecords records, r.forwardPort < portBound) :
    ∃ hosts, extract d.compact = .ok ⟨hosts, [], []⟩ ∧
      List.Forall₂ (fun t c => Recovers t.1 t.2 c) (targets records) hosts := by
  obtain ⟨hcompile, hconsistent⟩ := documentOf_eq_ok.1 h
  obtain ⟨hosts, hextract, hrecovers⟩ :=
    extractDocument_document m.storageRoot email hconsistent.domains hplain hport
  refine ⟨hosts, ?_, hrecovers⟩
  rw [extract, decode_compact_compile hcompile, (compile_eq_ok.1 hcompile).2]
  exact congrArg Except.ok hextract

/-- Documents of records and of those that come back send the requests for a domain to the same
target. -/
theorem ComeBack.haveSameProxy {imported : List RoutingRecord} {m' : SyncManager} {email' : String}
    {d' : Document} {host : String} (hback : ComeBack records imported)
    (h : m.documentOf records email = .ok d) (h' : m'.documentOf imported email' = .ok d')
    {r : RoutingRecord} (hr : r ∈ imported) (hhost : host ∈ r.domains) :
    HaveSameProxy d d' host := by
  obtain ⟨hcompile, hconsistent⟩ := documentOf_eq_ok.1 h
  obtain ⟨hcompile', hconsistent'⟩ := documentOf_eq_ok.1 h'
  obtain ⟨-, rfl⟩ := compile_eq_ok.1 hcompile
  obtain ⟨-, rfl⟩ := compile_eq_ok.1 hcompile'
  obtain ⟨x, hx, hdomain, -, -, htarget⟩ := hback.exists_record_of_mem hr
  have hsame : host = r.domainNames := by
    rw [hback.domains_eq hr] at hhost
    exact List.mem_singleton.1 hhost
  have hxhost : host ∈ x.domains := hsame ▸ hdomain
  obtain ⟨p, hp, -⟩ := exists_proxyTo (Address.join x.forwardHost x.forwardPort)
    x.websocketSupport (isHttps x.forwardScheme)
  have hmem : r ∈ enabledRecords imported := hback.enabledRecords_eq.symm ▸ hr
  exact ⟨_, _, p, ownRoutes_document _ _ hconsistent.domains hx hxhost,
    ownRoutes_document _ _ hconsistent'.domains hmem hhost, proxies_catchAllRoute hp,
    proxies_catchAllRoute (htarget.trans hp)⟩

/-- **Compiling, extracting and importing preserve targets.**  Each domain of the enabled records is
found once, with the target of its record.  The records that are imported from what was found are
those with a target, one for each domain; they render, send the requests for their domains to the
same targets, and come back as they are when they are compiled, extracted and imported again. -/
theorem reimport_compiled (h : m.documentOf records email = .ok d)
    (hplain : ∀ r ∈ enabledRecords records, Address.IsPlain r.forwardHost)
    (hport : ∀ r ∈ enabledRecords records, r.forwardPort < portBound) :
    ∃ result, extract d.compact = .ok result ∧ result.conflicts = [] ∧ result.errors = [] ∧
      List.Forall₂ (fun t c => Recovers t.1 t.2 c) (targets records) result.hosts ∧
      ∀ ids imported, toRecords ids Dict.empty result.hosts = imported →
        List.Forall₂ IsImportOf
          (result.hosts.filter fun c => c.forwardHost ≠ "" ∧ c.forwardPort ≠ 0) imported ∧
        (∀ r ∈ imported, r.domains = [r.domainNames]) ∧
        ∀ (m' : SyncManager) (email' : String), ∃ d', m'.documentOf imported email' = .ok d' ∧
          (∀ r ∈ imported, ∀ host ∈ r.domains, HaveSameProxy d d' host) ∧
          ∃ again, extract d'.compact = .ok again ∧
            ∀ ids', (toRecords ids' Dict.empty again.hosts).map RoutingRecord.anonymous =
              imported.map RoutingRecord.anonymous := by
  obtain ⟨hosts, hextract, hrecovers⟩ := extract_compact h hplain hport
  refine ⟨⟨hosts, [], []⟩, hextract, rfl, rfl, hrecovers, ?_⟩
  rintro ids imported rfl
  -- what is asked of the imported records is read off the records that they come back from
  have hback : ComeBack records (toRecords ids Dict.empty hosts) :=
    map_anonymous_toRecords hrecovers ids
  have hconsistent := (documentOf_eq_ok.1 h).2
  have hplain' := fun r hr => hback.isPlain_of_mem hplain (r := r) (hback.enabledRecords_eq ▸ hr)
  have hport' := fun r hr => hback.port_lt_of_mem hport (r := r) (hback.enabledRecords_eq ▸ hr)
  refine ⟨?_, fun r hr => hback.domains_eq hr, fun m' email' => ?_⟩
  · have hactionable : (fun c : Candidate => decide (c.forwardHost ≠ "" ∧ c.forwardPort ≠ 0)) =
        Candidate.isActionable := by
      funext c
      rw [Candidate.isActionable, Bool.eq_iff_iff]
      simp
    rw [hactionable]
    exact forall₂_isImportOf ids hosts
  · have hne : ∀ r ∈ enabledRecords (toRecords ids Dict.empty hosts), r.domains ≠ [] := by
      intro r hr
      rw [hback.enabledRecords_eq] at hr
      rw [hback.domains_eq hr]
      exact List.cons_ne_nil _ _
    obtain ⟨d', hd'⟩ := (documentOf_of_domains m' email' hne).1.2
      (hback.areConsistent hconsistent.domains hplain)
    obtain ⟨hosts', hextract', hrecovers'⟩ := extract_compact hd' hplain' hport'
    exact ⟨d', hd', fun r hr host hhost => hback.haveSameProxy h hd' hr hhost,
      ⟨hosts', [], []⟩, hextract', fun ids' =>
        hback.eq_of_comeBack (map_anonymous_toRecords hrecovers' ids')⟩

end RoundTrip

/-- Records of which one has two domains and a path rule in front of its target, one is disabled and
could not be compiled, and one has no target that could be imported. -/
def mixedRecords : List RoutingRecord :=
  [{ RoutingRecord.create "r1" "a.example, www.a.example" "::1" 8443 with
     forwardScheme := "HTTPS"
     hstsEnabled := true
     blockExploits := true
     websocketSupport := true
     locations := [⟨"/api", "http", "api", 9000⟩] },
   { RoutingRecord.create "r2" " , " "[::1" 80 with enabled := false },
   RoutingRecord.create "r3" "b.example" "10.0.0.2" 0]

theorem reimport_compiled_mixed :
    ∃ (m : SyncManager) (d d' : Document) (result : ImportResult) (imported : List RoutingRecord),
      m.documentOf mixedRecords "" = .ok d ∧
      extract d.compact = .ok result ∧
      toRecords Numeral.write Dict.empty result.hosts = imported ∧
      imported.map (·.domainNames) = ["a.example", "www.a.example"] ∧
      m.documentOf imported "" = .ok d' ∧
      ∀ host ∈ ["a.example", "www.a.example"], HaveSameProxy d d' host := by
  let m := SyncManager.create ⟨"http://localhost:2019"⟩ "/etc/proxy"
  have hcompile : m.documentOf mixedRecords "" = .ok _ := rfl
  obtain ⟨⟨hosts, conflicts, errors⟩, hextract, -, -, hrecovers, himport⟩ :=
    reimport_compiled hcompile (by decide) (by decide)
  obtain ⟨himported, hdomains, hagain⟩ := himport Numeral.write _ rfl
  obtain ⟨d', hd', hsame, -⟩ := hagain m ""
  have hnames : (toRecords Numeral.write Dict.empty hosts).map (·.domainNames) =
      ["a.example", "www.a.example"] := by
    have hback := congrArg (List.map (·.domainNames))
      (map_anonymous_toRecords hrecovers Numeral.write)
    rw [List.map_map, List.map_map] at hback
    exact hback
  refine ⟨m, _, d', _, _, hcompile, hextract, rfl, hnames, hd', fun host hhost => ?_⟩
  rw [← hnames] at hhost
  obtain ⟨r, hr, rfl⟩ := List.mem_map.1 hhost
  exact hsame r hr _ (hdomains r hr ▸ List.mem_singleton_self _)

end ProxyPlane
