import Mathlib.Data.List.Forall2
import ProxyPlane.Proofs.Dict
import ProxyPlane.Proofs.Import.Findings
import ProxyPlane.Proofs.Json.Order

/-!
# What is extracted from a document

Extraction keeps a table of hosts and revises it as it goes.  Its result is described here without
the table, from the list of the places that name hosts: one candidate for each host, from the place
that speaks for it, and one conflict for each place that would own a host that is owned already.

## What is here

* `occurrences_eq` and `servers_increase`: which places there are, and in which order.
* `speakerFor?` and `lateOwners`, the places that candidates and conflicts come from.
* `ReverseProxy.firstTarget` and `Candidate.Describes`, what a candidate says about its place.
* `ImportResult.Reports`: a result is exactly what a list of places calls for.
* `extract_reports`: every document is reported exactly.
-/

set_option autoImplicit false
namespace ProxyPlane

/-! ## Places -/

theorem routesOccurrences_eq (serverName : String) (server : Server) (index : Nat)
    (routes : List Route) :
    routesOccurrences serverName server index routes =
      (routes.zipIdx index).flatMap fun (r, i) => r.occurrences serverName server i := by
  induction routes generalizing index with
  | nil => rfl
  | cons r rest ih => rw [routesOccurrences, List.zipIdx_cons, List.flatMap_cons, ih]

/-- **The places of a document**: by server, by route, by matcher set, by host. -/
theorem occurrences_eq (d : Document) :
    d.occurrences = d.servers.flatMap fun (name, server) =>
      server.routes.zipIdx.flatMap fun (route, index) =>
        route.matchers.flatMap fun m =>
          m.host.map fun host => ⟨host, m.path.isEmpty, name, server, index, route⟩ :=
  List.flatMap_congr fun e _ => routesOccurrences_eq e.1 e.2 0 e.2.routes

/-- Servers come in the order of their names. -/
theorem servers_increase (d : Document) : d.servers.Pairwise fun a b => a.1 < b.1 := by
  rw [Document.servers]
  cases d.apps.http with
  | none => exact .nil
  | some http => exact http.servers.increasing

/-! ## What is called for -/

/-- The place that speaks for a host: the first that owns it, or else the first that names it. -/
def speakerFor? (os : List Occurrence) (host : String) : Option Occurrence :=
  (os.find? fun o => o.host == host && o.pathless).or (os.find? fun o => o.host == host)

/-- The place, which stands at an index, owns a host that a place before it owns already. -/
def isLateOwner (os : List Occurrence) (place : Occurrence × Nat) : Bool :=
  place.1.pathless && (os.take place.2).any fun e => e.pathless && e.host == place.1.host

/-- The places that own a host which a place before them owns already. -/
def lateOwners (os : List Occurrence) : List Occurrence :=
  (os.zipIdx.filter (isLateOwner os)).map (·.1)

/-- The host and the port of the first server of a proxy.  A port that is no 16-bit number is
zero, and so is that of an address that cannot be split. -/
def ReverseProxy.firstTarget (p : ReverseProxy) : String × Nat :=
  match p.backends.head?.map fun b => Address.split b.dial with
  | some (.ok (host, port)) => (host, (Numeral.u16? port).getD 0)
  | _ => ("", 0)

/-- What a candidate says about the place that it was found at. -/
structure Candidate.Describes (c : Candidate) (o : Occurrence) : Prop where
  domainNames : c.domainNames = o.host
  /-- The first proxy that requests run into, whichever nested route it stands in. -/
  target : match Occurrence.proxy? (Handler.flatten o.route.handle) with
    | some p => (c.forwardHost, c.forwardPort) = p.firstTarget ∧
        c.forwardScheme = (if p.usesTls then "https" else "http") ∧
        c.websocketSupport = p.passesUpgrade
    | none => (c.forwardHost, c.forwardPort) = ("", 0) ∧
        c.forwardScheme = "http" ∧ c.websocketSupport = false
  sslForced : c.sslForced =
    ("https".toList.isPrefixOf o.host.toList || o.server.tlsConnectionPolicies.isSome)
  /-- The route with its place in the document, all keys sorted. -/
  rawJson : c.rawJson = Json.text (Json.object
    [("server", .string o.serverName), ("route", .ofNat o.index),
     ("data", Route.codec.encode o.route)]).normalize
  /-- One for each handler that changes requests or serves files. -/
  warnings : c.warnings = (Handler.flatten o.route.handle).filterMap fun h =>
    if h.kind? = some "rewrite" then some Occurrence.changeWarning
    else if h.kind? = some "file_server" then some Occurrence.fileServerWarning
    else none

/-- A result reports some places exactly: a candidate for each host, in the order in which hosts are
first named, a conflict for each late owner, and nothing else. -/
structure ImportResult.Reports (r : ImportResult) (os : List Occurrence) : Prop where
  hosts : List.Forall₂ (fun host c => ∃ o, speakerFor? os host = some o ∧ c.Describes o)
    (os.map (·.host)).eraseDups r.hosts
  conflicts : r.conflicts = (lateOwners os).map fun o => duplicateConflict o.host
  errors : r.errors = []

/-! ## Candidates -/

theorem rawJson_eq (o : Occurrence) :
    o.rawJson = Json.text (Json.object
      [("server", .string o.serverName), ("route", .ofNat o.index),
       ("data", Route.codec.encode o.route)]).normalize := by
  have hsorted : ∀ a b c : Json, (Dict.ofList [("server", a), ("route", b), ("data", c)]).entries =
      [("data", c), ("route", b), ("server", a)] := by
    intro a b c
    have hroute : insertEntry "route" b [("server", a)] = [("route", b), ("server", a)] :=
      if_pos (by decide)
    simp only [Dict.ofList, List.foldl_cons, List.foldl_nil, Dict.entries_insert,
      Dict.entries_empty]
    rw [insertEntry, hroute]
    exact if_pos (by decide)
  rw [Occurrence.rawJson, Json.normalize, Json.normalizeMembers_eq_map]
  exact congrArg (fun ms => Json.text (.object ms)) (hsorted _ _ _).symm

theorem warning?_eq (h : Handler) :
    Occurrence.warning? h =
      if h.kind? = some "rewrite" then some Occurrence.changeWarning
      else if h.kind? = some "file_server" then some Occurrence.fileServerWarning
      else none := by
  rw [Occurrence.warning?]
  split
  · rename_i heq
    rw [if_pos heq]
  · rename_i heq
    rw [heq]
    rfl
  · rename_i hchange hserve
    rw [if_neg hchange, if_neg hserve]

/-- What a proxy adds to a candidate without a target. -/
theorem withProxy_eq (p : ReverseProxy) {c : Candidate} (hhost : c.forwardHost = "")
    (hport : c.forwardPort = 0) :
    Occurrence.withProxy p c =
      { c with
        forwardHost := p.firstTarget.1
        forwardPort := p.firstTarget.2
        websocketSupport := p.passesUpgrade
        forwardScheme := if p.usesTls then "https" else c.forwardScheme } := by
  rw [Occurrence.withProxy, ReverseProxy.firstTarget]
  cases p.backends with
  | nil => simp [hhost, hport]
  | cons u rest =>
    simp only [List.head?_cons, Option.map_some]
    cases Address.split u.dial with
    | error e => simp [hhost, hport]
    | ok t => rfl

/-- **A candidate describes the place that it is made from.** -/
theorem describes_candidate (o : Occurrence) : o.candidate.Describes o := by
  have hwarnings := List.filterMap_congr fun h (_ : h ∈ Handler.flatten o.route.handle) =>
    warning?_eq h
  rw [Occurrence.candidate]
  cases hproxy : Occurrence.proxy? (Handler.flatten o.route.handle) with
  | none =>
    exact
      { domainNames := rfl
        target := by rw [hproxy]; exact ⟨rfl, rfl, rfl⟩
        sslForced := rfl
        rawJson := rawJson_eq o
        warnings := hwarnings }
  | some p =>
    simp only
    rw [withProxy_eq p rfl rfl]
    exact
      { domainNames := rfl
        target := by rw [hproxy]; exact ⟨rfl, rfl, rfl⟩
        sslForced := rfl
        rawJson := rawJson_eq o
        warnings := hwarnings }

/-! ## Speakers -/

theorem speakerFor?_eq (os : List Occurrence) (host : String) :
    speakerFor? os host = (slotFor? os host).map (·.place) := by
  rw [speakerFor?, slotFor?]
  cases os.find? fun o => o.host == host && o.pathless with
  | some o => rfl
  | none => simp [Function.comp_def]

/-- There is a slot for each host that is named. -/
theorem forall₂_slots {os : List Occurrence} {hosts : List String}
    (hmem : ∀ h ∈ hosts, h ∈ os.map (·.host)) :
    List.Forall₂ (fun host s => slotFor? os host = some s) hosts
      (hosts.filterMap (slotFor? os)) := by
  induction hosts with
  | nil => exact .nil
  | cons h rest ih =>
    obtain ⟨s, hs⟩ := Option.ne_none_iff_exists'.1
      (mt slotFor?_eq_none.1 (not_not_intro (hmem h List.mem_cons_self)))
    rw [List.filterMap_cons_some hs]
    exact .cons hs (ih fun x hx => hmem x (List.mem_cons_of_mem h hx))

/-! ## Late owners -/

section LateOwners

variable (os : List Occurrence) (o : Occurrence)

theorem mem_ownedHosts {host : String} :
    host ∈ ownedHosts os ↔ (os.any fun e => e.pathless && e.host == host) = true := by
  simp only [ownedHosts, List.mem_map, List.mem_filter, List.any_eq_true, Bool.and_eq_true,
    beq_iff_eq, and_assoc]

/-- One more place comes late if it owns a host that is owned already. -/
theorem lateOwners_concat :
    lateOwners (os ++ [o]) =
      lateOwners os ++ if o.pathless = true ∧ o.host ∈ ownedHosts os then [o] else [] := by
  have hbefore : ∀ p ∈ os.zipIdx, isLateOwner (os ++ [o]) p = isLateOwner os p := by
    intro p hp
    obtain ⟨-, hlt, -⟩ := List.mem_zipIdx hp
    rw [isLateOwner, isLateOwner, List.take_append_of_le_length (by omega)]
  have hlast : isLateOwner (os ++ [o]) (o, os.length) = true ↔
      o.pathless = true ∧ o.host ∈ ownedHosts os := by
    rw [isLateOwner, List.take_left, Bool.and_eq_true, mem_ownedHosts]
  rw [lateOwners, lateOwners, List.zipIdx_append, List.filter_append, List.map_append,
    List.filter_congr hbefore, Nat.zero_add, List.zipIdx_singleton]
  refine congrArg (_ ++ ·) ?_
  by_cases hlate : o.pathless = true ∧ o.host ∈ ownedHosts os
  · rw [if_pos hlate, List.filter_cons_of_pos (hlast.2 hlate)]
    rfl
  · rw [if_neg hlate, List.filter_cons_of_neg (mt hlast.1 hlate)]
    rfl

theorem map_host_lateOwners : (lateOwners os).map (·.host) = repeats [] (ownedHosts os) := by
  induction os using List.reverseRec with
  | nil => rfl
  | append_singleton os o ih =>
    have hduplicates := duplicates_concat os o
    rw [lateOwners_concat, List.map_append, ih]
    refine (congrArg (repeats [] (ownedHosts os) ++ ·) ?_).trans hduplicates.symm
    split <;> rfl

end LateOwners

/-! ## Documents -/

theorem reports_extractDocument (d : Document) : (extractDocument d).Reports d.occurrences := by
  rw [extractDocument, foldl_add]
  refine ⟨?_, ?_, rfl⟩
  · rw [List.forall₂_map_right_iff]
    refine (forall₂_slots fun h hh => List.mem_eraseDups.1 hh).imp fun host s hs => ?_
    exact ⟨s.place, by rw [speakerFor?_eq, hs]; rfl, describes_candidate s.place⟩
  · rw [findingsOf, ← map_host_lateOwners, List.map_map]
    rfl

/-- **Extraction reports every document exactly.** -/
theorem extract_reports {bs : Bytes} {d : Document} (h : Document.decode bs = .ok d) :
    ∃ r, extract bs = .ok r ∧ r.Reports d.occurrences :=
  ⟨extractDocument d, map_eq_ok.2 ⟨d, h, rfl⟩, reports_extractDocument d⟩

/-- A document in which a host is named by a path rule, owned by two servers, and passed to a proxy
in a nested route. -/
def disputedDocument : Json :=
  let proxy := fun dial : String => Json.object
    [("handler", .string "reverse_proxy"),
     ("upstreams", .array [.object [("dial", .string dial)]])]
  let nested := fun handlers : List Json => Json.object
    [("handler", .string "subroute"),
     ("routes", .array [.object [("handle", .array handlers)]])]
  let route := fun (matcher : List (String × Json)) (handler : Json) => Json.object
    [("match", .array [.object matcher]), ("handle", .array [handler])]
  let host := ("host", Json.array [.string "a.example"])
  .object [("apps", .object [("http", .object [("servers", .object
    [("edge", .object [("routes", .array
      [route [host, ("path", .array [.string "/api"])] (proxy "10.0.0.1:80"),
       route [host] (nested [.object [("handler", .string "rewrite")], proxy "10.0.0.2:80"])])]),
     ("spare", .object [("routes", .array [route [host] (proxy "10.0.0.3:80")])])])])])]

theorem extract_reports_disputed :
    ∃ d r, Document.decode disputedDocument.compact = .ok d ∧
      extract disputedDocument.compact = .ok r ∧ r.Reports d.occurrences ∧
      r.hosts.map (fun c => (c.domainNames, c.forwardHost, c.warnings)) =
        [("a.example", "10.0.0.2", [Occurrence.changeWarning])] ∧
      r.conflicts = [duplicateConflict "a.example"] := by
  have hcheck : (Document.decode disputedDocument.compact).map (fun d => decide
      ((extractDocument d).hosts.map (fun c => (c.domainNames, c.forwardHost, c.warnings)) =
          [("a.example", "10.0.0.2", [Occurrence.changeWarning])] ∧
        (extractDocument d).conflicts = [duplicateConflict "a.example"])) = .ok true := by
    decide +kernel
  obtain ⟨d, hd, hdecide⟩ := map_eq_ok.1 hcheck
  obtain ⟨r, hr, hreports⟩ := extract_reports hd
  obtain rfl : extractDocument d = r := by
    obtain ⟨d', hd', hsame⟩ := map_eq_ok.1 hr
    cases hd.symm.trans hd'
    exact hsame
  obtain ⟨hhosts, hconflicts⟩ := of_decide_eq_true hdecide
  exact ⟨d, _, hd, hr, hreports, hhosts, hconflicts⟩

end ProxyPlane
