import ProxyPlane.Proofs.Compile

/-!
# Where compiled documents send requests

Records say which host and path is sent where; a document says the same with a list of routes, of
which the first that accepts a request serves it.  Both are read here for any meaning of host
strings and of path patterns, so that nothing depends on how the proxy matches them.

## What is here

* `Matching`, a meaning of host strings and patterns, and `Matching.serve`, the route of a list that
  serves a request.
* `ForwardsTo` and `IsOwnChain`, what the handlers of a route do for a target and for a record.
* `Answers`, what records ask for.
* `serve_flatMap_recordRoutes`: the routes of records serve a request as its first record does.
* `serve_compile`: a compiled document answers every request as its records ask.
-/

set_option autoImplicit false
namespace ProxyPlane

open Compile

/-! ## Meanings of hosts and patterns -/

/-- What the host strings and the path patterns of a document match.  Nothing is asked of it. -/
structure Matching (η π : Type) where
  host : String → η → Bool
  path : String → π → Bool

namespace Matching

variable {η π : Type} (M : Matching η π) (host : η) (path : π)

/-- Whether one of some host strings matches. -/
def anyHost (hosts : List String) : Bool := hosts.any fun h => M.host h host

/-- Whether a matcher set accepts a request: one of its host strings matches, and one of its
patterns if it has any. -/
def acceptsSet (m : MatcherSet) : Bool :=
  M.anyHost host m.host && (m.path.isEmpty || m.path.any fun p => M.path p path)

/-- Whether one of the matcher sets of a route accepts a request. -/
def accepts (x : Route) : Bool := x.matchers.any (M.acceptsSet host path)

/-- The route that serves a request: the first that accepts it. -/
def serve (routes : List Route) : Option Route := routes.find? (M.accepts host path)

/-- Whether a path rule is meant for a request: it names the path, or something above it. -/
def takes (l : PathRule) : Bool :=
  M.path l.path path || M.path (trimEndChar '/' l.path ++ "/*") path

/-- Whether a record is meant for a request. -/
def names (r : RoutingRecord) : Bool := r.enabled && M.anyHost host r.domains

end Matching

/-! ## What is done with a request -/

/-- The handler sends requests to one server, which is dialled over TLS just if the scheme is that
of HTTPS, in any case of its letters, and lets clients upgrade their connection or not. -/
def ForwardsTo (scheme host : String) (port : Nat) (upgrade : Bool) (h : Handler) : Prop :=
  ∃ p : ReverseProxy, h = .reverseProxy p ∧
    p.backends = [{ Backend.empty with dial := Address.join host port }] ∧
    (p.usesTls = true ↔ scheme.toLower = "https") ∧ p.passesUpgrade = upgrade

/-- The handlers are those that a record asks for apart from its path rules: they tell clients to
use HTTPS, block common exploits, and send what is left to the target of the record. -/
def IsOwnChain (r : RoutingRecord) (hs : List Handler) : Prop :=
  ∃ h, ForwardsTo r.forwardScheme r.forwardHost r.forwardPort r.websocketSupport h ∧
    hs = (if r.hstsEnabled then
        [.responseHeader "Strict-Transport-Security"
          (if r.hstsSubdomains then "max-age=31536000; includeSubDomains"
            else "max-age=31536000")] else []) ++
      (if r.blockExploits then [.blockExploits] else []) ++ [h]

section Answers

variable {η π : Type} (M : Matching η π) (host : η) (path : π)

/-- What records ask to be done with a request, where `none` means that no route serves it.  The
first record for the host decides: the first of its path rules for the path takes the request, and
the record itself takes it if there is none. -/
def Answers (records : List RoutingRecord) : Option (List Handler) → Prop
  | none => records.find? (M.names host) = none
  | some hs =>
    ∃ r, records.find? (M.names host) = some r ∧
      match r.locations.find? (M.takes path) with
      | some l =>
        ∃ h, hs = [h] ∧
          ForwardsTo l.forwardScheme l.forwardHost l.forwardPort r.websocketSupport h
      | none => IsOwnChain r hs

end Answers

/-! ## Handlers that the compiler writes -/

/-- The test for HTTPS, as an equation of texts. -/
theorem isHttps_iff (scheme : String) : isHttps scheme = true ↔ scheme.toLower = "https" := by
  show _ ↔ scheme.map Char.toLower = "https"
  rw [isHttps, beq_iff_eq, ← String.toList_inj, String.toList_map]
  rfl

theorem exists_proxyTo (dial : String) (upgrade tls : Bool) :
    ∃ p, Handler.proxyTo dial upgrade tls = .reverseProxy p ∧
      p.backends = [{ Backend.empty with dial }] ∧ p.usesTls = tls ∧ p.passesUpgrade = upgrade := by
  refine ⟨_, rfl, rfl, ?_, ?_⟩
  · cases tls <;> rfl
  · cases upgrade <;> rfl

theorem forwardsTo_target (scheme host : String) (port : Nat) (upgrade : Bool) :
    ForwardsTo scheme host port upgrade (target scheme host port upgrade) := by
  obtain ⟨p, hp, hbackends, htls, hupgrade⟩ :=
    exists_proxyTo (Address.join host port) upgrade (isHttps scheme)
  exact ⟨p, hp, hbackends, htls ▸ isHttps_iff scheme, hupgrade⟩

theorem isOwnChain_recordHandlers (r : RoutingRecord) : IsOwnChain r (recordHandlers r) :=
  ⟨_, forwardsTo_target _ _ _ _, rfl⟩

/-! ## Routes that the compiler writes -/

section Routes

variable {η π : Type} (M : Matching η π) (host : η) (path : π)

theorem accepts_pathRoute (domains : List String) (upgrade : Bool) (l : PathRule) :
    M.accepts host path (pathRoute domains upgrade l) =
      (M.anyHost host domains && M.takes path l) := by
  simp [Matching.accepts, Matching.acceptsSet, Matching.takes, pathRoute, pathPatterns]

theorem accepts_catchAllRoute (domains : List String) (r : RoutingRecord) :
    M.accepts host path (catchAllRoute domains r) = M.anyHost host domains := by
  simp [Matching.accepts, Matching.acceptsSet, catchAllRoute, MatcherSet.empty]

/-- The routes of a record for another host accept nothing. -/
theorem serve_recordRoutes_of_not {r : RoutingRecord} (h : M.anyHost host r.domains = false) :
    M.serve host path (recordRoutes r) = none := by
  rw [Matching.serve, List.find?_eq_none]
  intro x hx
  rcases List.mem_append.1 hx with hx | hx
  · obtain ⟨l, -, rfl⟩ := List.mem_map.1 hx
    simp [accepts_pathRoute, h]
  · obtain rfl := List.mem_singleton.1 hx
    simp [accepts_catchAllRoute, h]

/-- The routes of a record for its hosts: the first path rule that takes the path, or else the
record itself. -/
theorem serve_recordRoutes {r : RoutingRecord} (h : M.anyHost host r.domains = true) :
    M.serve host path (recordRoutes r) =
      match r.locations.find? (M.takes path) with
      | some l => some (pathRoute r.domains r.websocketSupport l)
      | none => some (catchAllRoute r.domains r) := by
  have hrules : (M.accepts host path ∘ pathRoute r.domains r.websocketSupport) = M.takes path := by
    funext l
    rw [Function.comp, accepts_pathRoute, h, Bool.true_and]
  rw [Matching.serve, recordRoutes, List.find?_append, List.find?_map, hrules,
    List.find?_singleton, accepts_catchAllRoute, h]
  cases r.locations.find? (M.takes path) with
  | some l => rfl
  | none => rfl

/-- **The routes of records serve a request as the routes of its first record do.** -/
theorem serve_flatMap_recordRoutes (records : List RoutingRecord) :
    M.serve host path (records.flatMap recordRoutes) =
      (records.find? fun r => M.anyHost host r.domains).bind fun r =>
        M.serve host path (recordRoutes r) := by
  induction records with
  | nil => rfl
  | cons r rest ih =>
    rw [List.flatMap_cons, Matching.serve, List.find?_append, List.find?_cons]
    cases h : M.anyHost host r.domains with
    | false =>
      rw [← Matching.serve, serve_recordRoutes_of_not M host path h, Option.none_or]
      exact ih
    | true =>
      -- a route of this record serves the request, so that no later one is asked
      rw [← Matching.serve, serve_recordRoutes M host path h, Option.bind_some,
        serve_recordRoutes M host path h]
      cases r.locations.find? (M.takes path) with
      | some l => rfl
      | none => rfl

theorem find?_enabledRecords (records : List RoutingRecord) :
    (enabledRecords records).find? (fun r => M.anyHost host r.domains) =
      records.find? (M.names host) := by
  rw [enabledRecords, List.find?_filter]
  refine congrArg (List.find? · records) (funext fun r => ?_)
  simp [Matching.names]

/-- **Compiled routes answer every request as their records ask.** -/
theorem answers_serve (records : List RoutingRecord) :
    Answers M host path records
      ((M.serve host path ((enabledRecords records).flatMap recordRoutes)).map (·.handle)) := by
  rw [serve_flatMap_recordRoutes, find?_enabledRecords]
  cases hr : records.find? (M.names host) with
  | none => exact hr
  | some r =>
    have hnames : M.names host r = true := List.find?_some hr
    have hhost : M.anyHost host r.domains = true := (Bool.and_eq_true_iff.1 hnames).2
    rw [Option.bind_some, serve_recordRoutes M host path hhost]
    cases hl : r.locations.find? (M.takes path) with
    | some l =>
      refine ⟨r, hr, ?_⟩
      rw [hl]
      exact ⟨_, rfl, forwardsTo_target _ _ _ _⟩
    | none =>
      refine ⟨r, hr, ?_⟩
      rw [hl]
      exact isOwnChain_recordHandlers r

end Routes

/-- **Compilation preserves routing.**  A compiled document has one server.  Whatever its host
strings and patterns match, the first route that accepts a request does what the first enabled
record for the host asks for, and there is no such route just if there is no such record. -/
theorem serve_compile {records : List RoutingRecord} {root email : String} {d : Document}
    (h : compile records root email = .ok d) {η π : Type} (M : Matching η π) (host : η)
    (path : π) :
    ∃ s, d.servers = [("srv0", s)] ∧
      Answers M host path records ((M.serve host path s.routes).map (·.handle)) := by
  obtain ⟨-, rfl⟩ := compile_eq_ok.1 h
  exact ⟨_, rfl, answers_serve M host path records⟩

/-- Records that share a host, the first of them disabled. -/
def sharedHostRecords : List RoutingRecord :=
  [{ RoutingRecord.create "r1" "a.example" "10.0.0.1" 80 with enabled := false },
   { RoutingRecord.create "r2" "b.example, a.example" "10.0.0.2" 8080 with
     hstsEnabled := true
     locations := [⟨"/api/", "HTTPS", "::1", 8443⟩] },
   RoutingRecord.create "r3" "a.example" "10.0.0.3" 80]

/-- Hosts match themselves, and patterns their own path or what stands before a star. -/
def literalMatching : Matching String String where
  host h host := h == host
  path p path :=
    p == path || (p.toList.getLast? == some '*' && p.toList.dropLast.isPrefixOf path.toList)

theorem serve_compile_sharedHost :
    ∃ d s, compile sharedHostRecords "/data" "" = .ok d ∧ d.servers = [("srv0", s)] ∧
      Answers literalMatching "a.example" "/api/users" sharedHostRecords
        ((literalMatching.serve "a.example" "/api/users" s.routes).map (·.handle)) := by
  obtain ⟨s, hs, hanswers⟩ :=
    serve_compile (show compile sharedHostRecords "/data" "" = .ok _ from rfl)
      literalMatching "a.example" "/api/users"
  exact ⟨_, s, rfl, hs, hanswers⟩

end ProxyPlane
