import ProxyPlane.Proofs.Dict
import ProxyPlane.Proofs.Validation

/-!
# The first violation

The validator walks over the servers of a document and their routes, and stops at the first
violation.  What it has seen until then is what the error depends on.

## What is here

* `ValidationError.place?`, the server and the route that an error names, and `place?_of_route`: an
  error of a route names that route.
* `routes_eq_error_iff` and `servers_eq_error_iff`: a walk fails where one step fails behind others
  that succeed.
* `server_eq_error_iff`: which part of a server an error of one of its routes depends on.
* `validate_eq_error_iff`: a document has an error of a route where one of its servers has it,
  behind others that are accepted.
* `Document.withServers`, and `validate_first_violation`: without the route that an error names the
  document is accepted, and nothing behind that route matters.
-/

set_option autoImplicit false
namespace ProxyPlane

/-- The server and the route that an error names. -/
def ValidationError.place? : ValidationError → Option (String × Nat)
  | .noHandlers server route => some (server, route)
  | .duplicateHost server route _ => some (server, route)
  | .shadowedPath server route _ _ => some (server, route)
  | .invalidHandler server route _ _ => some (server, route)
  | _ => none

namespace Validation

variable {name : String} {index : Nat} {e : ValidationError}

/-! ## The place of an error -/

theorem place?_of_claim {x : HostClaim} {c : Claims} (h : claim name index x c = .error e) :
    e.place? = some (name, index) := by
  obtain ⟨host, path⟩ := x
  cases path with
  | none =>
    simp only [claim, claimHost, List.isEmpty_nil, if_true] at h
    split at h <;> cases h
    rfl
  | some p =>
    simp only [claim, claimPaths] at h
    split at h
    · cases h
      rfl
    · split at h <;> cases h
      rfl

theorem place?_of_claimAll {xs : List HostClaim} {c : Claims}
    (h : claimAll name index xs c = .error e) : e.place? = some (name, index) := by
  induction xs generalizing c with
  | nil => cases h
  | cons x rest ih =>
    rcases bind_eq_error.1 h with h | ⟨d, -, h⟩
    · exact place?_of_claim h
    · exact ih h

theorem place?_of_handlers {first : Nat} {hs : List Handler}
    (h : handlers name index first hs = .error e) : e.place? = some (name, index) := by
  induction hs generalizing first with
  | nil => cases h
  | cons x rest ih =>
    rw [handlers] at h
    split at h
    · cases h
      rfl
    · exact ih h

/-- **An error of a route names that route.** -/
theorem place?_of_route {r : Route} {c : Claims} (h : route name index r c = .error e) :
    e.place? = some (name, index) := by
  rw [route] at h
  split at h
  · cases h
    rfl
  · rw [claimRoute_eq] at h
    rcases bind_eq_error.1 h with h | ⟨d, -, h⟩
    · exact place?_of_claimAll h
    · exact place?_of_handlers (map_eq_error.1 h)

theorem place?_of_listenAddresses {addrs : List String}
    (h : listenAddresses name addrs = .error e) : e.place? = none := by
  induction addrs with
  | nil => cases h
  | cons a rest ih =>
    rw [listenAddresses] at h
    split at h
    · cases h
      rfl
    · exact ih h

/-! ## Where a walk fails -/

theorem routes_append (xs ys : List Route) (c : Claims) :
    routes name index (xs ++ ys) c =
      (routes name index xs c).bind (routes name (index + xs.length) ys) := by
  induction xs generalizing index c with
  | nil => rfl
  | cons x xs ih =>
    have hindex : index + (x :: xs).length = index + 1 + xs.length := by
      rw [List.length_cons]
      omega
    rw [List.cons_append, routes, routes, bind_assoc, hindex]
    exact congrArg _ (funext fun c => ih c)

/-- **The routes of a server fail at one of them**, behind others that are accepted. -/
theorem routes_eq_error_iff {rs : List Route} {c : Claims} :
    routes name index rs c = .error e ↔
      ∃ before r after c', rs = before ++ r :: after ∧ routes name index before c = .ok c' ∧
        route name (index + before.length) r c' = .error e := by
  constructor
  · intro h
    induction rs generalizing index c with
    | nil => cases h
    | cons r rest ih =>
      rcases bind_eq_error.1 h with h | ⟨d, hd, h⟩
      · exact ⟨[], r, rest, c, rfl, rfl, h⟩
      · obtain ⟨before, x, after, c', rfl, hbefore, hx⟩ := ih h
        refine ⟨r :: before, x, after, c', rfl, bind_eq_ok.2 ⟨d, hd, hbefore⟩, ?_⟩
        rwa [List.length_cons, Nat.add_comm before.length, ← Nat.add_assoc]
  · rintro ⟨before, r, after, c', rfl, hbefore, hr⟩
    rw [routes_append]
    exact bind_eq_error.2 (.inr ⟨c', hbefore, bind_eq_error.2 (.inl hr)⟩)

theorem servers_append (xs ys : List (String × Server)) :
    servers (xs ++ ys) = (servers xs).bind fun _ => servers ys := by
  induction xs with
  | nil => rfl
  | cons x xs ih => rw [List.cons_append, servers, servers, bind_assoc, ih]

/-- **The servers of a document fail at one of them**, behind others that are accepted. -/
theorem servers_eq_error_iff {entries : List (String × Server)} :
    servers entries = .error e ↔
      ∃ before name s after, entries = before ++ (name, s) :: after ∧ servers before = .ok () ∧
        server name s = .error e := by
  constructor
  · intro h
    induction entries with
    | nil => cases h
    | cons x rest ih =>
      rcases bind_eq_error.1 h with h | ⟨u, hu, h⟩
      · exact ⟨[], x.1, x.2, rest, rfl, rfl, h⟩
      · obtain ⟨before, name, s, after, rfl, hbefore, hs⟩ := ih h
        exact ⟨x :: before, name, s, after, rfl, bind_eq_ok.2 ⟨u, hu, hbefore⟩, hs⟩
  · rintro ⟨before, name, s, after, rfl, hbefore, hs⟩
    rw [servers_append]
    exact bind_eq_error.2 (.inr ⟨(), hbefore, bind_eq_error.2 (.inl hs)⟩)

/-- **An error of a route depends on the addresses of its server and on the routes up to it.** -/
theorem server_eq_error_iff {s : Server} {name' : String} {i : Nat}
    (hplace : e.place? = some (name', i)) :
    server name s = .error e ↔
      (s.listen ≠ [] ∧ listenAddresses name s.listen = .ok ()) ∧
        ∃ r c, s.routes[i]? = some r ∧ routes name 0 (s.routes.take i) Claims.none = .ok c ∧
          route name i r c = .error e := by
  rw [server]
  by_cases hempty : s.listen = []
  · refine iff_of_false (fun h => ?_) fun h => h.1.1 hempty
    rw [hempty, if_pos List.isEmpty_nil] at h
    cases h
    cases hplace
  rw [if_neg (by simpa using hempty), bind_eq_error]
  constructor
  · rintro (h | ⟨u, hu, h⟩)
    -- an error of an address names no route
    · rw [place?_of_listenAddresses h] at hplace
      cases hplace
    · obtain ⟨before, r, after, c, hroutes, hbefore, hr⟩ :=
        routes_eq_error_iff.1 (map_eq_error.1 h)
      rw [Nat.zero_add] at hr
      have hi : before.length = i := by
        simpa [place?_of_route hr] using congrArg (Option.map (·.2)) hplace
      subst hi
      exact ⟨⟨hempty, hu⟩, r, c, by simp [hroutes], by simpa [hroutes] using hbefore, hr⟩
  · rintro ⟨⟨-, hlisten⟩, r, c, hr, hbefore, herror⟩
    refine .inr ⟨(), hlisten, map_eq_error.2 (routes_eq_error_iff.2 ?_)⟩
    obtain ⟨hi, rfl⟩ := List.getElem?_eq_some_iff.1 hr
    refine ⟨s.routes.take i, s.routes[i], s.routes.drop (i + 1), c, ?_, hbefore, ?_⟩
    · rw [← List.drop_eq_getElem_cons hi, List.take_append_drop]
    · rwa [List.length_take_of_le (Nat.le_of_lt hi), Nat.zero_add]

/-- An error of a route is one of the server that it names. -/
theorem eq_of_server_eq_error {s : Server} {name' : String} {i : Nat}
    (hplace : e.place? = some (name', i)) (h : server name s = .error e) : name = name' := by
  obtain ⟨-, r, c, -, -, herror⟩ := (server_eq_error_iff hplace).1 h
  simpa [place?_of_route herror] using congrArg (Option.map (·.1)) hplace

theorem server_take_eq_ok {s : Server} {i : Nat} {c : Claims} (hne : s.listen ≠ [])
    (hlisten : listenAddresses name s.listen = .ok ())
    (hroutes : routes name 0 (s.routes.take i) Claims.none = .ok c) :
    server name { s with routes := s.routes.take i } = .ok () := by
  rw [server, if_neg (by simpa using hne)]
  exact bind_eq_ok.2 ⟨(), hlisten, map_eq_ok.2 ⟨c, hroutes, rfl⟩⟩

end Validation

/-! ## Documents -/

open Validation

/-- **A document has an error of a route where one of its servers has it**, behind others that are
accepted. -/
theorem validate_eq_error_iff {d : Document} {e : ValidationError} {name : String} {i : Nat}
    (hplace : e.place? = some (name, i)) :
    validate d = .error e ↔
      ∃ http s, d.apps.http = some http ∧ http.servers.get? name = some s ∧
        servers (http.servers.before name).entries = .ok () ∧ server name s = .error e := by
  rw [validate]
  cases d.apps.http with
  | none =>
    refine iff_of_false (fun h => ?_) ?_
    · dsimp only at h
      split at h <;> cases h
      cases hplace
    · rintro ⟨http, s, hhttp, -⟩
      cases hhttp
  | some http =>
    constructor
    · intro h
      obtain ⟨before, name', s, after, hentries, hbefore, hs⟩ := servers_eq_error_iff.1 h
      obtain rfl := eq_of_server_eq_error hplace hs
      obtain rfl := Dict.entries_before hentries
      exact ⟨http, s, rfl, Dict.get?_of_mem (e := (name', s)) (by simp [hentries]), hbefore, hs⟩
    · rintro ⟨http', s, hhttp, hget, hbefore, hs⟩
      obtain rfl := Option.some.inj hhttp
      obtain ⟨after, hentries⟩ := Dict.exists_entries_eq hget
      exact servers_eq_error_iff.2 ⟨_, name, s, after, hentries, hbefore, hs⟩

/-- The document with other servers in its HTTP application. -/
def Document.withServers (d : Document) (servers : Dict Server) : Document :=
  { d with apps :=
    { d.apps with http := d.apps.http.map fun http => { http with servers := servers } } }

/-- **An error of a route points at the first violation.**  The document up to that route is
accepted.  Every document with the same servers before the one of the route, and the same addresses
and routes of that one up to the route, has the same error. -/
theorem validate_first_violation {d : Document} {e : ValidationError} {name : String} {i : Nat}
    (h : validate d = .error e) (hplace : e.place? = some (name, i)) :
    ∃ http s, d.apps.http = some http ∧ http.servers.get? name = some s ∧ i < s.routes.length ∧
      validate (d.withServers
        ((http.servers.before name).insert name { s with routes := s.routes.take i })) = .ok () ∧
      ∀ d' http' s', d'.apps.http = some http' →
        http'.servers.before name = http.servers.before name →
        http'.servers.get? name = some s' → s'.listen = s.listen →
        s'.routes.take (i + 1) = s.routes.take (i + 1) → validate d' = .error e := by
  obtain ⟨http, s, hhttp, hget, hbefore, hs⟩ := (validate_eq_error_iff hplace).1 h
  obtain ⟨⟨hne, hlisten⟩, r, c, hr, hroutes, herror⟩ := (server_eq_error_iff hplace).1 hs
  refine ⟨http, s, hhttp, hget, (List.getElem?_eq_some_iff.1 hr).1, ?_, ?_⟩
  · rw [validate, Document.withServers, hhttp]
    show servers ((http.servers.before name).insert name _).entries = .ok ()
    rw [Dict.entries_insert_before, servers_append]
    have htake := server_take_eq_ok hne hlisten hroutes
    exact bind_eq_ok.2 ⟨(), hbefore, bind_eq_ok.2 ⟨(), htake, rfl⟩⟩
  · intro d' http' s' hhttp' hsame hget' hlisten' htake
    have hr' : s'.routes[i]? = some r := by
      rw [← hr, ← List.getElem?_take_of_lt (Nat.lt_succ_self i), htake,
        List.getElem?_take_of_lt (Nat.lt_succ_self i)]
    have htake' : s'.routes.take i = s.routes.take i := by
      simpa [List.take_take] using congrArg (List.take i) htake
    refine (validate_eq_error_iff hplace).2 ⟨http', s', hhttp', hget', by rw [hsame, hbefore], ?_⟩
    refine (server_eq_error_iff hplace).2 ⟨?_, r, c, hr', by rw [htake', hroutes], herror⟩
    rw [hlisten']
    exact ⟨hne, hlisten⟩

/-- A route that proxies a host. -/
def proxiedRoute (host : String) : Route :=
  { Route.empty with
    matchers := [{ MatcherSet.empty with host := [host] }]
    handle := [Handler.proxyTo "10.0.0.1:80" false false] }

/-- A server that is accepted, and behind it one the second route of which has no handlers, in front
of any others. -/
def unhandledDocument (behind : List Route) : Document :=
  let server := fun (listen : String) (routes : List Route) =>
    { Server.empty with listen := [listen], routes := proxiedRoute "a.example" :: routes }
  { Document.empty with apps := { Apps.empty with http := some { HttpApp.empty with
    servers := (Dict.empty.insert "edge" (server ":443" [])).insert "spare"
      (server ":8443" (Route.empty :: behind)) } } }

theorem validate_first_violation_unhandled :
    validate (unhandledDocument []) = .error (.noHandlers "spare" 1) ∧
      (∃ servers : Dict Server, servers.keys = ["edge", "spare"] ∧
        validate ((unhandledDocument []).withServers servers) = .ok ()) ∧
      validate (unhandledDocument [proxiedRoute "b.example"]) =
        .error (.noHandlers "spare" 1) := by
  have herror : validate (unhandledDocument []) = .error (.noHandlers "spare" 1) := rfl
  obtain ⟨http, s, hhttp, hs, -, hbefore, hsame⟩ := validate_first_violation herror rfl
  cases hhttp
  cases hs
  exact ⟨herror, ⟨_, rfl, hbefore⟩, hsame _ _ _ rfl rfl rfl rfl rfl⟩

end ProxyPlane
