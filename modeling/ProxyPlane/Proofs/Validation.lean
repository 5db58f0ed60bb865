import ProxyPlane.Proofs.Outcome
import ProxyPlane.Validation

/-!
# What the validator accepts

The validator walks over the routes of a server and remembers which hosts are claimed.  A server is
accepted just if no two of the claims of its routes, taken in their order, conflict.

## What is here

* `HostClaim` and `Route.hostClaims`, the claims of a route in the order in which they are made;
  `Conflicts`, when an earlier claim rules out a later one.
* `Claims.Hold`, which claims the tables of the validator stand for.
* `claimRoute_eq`: the nested walk over sets, hosts and paths is one walk over the claims.
* `claimAll_eq_ok`, `routes_eq_ok` and `server_eq_ok`: what is accepted, without the tables.
-/

set_option autoImplicit false
namespace ProxyPlane

namespace Validation

/-! ## Claims of routes -/

/-- A host that is claimed outright, or for one path. -/
abbrev HostClaim := String × Option String

/-- The claims of a host with the paths of its matcher set. -/
def claimsOfHost (paths : List String) (host : String) : List HostClaim :=
  if paths.isEmpty then [(host, none)] else paths.map fun p => (host, some p)

/-- The claims of a route, in the order in which they are made. -/
def hostClaims (r : Route) : List HostClaim :=
  r.matchers.flatMap fun m => m.host.flatMap (claimsOfHost m.path)

/-- An earlier claim rules out a later one of the same host: if it is outright, or of the same path.
A claim of a path leaves room for an outright one behind it. -/
def Conflicts (earlier later : HostClaim) : Prop :=
  earlier.1 = later.1 ∧ (earlier.2 = none ∨ earlier.2 = later.2)

/-- The tables stand for the claims made so far. -/
def Claims.Hold (c : Claims) (made : List HostClaim) : Prop :=
  (∀ h, h ∈ c.catchAll ↔ (h, .none) ∈ made) ∧ ∀ h p, (h, p) ∈ c.byPath ↔ (h, some p) ∈ made

theorem Claims.hold_none : Claims.none.Hold [] := by
  constructor
  · intro h
    simp [Claims.none]
  · intro h p
    simp [Claims.none]

/-! ## One claim after the other -/

/-- Make one claim. -/
def claim (server : String) (route : Nat) (x : HostClaim) (c : Claims) :
    Except ValidationError Claims :=
  match x with
  | (host, none) => claimHost server route [] host c
  | (host, some p) => claimPaths server route host [p] c

/-- Make some claims. -/
def claimAll (server : String) (route : Nat) :
    List HostClaim → Claims → Except ValidationError Claims
  | [], c => .ok c
  | x :: rest, c => (claim server route x c).bind (claimAll server route rest)

section Claiming

variable {server : String} {route : Nat}

theorem bind_assoc {ε α β γ : Type} (x : Except ε α) (f : α → Except ε β) (g : β → Except ε γ) :
    (x.bind f).bind g = x.bind fun a => (f a).bind g := by
  cases x with
  | error e => rfl
  | ok a => rfl

theorem claimAll_append (xs ys : List HostClaim) (c : Claims) :
    claimAll server route (xs ++ ys) c =
      (claimAll server route xs c).bind (claimAll server route ys) := by
  induction xs generalizing c with
  | nil => rfl
  | cons x xs ih =>
    rw [List.cons_append, claimAll, claimAll, bind_assoc]
    exact congrArg _ (funext fun c => ih c)

theorem claimPaths_eq (host : String) (paths : List String) (c : Claims) :
    claimPaths server route host paths c =
      claimAll server route (paths.map fun p => (host, some p)) c := by
  induction paths generalizing c with
  | nil => rfl
  | cons p rest ih =>
    rw [List.map_cons, claimAll, claimPaths]
    simp only [claim, claimPaths]
    split
    · rfl
    · split
      · rfl
      · exact ih _

theorem claimHost_eq (paths : List String) (host : String) (c : Claims) :
    claimHost server route paths host c = claimAll server route (claimsOfHost paths host) c := by
  cases paths with
  | nil =>
    show claimHost server route [] host c = (claimHost server route [] host c).bind .ok
    cases claimHost server route [] host c with
    | error e => rfl
    | ok c => rfl
  | cons p rest => exact claimPaths_eq host (p :: rest) c

theorem claimHosts_eq (paths hosts : List String) (c : Claims) :
    claimHosts server route paths hosts c =
      claimAll server route (hosts.flatMap (claimsOfHost paths)) c := by
  induction hosts generalizing c with
  | nil => rfl
  | cons h rest ih =>
    rw [claimHosts, List.flatMap_cons, claimAll_append, claimHost_eq]
    exact congrArg _ (funext fun c => ih c)

/-- **The walk over sets, hosts and paths is one walk over the claims of the route.** -/
theorem claimRoute_eq (r : Route) (c : Claims) :
    claimRoute server route r c = claimAll server route (hostClaims r) c := by
  have hsets : ∀ (ms : List MatcherSet) (c : Claims), claimSets server route ms c =
      claimAll server route (ms.flatMap fun m => m.host.flatMap (claimsOfHost m.path)) c := by
    intro ms
    induction ms with
    | nil => exact fun _ => rfl
    | cons m rest ih =>
      intro c
      rw [claimSets, List.flatMap_cons, claimAll_append, claimHosts_eq]
      exact congrArg _ (funext fun c => ih c)
  exact hsets r.matchers c

/-! ## What is accepted -/

/-- A claim is accepted just if no earlier one rules it out. -/
theorem claim_eq_ok (server : String) (route : Nat) {c : Claims} {made : List HostClaim}
    (h : c.Hold made) (x : HostClaim) :
    (∃ c', claim server route x c = .ok c') ↔ ∀ a ∈ made, ¬Conflicts a x := by
  obtain ⟨hall, hpath⟩ := h
  obtain ⟨host, path⟩ := x
  -- an outright claim conflicts with outright ones alone, a claim of a path also with itself
  cases path with
  | none =>
    have hconflict : (∀ a ∈ made, ¬Conflicts a (host, none)) ↔ host ∉ c.catchAll := by
      rw [hall]
      constructor
      · intro h hmem
        exact h _ hmem ⟨rfl, .inl rfl⟩
      · rintro h ⟨host', path'⟩ hmem ⟨hhost, hpath'⟩
        simp only [or_self] at hhost hpath'
        subst hhost hpath'
        exact h hmem
    rw [hconflict, claim, claimHost]
    by_cases hmem : host ∈ c.catchAll <;> simp [hmem]
  | some p =>
    have hconflict : (∀ a ∈ made, ¬Conflicts a (host, some p)) ↔
        host ∉ c.catchAll ∧ (host, p) ∉ c.byPath := by
      rw [hall, hpath]
      constructor
      · intro h
        exact ⟨fun hmem => h _ hmem ⟨rfl, .inl rfl⟩, fun hmem => h _ hmem ⟨rfl, .inr rfl⟩⟩
      · rintro ⟨h, h'⟩ ⟨host', path'⟩ hmem ⟨hhost, hpath'⟩
        simp only at hhost hpath'
        subst hhost
        rcases hpath' with rfl | rfl
        · exact h hmem
        · exact h' hmem
    rw [hconflict, claim, claimPaths]
    by_cases hmem : host ∈ c.catchAll
    · simp [hmem]
    · by_cases hmem' : (host, p) ∈ c.byPath <;> simp [hmem, hmem', claimPaths]

theorem hold_of_claim {c c' : Claims} {made : List HostClaim} (h : c.Hold made) {x : HostClaim}
    (hx : claim server route x c = .ok c') : c'.Hold (made ++ [x]) := by
  obtain ⟨hall, hpath⟩ := h
  obtain ⟨host, path⟩ := x
  cases path with
  | none =>
    rw [claim, claimHost, if_pos List.isEmpty_nil] at hx
    split at hx
    · exact absurd hx nofun
    · cases hx
      constructor
      · intro h
        simp [hall, or_comm]
      · intro h p
        simp [hpath]
  | some p =>
    rw [claim, claimPaths] at hx
    split at hx
    · exact absurd hx nofun
    · split at hx
      · exact absurd hx nofun
      · cases hx
        constructor
        · intro h
          simp [hall]
        · intro h q
          simp [hpath, or_comm]

/-- **Claims are accepted just if none is ruled out by an earlier one.** -/
theorem claimAll_eq_ok (server : String) (route : Nat) {c : Claims} {made : List HostClaim}
    (h : c.Hold made) (xs : List HostClaim) :
    (∃ c', claimAll server route xs c = .ok c') ↔
      (∀ a ∈ made, ∀ x ∈ xs, ¬Conflicts a x) ∧ xs.Pairwise fun a b => ¬Conflicts a b := by
  induction xs generalizing c made with
  | nil => simp [claimAll]
  | cons x rest ih =>
    rw [List.pairwise_cons]
    constructor
    · rintro ⟨c', hc'⟩
      obtain ⟨d, hx, hrest⟩ := bind_eq_ok.1 hc'
      obtain ⟨hmade, hpairs⟩ := (ih (hold_of_claim h hx)).1 ⟨c', hrest⟩
      refine ⟨fun a ha y hy => ?_, fun y hy => hmade x (by simp) y hy, hpairs⟩
      rcases List.mem_cons.1 hy with rfl | hy
      · exact (claim_eq_ok server route h y).1 ⟨d, hx⟩ a ha
      · exact hmade a (by simp [ha]) y hy
    · rintro ⟨hmade, hx, hpairs⟩
      obtain ⟨d, hd⟩ := (claim_eq_ok server route h x).2
        fun a ha => hmade a ha x List.mem_cons_self
      have hnext : ∀ a ∈ made ++ [x], ∀ y ∈ rest, ¬Conflicts a y := by
        intro a ha y hy
        rcases List.mem_append.1 ha with ha | ha
        · exact hmade a ha y (List.mem_cons_of_mem _ hy)
        · rw [List.mem_singleton.1 ha]
          exact hx y hy
      obtain ⟨c', hc'⟩ := (ih (hold_of_claim h hd)).2 ⟨hnext, hpairs⟩
      exact ⟨c', bind_eq_ok.2 ⟨d, hd, hc'⟩⟩

theorem hold_of_claimAll {c c' : Claims} {made : List HostClaim} (h : c.Hold made)
    {xs : List HostClaim} (hxs : claimAll server route xs c = .ok c') : c'.Hold (made ++ xs) := by
  induction xs generalizing c made with
  | nil =>
    cases hxs
    rwa [List.append_nil]
  | cons x rest ih =>
    obtain ⟨d, hx, hrest⟩ := bind_eq_ok.1 hxs
    have hd := ih (hold_of_claim h hx) hrest
    rwa [List.append_assoc] at hd

theorem handlers_eq_ok (index : Nat) (hs : List Handler) :
    handlers server route index hs = .ok () ↔ ∀ h ∈ hs, handler h = .ok () := by
  induction hs generalizing index with
  | nil => simp [handlers]
  | cons h rest ih =>
    rw [handlers, List.forall_mem_cons]
    cases handler h with
    | error e => simp
    | ok u => simpa using ih (index + 1)

end Claiming

/-- What is asked of the handlers of a route. -/
def HasGoodHandlers (r : Route) : Prop := r.handle ≠ [] ∧ ∀ h ∈ r.handle, handler h = .ok ()

theorem route_eq_ok {server : String} {index : Nat} {r : Route} {c c' : Claims} :
    route server index r c = .ok c' ↔
      HasGoodHandlers r ∧ claimAll server index (hostClaims r) c = .ok c' := by
  rw [route, HasGoodHandlers]
  by_cases hempty : r.handle = []
  · simp [hempty]
  · rw [if_neg (by simpa using hempty), claimRoute_eq, bind_eq_ok]
    constructor
    · rintro ⟨d, hd, hmap⟩
      obtain ⟨u, hu, rfl⟩ := map_eq_ok.1 hmap
      exact ⟨⟨hempty, (handlers_eq_ok 0 r.handle).1 hu⟩, hd⟩
    · rintro ⟨⟨_, hhandlers⟩, hd⟩
      exact ⟨c', hd, map_eq_ok.2 ⟨(), (handlers_eq_ok 0 r.handle).2 hhandlers, rfl⟩⟩

/-- **Routes are accepted just if their handlers are good and none of their claims is ruled out by
an earlier one.** -/
theorem routes_eq_ok (server : String) (index : Nat) (rs : List Route) {c : Claims}
    {made : List HostClaim} (h : c.Hold made) :
    (∃ c', routes server index rs c = .ok c') ↔
      (∀ r ∈ rs, HasGoodHandlers r) ∧
        (∀ a ∈ made, ∀ x ∈ rs.flatMap hostClaims, ¬Conflicts a x) ∧
        (rs.flatMap hostClaims).Pairwise fun a b => ¬Conflicts a b := by
  induction rs generalizing index c made with
  | nil => simp [routes]
  | cons r rest ih =>
    rw [List.forall_mem_cons, List.flatMap_cons, List.pairwise_append]
    constructor
    · rintro ⟨c', hc'⟩
      obtain ⟨d, hr, hrest⟩ := bind_eq_ok.1 hc'
      obtain ⟨hgood, hd⟩ := route_eq_ok.1 hr
      obtain ⟨hmade, hpairs⟩ := (claimAll_eq_ok server index h _).1 ⟨d, hd⟩
      obtain ⟨hgoods, hmades, hrests⟩ := (ih _ (hold_of_claimAll h hd)).1 ⟨c', hrest⟩
      refine ⟨⟨hgood, hgoods⟩, fun a ha x hx => ?_, hpairs, hrests, fun a ha x hx => ?_⟩
      · rcases List.mem_append.1 hx with hx | hx
        · exact hmade a ha x hx
        · exact hmades a (by simp [ha]) x hx
      · exact hmades a (by simp [ha]) x hx
    · rintro ⟨⟨hgood, hgoods⟩, hmade, hpairs, hrests, hcross⟩
      obtain ⟨d, hd⟩ := (claimAll_eq_ok server index h (hostClaims r)).2
        ⟨fun a ha x hx => hmade a ha x (List.mem_append_left _ hx), hpairs⟩
      have hnext : ∀ a ∈ made ++ hostClaims r, ∀ x ∈ rest.flatMap hostClaims, ¬Conflicts a x := by
        intro a ha x hx
        rcases List.mem_append.1 ha with ha | ha
        · exact hmade a ha x (List.mem_append_right _ hx)
        · exact hcross a ha x hx
      obtain ⟨c', hc'⟩ := (ih _ (hold_of_claimAll h hd)).2 ⟨hgoods, hnext, hrests⟩
      exact ⟨c', bind_eq_ok.2 ⟨d, route_eq_ok.2 ⟨hgood, hd⟩, hc'⟩⟩

theorem listenAddresses_eq_ok (name : String) (addrs : List String) :
    listenAddresses name addrs = .ok () ↔ ∀ a ∈ addrs, listenAddress a = .ok () := by
  induction addrs with
  | nil => simp [listenAddresses]
  | cons a rest ih =>
    rw [listenAddresses, List.forall_mem_cons]
    cases listenAddress a with
    | error e => simp
    | ok u => simpa using ih

/-- **What the validator asks of a server.** -/
theorem server_eq_ok {name : String} {s : Server} :
    server name s = .ok () ↔
      (s.listen ≠ [] ∧ ∀ a ∈ s.listen, listenAddress a = .ok ()) ∧
        (∀ r ∈ s.routes, HasGoodHandlers r) ∧
        (s.routes.flatMap hostClaims).Pairwise fun a b => ¬Conflicts a b := by
  have hroutes := routes_eq_ok name 0 s.routes Claims.hold_none
  rw [server]
  by_cases hempty : s.listen = []
  · simp [hempty]
  · rw [if_neg (by simpa using hempty), bind_eq_ok]
    constructor
    · rintro ⟨u, hu, hmap⟩
      obtain ⟨c, hc, -⟩ := map_eq_ok.1 hmap
      obtain ⟨hgood, -, hpairs⟩ := hroutes.1 ⟨c, hc⟩
      exact ⟨⟨hempty, (listenAddresses_eq_ok name _).1 hu⟩, hgood, hpairs⟩
    · rintro ⟨⟨_, hlisten⟩, hgood, hpairs⟩
      obtain ⟨c, hc⟩ := hroutes.2 ⟨hgood, fun a ha => absurd ha List.not_mem_nil, hpairs⟩
      exact ⟨(), (listenAddresses_eq_ok name _).2 hlisten, map_eq_ok.2 ⟨c, hc, rfl⟩⟩

end Validation
end ProxyPlane
