import ProxyPlane.Proofs.Document.Sections
import ProxyPlane.Proofs.Validation

/-!
# What a document must fulfil to be sent

The rules for documents, part by part, without the walk that checks them: nothing in them depends on
the order in which the parts are looked at, except that of the hosts of a server.

## What is here

* `Handler.IsSound`, `AreOrderly` and `Server.IsSound`, the rules.
* `handler_eq_ok`, `pairwise_not_conflicts` and `servers_eq_ok`: each check asks for its rule.
* `isSound_of_validate`: the servers of a document that is accepted.
* `validate_eq_ok`: which documents the validator accepts.
-/

set_option autoImplicit false
namespace ProxyPlane

open Validation

/-! ## The rules -/

/-- An address to dial: it can be split, and its port is not empty. -/
def Backend.NamesPort (b : Backend) : Prop :=
  b.dial ≠ "" ∧ ∃ host port, Address.split b.dial = .ok (host, port) ∧ port ≠ ""

/-- A reverse proxy has servers to dial, and an object of another kind names that kind. -/
def Handler.IsSound : Handler → Prop
  | .reverseProxy proxy => proxy.backends ≠ [] ∧ ∀ b ∈ proxy.backends, b.NamesPort
  | .passthrough fields =>
    ∃ kind, fields.get? Handler.kindKey = some (.string kind) ∧ kind ≠ "reverse_proxy"
  | .headers _ | .blockExploits => True

/-- Claims of hosts in an order that serves all of them. -/
structure AreOrderly (claims : List HostClaim) : Prop where
  /-- Once a host is claimed outright, no claim of it follows. -/
  outright : claims.Pairwise fun a b => a.2 = none → a.1 ≠ b.1
  /-- No path of a host is claimed twice. -/
  paths : (claims.filter fun a => a.2.isSome).Nodup

/-- A server that listens somewhere, and all of whose routes can be reached and served. -/
structure Server.IsSound (s : Server) : Prop where
  listens : s.listen ≠ []
  addresses : ∀ a ∈ s.listen, listenAddress a = .ok ()
  handled : ∀ r ∈ s.routes, r.handle ≠ []
  handlers : ∀ r ∈ s.routes, ∀ h ∈ r.handle, h.IsSound
  claims : AreOrderly (s.routes.flatMap hostClaims)

/-! ## Handlers -/

theorem backends_eq_ok (index : Nat) (bs : List Backend) :
    backends index bs = .ok () ↔ ∀ b ∈ bs, b.NamesPort := by
  induction bs generalizing index with
  | nil => simp [backends]
  | cons b rest ih =>
    rw [backends, List.forall_mem_cons, Backend.NamesPort]
    by_cases hdial : b.dial = ""
    · simp [hdial]
    rw [if_neg (by simpa using hdial), ← ih (index + 1)]
    cases hsplit : Address.split b.dial with
    | error e => simp
    | ok p =>
      obtain ⟨host, port⟩ := p
      by_cases hport : port = ""
      · simp [hport]
      · simp [hdial, hport, and_assoc]

theorem kindOf_eq_some {fields : Dict Json} {kind : String} :
    Handler.kindOf fields = some kind ↔ fields.get? Handler.kindKey = some (.string kind) := by
  rw [Handler.kindOf, Option.bind_eq_some_iff]
  constructor
  · rintro ⟨v, hv, hkind⟩
    cases v <;> cases hkind
    exact hv
  · intro h
    exact ⟨_, h, rfl⟩

theorem handler_eq_ok (h : Handler) : handler h = .ok () ↔ h.IsSound := by
  cases h with
  | headers rules => exact iff_of_true rfl trivial
  | blockExploits => exact iff_of_true rfl trivial
  | reverseProxy proxy =>
    rw [handler, Handler.IsSound, ← backends_eq_ok 0]
    by_cases hempty : proxy.backends = [] <;> simp [hempty]
  | passthrough fields =>
    simp only [handler, Handler.IsSound, ← kindOf_eq_some]
    cases Handler.kindOf fields with
    | none => simp
    | some kind => by_cases hkind : kind = "reverse_proxy" <;> simp [hkind]

/-! ## Servers -/

/-- Two claims conflict if the first is outright, or if they are for the same path. -/
theorem not_conflicts_iff (a b : HostClaim) :
    ¬Conflicts a b ↔ (a.2 = none → a.1 ≠ b.1) ∧ (a.2.isSome → b.2.isSome → a ≠ b) := by
  obtain ⟨host, path⟩ := a
  obtain ⟨host', path'⟩ := b
  cases path with
  | none => simp [Conflicts]
  | some p => cases path' <;> simp [Conflicts]

theorem pairwise_not_conflicts (claims : List HostClaim) :
    (claims.Pairwise fun a b => ¬Conflicts a b) ↔ AreOrderly claims := by
  simp only [not_conflicts_iff]
  rw [List.pairwise_and_iff]
  constructor
  · rintro ⟨houtright, hpaths⟩
    exact ⟨houtright, List.pairwise_filter.2 hpaths⟩
  · rintro ⟨houtright, hpaths⟩
    exact ⟨houtright, List.pairwise_filter.1 hpaths⟩

/-- Paths of a host may be claimed before the host itself. -/
example : AreOrderly [("a.example", some "/api"), ("a.example", none)] := by
  constructor <;> decide

theorem server_eq_ok_iff_isSound (name : String) (s : Server) :
    server name s = .ok () ↔ s.IsSound := by
  rw [server_eq_ok, pairwise_not_conflicts]
  simp only [HasGoodHandlers, handler_eq_ok]
  constructor
  · rintro ⟨⟨hlistens, haddresses⟩, hroutes, hclaims⟩
    exact ⟨hlistens, haddresses, fun r hr => (hroutes r hr).1, fun r hr => (hroutes r hr).2,
      hclaims⟩
  · intro h
    exact ⟨⟨h.listens, h.addresses⟩, fun r hr => ⟨h.handled r hr, h.handlers r hr⟩, h.claims⟩

theorem servers_eq_ok (entries : List (String × Server)) :
    servers entries = .ok () ↔ ∀ e ∈ entries, e.2.IsSound := by
  induction entries with
  | nil => simp [servers]
  | cons e rest ih =>
    rw [servers, bind_eq_ok, List.forall_mem_cons, ← server_eq_ok_iff_isSound e.1, ← ih]
    constructor
    · rintro ⟨u, hu, hrest⟩
      exact ⟨hu, hrest⟩
    · rintro ⟨hserver, hrest⟩
      exact ⟨(), hserver, hrest⟩

/-! ## Documents -/

theorem Document.isEmpty_iff {d : Document} : d.isEmpty = true ↔ d = Document.empty := by
  constructor
  · obtain ⟨logging, apps, storage, extra⟩ := d
    intro h
    simp only [isEmpty, Bool.and_eq_true, Option.isNone_iff_eq_none] at h
    obtain ⟨⟨⟨rfl, happs⟩, rfl⟩, hextra⟩ := h
    rw [Apps.eq_empty_of_isEmpty happs, Dict.eq_empty_of_isEmpty hextra]
    rfl
  · rintro rfl
    rfl

/-- All servers of a document that is accepted are by the rules. -/
theorem isSound_of_validate {d : Document} (h : validate d = .ok ()) :
    ∀ e ∈ d.servers, e.2.IsSound := by
  rw [Document.servers]
  rw [validate] at h
  cases hhttp : d.apps.http with
  | none => exact List.forall_mem_nil _
  | some http =>
    rw [hhttp] at h
    exact (servers_eq_ok _).1 h

/-- **Which documents the validator accepts**: the one that configures nothing, and those that have
servers, if any, by the rules. -/
theorem validate_eq_ok (d : Document) :
    validate d = .ok () ↔
      d = Document.empty ∨
        ∃ http, d.apps.http = some http ∧ ∀ e ∈ http.servers.entries, e.2.IsSound := by
  rw [validate]
  cases hhttp : d.apps.http with
  | none =>
    simp only [reduceCtorEq, false_and, exists_false, or_false]
    rw [← Document.isEmpty_iff]
    cases d.isEmpty <;> simp
  | some http =>
    have hempty : d ≠ Document.empty := by
      rintro rfl
      cases hhttp
    simp only [hempty, false_or, Option.some.injEq, exists_eq_left']
    exact servers_eq_ok http.servers.entries

end ProxyPlane
