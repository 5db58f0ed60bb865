import Mathlib.Data.List.Count
import ProxyPlane.Proofs.Acceptance
import ProxyPlane.Proofs.Import.Findings

/-!
# Owning a host

The validator asks that no server claims a host outright twice, and extraction reports a host that
is owned twice in the whole document.  Both mean the same by owning a host, so that in a document
that is accepted the servers which own a host are counted by its conflicts.

## What is here

* `Server.Owns`, that a server names a host without paths.
* `nodup_ownHosts`: a server that is accepted owns no host twice.
* `count_repeats`: a host is reported as often as it is owned, but for the first time.
* `conflicts_of_valid`: how many conflicts an accepted document has.
-/

set_option autoImplicit false
namespace ProxyPlane

/-- The server has a matcher set without paths that names the host. -/
def Server.Owns (s : Server) (host : String) : Prop :=
  ∃ r ∈ s.routes, ∃ m ∈ r.matchers, m.path = [] ∧ host ∈ m.host

instance (s : Server) (host : String) : Decidable (s.Owns host) :=
  inferInstanceAs (Decidable (∃ r ∈ s.routes, ∃ m ∈ r.matchers, m.path = [] ∧ host ∈ m.host))

/-! ## The hosts of a server -/

theorem Server.mem_ownHosts {s : Server} {host : String} :
    host ∈ s.routes.flatMap Route.ownHosts ↔ s.Owns host := by
  simp only [Route.ownHosts, Server.Owns, List.mem_flatMap, List.mem_filter, List.isEmpty_iff,
    and_assoc]

/-- Owning a host is claiming it outright. -/
theorem Route.ownHosts_eq (r : Route) :
    r.ownHosts = ((Validation.hostClaims r).filter fun c => c.2.isNone).map (·.1) := by
  have hhost : ∀ (paths : List String) (host : String),
      ((Validation.claimsOfHost paths host).filter fun c => c.2.isNone).map (·.1) =
        if paths.isEmpty then [host] else [] := by
    intro paths host
    rw [Validation.claimsOfHost]
    split
    · rfl
    · simp
  rw [Route.ownHosts, Validation.hostClaims]
  induction r.matchers with
  | nil => rfl
  | cons m ms ih =>
    rw [List.flatMap_cons, List.filter_append, List.map_append, ← ih, List.filter_flatMap,
      List.map_flatMap]
    simp only [hhost]
    cases hm : m.path.isEmpty <;> simp [hm]

/-- **A server that is accepted owns no host twice.** -/
theorem nodup_ownHosts {s : Server} (h : s.IsSound) : (s.routes.flatMap Route.ownHosts).Nodup := by
  have howned : s.routes.flatMap Route.ownHosts =
      ((s.routes.flatMap Validation.hostClaims).filter fun c => c.2.isNone).map (·.1) := by
    rw [List.filter_flatMap, List.map_flatMap]
    exact List.flatMap_congr fun r _ => r.ownHosts_eq
  rw [howned, List.Nodup, List.pairwise_map, List.pairwise_filter]
  refine h.claims.outright.imp fun hclaims houtright _ => hclaims ?_
  exact Option.isNone_iff_eq_none.1 houtright

/-! ## Counting -/

/-- **An element is repeated as often as it is there**, but for the first time. -/
theorem count_repeats (seen xs : List String) (x : String) :
    (repeats seen xs).count x = xs.count x - if x ∈ seen then 0 else 1 := by
  induction xs generalizing seen with
  | nil => simp [repeats]
  | cons y ys ih =>
    rw [repeats]
    by_cases hy : y ∈ seen
    · rw [if_pos hy, List.count_cons, List.count_cons, ih]
      by_cases hxy : y = x
      · subst hxy
        simp [hy]
      · simp [hxy]
    · rw [if_neg hy, List.count_cons, ih]
      by_cases hxy : y = x
      · subst hxy
        simp [hy]
      · simp [hxy, Ne.symm hxy]

/-- How often an element is in lists without duplicates. -/
theorem count_flatMap_of_nodup {α : Type} {l : List α} {f : α → List String}
    (h : ∀ a ∈ l, (f a).Nodup) (x : String) :
    (l.flatMap f).count x = l.countP fun a => decide (x ∈ f a) := by
  induction l with
  | nil => rfl
  | cons a l ih =>
    obtain ⟨ha, hl⟩ := List.forall_mem_cons.1 h
    rw [List.flatMap_cons, List.count_append, ih hl, List.countP_cons, List.Nodup.count ha,
      Nat.add_comm]
    by_cases hx : x ∈ f a <;> simp [hx]

theorem duplicateConflict_injective : Function.Injective duplicateConflict := by
  intro a b h
  have hlist := congrArg String.toList h
  unfold duplicateConflict at hlist
  rw [String.toList_append, String.toList_append] at hlist
  exact String.toList_inj.1 (List.append_cancel_left hlist)

/-! ## Documents -/

theorem conflicts_eq (d : Document) :
    (extractDocument d).conflicts =
      (repeats [] (d.servers.flatMap fun e => e.2.routes.flatMap Route.ownHosts)).map
        duplicateConflict := by
  have howned : ownedHosts d.occurrences =
      d.servers.flatMap fun e => e.2.routes.flatMap Route.ownHosts := by
    rw [ownedHosts, Document.occurrences, List.filter_flatMap, List.map_flatMap]
    exact List.flatMap_congr fun e _ => ownedHosts_routesOccurrences 0 e.2.routes
  rw [extractDocument, foldl_add, findingsOf, howned]

/-- **How many conflicts an accepted document has**: for each host one less than there are servers
that own it. -/
theorem conflicts_of_valid {bs : Bytes} {d : Document} (hdecode : Document.decode bs = .ok d)
    (hvalid : validate d = .ok ()) :
    ∃ r, extract bs = .ok r ∧
      (∀ host, r.conflicts.count (duplicateConflict host) =
        d.servers.countP (fun e => decide (e.2.Owns host)) - 1) ∧
      (∀ conflict ∈ r.conflicts, ∃ host, conflict = duplicateConflict host) ∧
      (d.servers.length ≤ 1 → r.conflicts = []) := by
  have hcount : ∀ host, (extractDocument d).conflicts.count (duplicateConflict host) =
      d.servers.countP (fun e => decide (e.2.Owns host)) - 1 := by
    intro host
    rw [conflicts_eq, List.count_map_of_injective _ _ duplicateConflict_injective, count_repeats,
      if_neg List.not_mem_nil,
      count_flatMap_of_nodup fun e he => nodup_ownHosts (isSound_of_validate hvalid e he)]
    simp only [Server.mem_ownHosts]
  have hnamed : ∀ conflict ∈ (extractDocument d).conflicts,
      ∃ host, conflict = duplicateConflict host := by
    intro conflict hconflict
    rw [conflicts_eq] at hconflict
    obtain ⟨host, -, rfl⟩ := List.mem_map.1 hconflict
    exact ⟨host, rfl⟩
  refine ⟨extractDocument d, map_eq_ok.2 ⟨d, hdecode, rfl⟩, hcount, hnamed, fun hone => ?_⟩
  refine List.eq_nil_iff_forall_not_mem.2 fun conflict hconflict => ?_
  -- one server is no second owner of any host
  obtain ⟨host, rfl⟩ := hnamed conflict hconflict
  have hpositive := List.count_pos_iff.2 hconflict
  have hle := List.countP_le_length (p := fun e => decide (e.2.Owns host)) (l := d.servers)
  rw [hcount host] at hpositive
  omega

/-- A document that is accepted, in which one host is owned by two servers, and claimed for a path
by the first of them. -/
def sharedDocument : Json :=
  let proxy := Json.object
    [("handler", .string "reverse_proxy"),
     ("upstreams", .array [.object [("dial", .string "10.0.0.1:80")]])]
  let route := fun matcher : List (String × Json) => Json.object
    [("match", .array [.object matcher]), ("handle", .array [proxy])]
  let server := fun (listen : String) (routes : List Json) => Json.object
    [("listen", .array [.string listen]), ("routes", .array routes)]
  let host := ("host", Json.array [.string "a.example"])
  .object [("apps", .object [("http", .object [("servers", .object
    [("edge", server ":443" [route [host, ("path", .array [.string "/api"])], route [host]]),
     ("spare", server ":8443" [route [host]])])])])]

theorem conflicts_of_valid_shared :
    ∃ d r, Document.decode sharedDocument.compact = .ok d ∧ validate d = .ok () ∧
      extract sharedDocument.compact = .ok r ∧
      r.conflicts.count (duplicateConflict "a.example") = 1 := by
  have hcheck : (Document.decode sharedDocument.compact).map (fun d => decide
      (validate d = .ok () ∧
        d.servers.countP (fun e => decide (e.2.Owns "a.example")) = 2)) = .ok true := by
    decide +kernel
  obtain ⟨d, hd, hdecide⟩ := map_eq_ok.1 hcheck
  obtain ⟨hvalid, howners⟩ := of_decide_eq_true hdecide
  obtain ⟨r, hr, hcount, -, -⟩ := conflicts_of_valid hd hvalid
  exact ⟨d, r, hd, hvalid, hr, by rw [hcount, howners]⟩

end ProxyPlane
