import Mathlib.Data.List.Pairwise
import ProxyPlane.Proofs.Address
import ProxyPlane.Proofs.Compile
import ProxyPlane.Proofs.Validation
import ProxyPlane.World

/-!
# Which desired states render

On what the compiler writes, the tables of the validator come down to conditions on the records.

## What is here

* `AreConsistent`, the conditions, with `RoutingRecord.patterns` and `IsDialable`.
* `handler_target`: the only handler of a compiled route that can be refused.
* `pairwise_hostClaims`: the claims of compiled routes do not conflict just if no domain and no
  pattern of a record is repeated.
* `validate_document`: what the validator asks of a compiled document.
* `render_spec`: when rendering succeeds, and what it answers otherwise.
-/

set_option autoImplicit false
namespace ProxyPlane

open Validation

/-! ## Conditions on records -/

/-- An address can be made of the host and the port. -/
def IsDialable (host : String) (port : Nat) : Prop :=
  ∃ p, Address.split (Address.join host port) = .ok p

namespace RoutingRecord

/-- All targets of the record can be dialled. -/
def HasDialableTargets (r : RoutingRecord) : Prop :=
  IsDialable r.forwardHost r.forwardPort ∧
    ∀ l ∈ r.locations, IsDialable l.forwardHost l.forwardPort

/-- The patterns of the path rules of a record, in their order. -/
def patterns (r : RoutingRecord) : List String :=
  r.locations.flatMap fun l => Compile.pathPatterns l.path

end RoutingRecord

/-- What the records have to fulfil, apart from having domains, to pass validation. -/
structure AreConsistent (records : List RoutingRecord) : Prop where
  /-- No domain is named twice. -/
  domains : ((Compile.enabledRecords records).flatMap (·.domains)).Nodup
  /-- No record has a pattern twice. -/
  patterns : ∀ r ∈ Compile.enabledRecords records, r.patterns.Nodup
  targets : ∀ r ∈ Compile.enabledRecords records, r.HasDialableTargets

/-! ## Handlers -/

/-- The proxy to a target is accepted just if the target can be dialled. -/
theorem handler_target (scheme host : String) (port : Nat) (upgrade : Bool) :
    handler (Compile.target scheme host port upgrade) = .ok () ↔ IsDialable host port := by
  show backends 0 [{ Backend.empty with dial := Address.join host port }] = .ok () ↔ _
  rw [backends, IsDialable]
  simp only [Address.join_ne_empty, if_neg Bool.false_ne_true]
  cases hsplit : Address.split (Address.join host port) with
  | error e => simp
  | ok p =>
    simp only [Address.port_ne_empty_of_split_join hsplit, if_neg Bool.false_ne_true]
    simp [backends]

theorem hasGoodHandlers_pathRoute (domains : List String) (upgrade : Bool) (l : PathRule) :
    HasGoodHandlers (Compile.pathRoute domains upgrade l) ↔
      IsDialable l.forwardHost l.forwardPort := by
  rw [HasGoodHandlers, Compile.pathRoute]
  simp only [ne_eq, List.cons_ne_nil, not_false_eq_true, true_and, List.forall_mem_singleton,
    handler_target]

theorem hasGoodHandlers_catchAllRoute (domains : List String) (r : RoutingRecord) :
    HasGoodHandlers (Compile.catchAllRoute domains r) ↔
      IsDialable r.forwardHost r.forwardPort := by
  rw [HasGoodHandlers, Compile.catchAllRoute, Compile.recordHandlers,
    ← handler_target r.forwardScheme _ _ r.websocketSupport]
  constructor
  · intro h
    exact h.2 _ (by simp)
  · intro h
    refine ⟨by simp, fun x hx => ?_⟩
    simp only [List.mem_append, List.mem_ite_nil_right, List.mem_singleton] at hx
    rcases hx with (⟨-, rfl⟩ | ⟨-, rfl⟩) | rfl
    · rfl
    · rfl
    · exact h

/-- The handlers of the routes of a record are good just if its targets can be dialled. -/
theorem hasGoodHandlers_recordRoutes (r : RoutingRecord) :
    (∀ x ∈ Compile.recordRoutes r, HasGoodHandlers x) ↔ r.HasDialableTargets := by
  rw [Compile.recordRoutes, List.forall_mem_append, List.forall_mem_singleton,
    hasGoodHandlers_catchAllRoute, List.forall_mem_map, RoutingRecord.HasDialableTargets, and_comm]
  simp only [hasGoodHandlers_pathRoute]

/-! ## Claims -/

/-- The claims of a path rule, for each domain in turn. -/
theorem hostClaims_pathRoute (domains : List String) (upgrade : Bool) (l : PathRule) :
    hostClaims (Compile.pathRoute domains upgrade l) =
      domains.flatMap fun h => (Compile.pathPatterns l.path).map fun p => (h, some p) := by
  simp only [hostClaims, Compile.pathRoute, List.flatMap_cons, List.flatMap_nil, List.append_nil]
  rfl

theorem hostClaims_catchAllRoute (domains : List String) (r : RoutingRecord) :
    hostClaims (Compile.catchAllRoute domains r) = domains.map fun h => (h, none) := by
  simp only [hostClaims, Compile.catchAllRoute, List.flatMap_cons, List.flatMap_nil,
    List.append_nil]
  exact List.map_eq_flatMap.symm

theorem hostClaims_recordRoutes (r : RoutingRecord) :
    (Compile.recordRoutes r).flatMap hostClaims =
      (r.locations.flatMap fun l => r.domains.flatMap fun h =>
        (Compile.pathPatterns l.path).map fun p => (h, some p)) ++
        r.domains.map fun h => (h, none) := by
  rw [Compile.recordRoutes, List.flatMap_append, List.flatMap_map, List.flatMap_singleton,
    hostClaims_catchAllRoute]
  simp only [hostClaims_pathRoute]

/-- Claims do not conflict if their hosts differ. -/
theorem not_conflicts_of_ne {a b : HostClaim} (h : a.1 ≠ b.1) : ¬Conflicts a b := fun hc => h hc.1

theorem conflicts_path_path {h h' p p' : String} :
    Conflicts (h, some p) (h', some p') ↔ h = h' ∧ p = p' := by
  simp [Conflicts]

theorem conflicts_none_none {h h' : String} : Conflicts (h, none) (h', none) ↔ h = h' := by
  simp [Conflicts]

theorem nodup_flatMap {α β : Type} {xs : List α} {f : α → List β} :
    (xs.flatMap f).Nodup ↔ (∀ a ∈ xs, (f a).Nodup) ∧
      xs.Pairwise fun a b => ∀ x ∈ f a, ∀ y ∈ f b, x ≠ y :=
  List.pairwise_flatMap

/-- A domain that is named once belongs to one record. -/
theorem eq_of_mem_domains {records : List RoutingRecord} {r r' : RoutingRecord} {domain : String}
    (h : (records.flatMap (·.domains)).Nodup) (hr : r ∈ records) (hr' : r' ∈ records)
    (hdomain : domain ∈ r.domains) (hdomain' : domain ∈ r'.domains) : r = r' := by
  have hpairs := (nodup_flatMap.1 h).2
  by_contra hne
  have hsymm : Std.Symm fun a b : RoutingRecord => ∀ x ∈ a.domains, ∀ y ∈ b.domains, x ≠ y :=
    ⟨fun a b hab x hx y hy => (hab y hy x hx).symm⟩
  exact hpairs.forall hr hr' hne domain hdomain domain hdomain' rfl

section PathClaims

variable {domains : List String}

/-- The claims of one path rule. -/
theorem pairwise_claims_of_patterns (hdomains : domains ≠ []) {patterns : List String}
    (hpatterns : patterns ≠ []) :
    ((domains.flatMap fun h => patterns.map fun p => ((h, some p) : HostClaim)).Pairwise
      fun a b => ¬Conflicts a b) ↔ domains.Nodup ∧ patterns.Nodup := by
  obtain ⟨d, hd⟩ := List.exists_mem_of_ne_nil domains hdomains
  obtain ⟨q, hq⟩ := List.exists_mem_of_ne_nil patterns hpatterns
  have hsame : ∀ h : String, ((patterns.map fun p => ((h, some p) : HostClaim)).Pairwise
      fun a b => ¬Conflicts a b) ↔ patterns.Nodup := by
    intro h
    rw [List.pairwise_map, List.Nodup]
    simp only [conflicts_path_path, true_and, ne_eq]
  have hcross : ∀ h h' : String, (∀ x ∈ patterns.map fun p => ((h, some p) : HostClaim),
      ∀ y ∈ patterns.map fun p => ((h', some p) : HostClaim), ¬Conflicts x y) ↔ h ≠ h' := by
    intro h h'
    constructor
    · intro hall heq
      exact hall _ (List.mem_map_of_mem hq) _ (List.mem_map_of_mem hq) ⟨heq, .inr rfl⟩
    · intro hne x hx y hy
      obtain ⟨p, -, rfl⟩ := List.mem_map.1 hx
      obtain ⟨p', -, rfl⟩ := List.mem_map.1 hy
      exact not_conflicts_of_ne hne
  rw [List.pairwise_flatMap]
  simp only [hsame, hcross]
  exact ⟨fun h => ⟨h.2, h.1 d hd⟩, fun h => ⟨fun _ _ => h.2, h.1⟩⟩

/-- The claims of two path rules of a record do not conflict just if their patterns differ. -/
theorem not_conflicts_rules (hdomains : domains ≠ []) (ps qs : List String) :
    (∀ x ∈ domains.flatMap fun h => ps.map fun p => ((h, some p) : HostClaim),
      ∀ y ∈ domains.flatMap fun h => qs.map fun p => ((h, some p) : HostClaim),
        ¬Conflicts x y) ↔ ∀ p ∈ ps, ∀ q ∈ qs, p ≠ q := by
  obtain ⟨d, hd⟩ := List.exists_mem_of_ne_nil domains hdomains
  constructor
  · intro hall p hp q hq heq
    exact hall _ (List.mem_flatMap.2 ⟨d, hd, List.mem_map_of_mem hp⟩) _
      (List.mem_flatMap.2 ⟨d, hd, List.mem_map_of_mem hq⟩) (conflicts_path_path.2 ⟨rfl, heq⟩)
  · intro hne x hx y hy
    obtain ⟨h, -, hx⟩ := List.mem_flatMap.1 hx
    obtain ⟨p, hp, rfl⟩ := List.mem_map.1 hx
    obtain ⟨h', -, hy⟩ := List.mem_flatMap.1 hy
    obtain ⟨q, hq, rfl⟩ := List.mem_map.1 hy
    exact fun hc => hne p hp q hq (conflicts_path_path.1 hc).2

/-- The claims of the path rules of a record. -/
theorem pairwise_pathClaims (hdomains : domains ≠ []) (rules : List PathRule) :
    ((rules.flatMap fun l => domains.flatMap fun h =>
      (Compile.pathPatterns l.path).map fun p => ((h, some p) : HostClaim)).Pairwise
        fun a b => ¬Conflicts a b) ↔
      (rules ≠ [] → domains.Nodup) ∧
        (rules.flatMap fun l => Compile.pathPatterns l.path).Nodup := by
  have hone : ∀ l : PathRule, ((domains.flatMap fun h =>
      (Compile.pathPatterns l.path).map fun p => ((h, some p) : HostClaim)).Pairwise
        fun a b => ¬Conflicts a b) ↔ domains.Nodup ∧ (Compile.pathPatterns l.path).Nodup :=
    fun l => pairwise_claims_of_patterns hdomains (by simp [Compile.pathPatterns])
  rw [List.pairwise_flatMap, nodup_flatMap]
  simp only [hone, not_conflicts_rules hdomains]
  constructor
  · rintro ⟨hrules, hpairs⟩
    refine ⟨fun hne => ?_, fun l hl => (hrules l hl).2, hpairs⟩
    obtain ⟨l, hl⟩ := List.exists_mem_of_ne_nil rules hne
    exact (hrules l hl).1
  · rintro ⟨hdistinct, hpatterns, hpairs⟩
    exact ⟨fun l hl => ⟨hdistinct (List.ne_nil_of_mem hl), hpatterns l hl⟩, hpairs⟩

end PathClaims

/-- **The claims of a record**: path rules leave room for the route behind them, so they conflict
only if a domain or a pattern is repeated. -/
theorem pairwise_recordClaims {r : RoutingRecord} (hdomains : r.domains ≠ []) :
    (((Compile.recordRoutes r).flatMap hostClaims).Pairwise fun a b => ¬Conflicts a b) ↔
      r.domains.Nodup ∧ r.patterns.Nodup := by
  rw [hostClaims_recordRoutes, List.pairwise_append, pairwise_pathClaims hdomains,
    List.pairwise_map]
  simp only [conflicts_none_none]
  constructor
  · rintro ⟨⟨-, hpatterns⟩, hdistinct, -⟩
    exact ⟨hdistinct, hpatterns⟩
  · rintro ⟨hdistinct, hpatterns⟩
    refine ⟨⟨fun _ => hdistinct, hpatterns⟩, hdistinct, fun x hx y hy => ?_⟩
    obtain ⟨l, -, hx⟩ := List.mem_flatMap.1 hx
    obtain ⟨h, -, hx⟩ := List.mem_flatMap.1 hx
    obtain ⟨p, -, rfl⟩ := List.mem_map.1 hx
    obtain ⟨h', -, rfl⟩ := List.mem_map.1 hy
    simp [Conflicts]

/-- The hosts that a record claims are its domains. -/
theorem fst_mem_of_hostClaims {r : RoutingRecord} {x : HostClaim}
    (hx : x ∈ (Compile.recordRoutes r).flatMap hostClaims) : x.1 ∈ r.domains := by
  rw [hostClaims_recordRoutes] at hx
  rcases List.mem_append.1 hx with hx | hx
  · obtain ⟨l, -, hx⟩ := List.mem_flatMap.1 hx
    obtain ⟨h, hh, hx⟩ := List.mem_flatMap.1 hx
    obtain ⟨p, -, rfl⟩ := List.mem_map.1 hx
    exact hh
  · obtain ⟨h, hh, rfl⟩ := List.mem_map.1 hx
    exact hh

theorem outright_mem_hostClaims {r : RoutingRecord} {h : String} (hh : h ∈ r.domains) :
    (h, none) ∈ (Compile.recordRoutes r).flatMap hostClaims := by
  rw [hostClaims_recordRoutes]
  exact List.mem_append_right _ (List.mem_map_of_mem hh)

/-- The claims of two records do not conflict just if they share no domain. -/
theorem not_conflicts_records (r r' : RoutingRecord) :
    (∀ x ∈ (Compile.recordRoutes r).flatMap hostClaims,
      ∀ y ∈ (Compile.recordRoutes r').flatMap hostClaims, ¬Conflicts x y) ↔
      ∀ h ∈ r.domains, ∀ h' ∈ r'.domains, h ≠ h' := by
  constructor
  · intro hall h hh h' hh' heq
    exact hall _ (outright_mem_hostClaims hh) _ (outright_mem_hostClaims hh') ⟨heq, .inl rfl⟩
  · intro hne x hx y hy
    exact not_conflicts_of_ne (hne _ (fst_mem_of_hostClaims hx) _ (fst_mem_of_hostClaims hy))

/-- **The claims of compiled routes conflict just if a domain is named twice, or a pattern twice by
one record.** -/
theorem pairwise_hostClaims {records : List RoutingRecord}
    (hdomains : ∀ r ∈ records, r.domains ≠ []) :
    (((records.flatMap Compile.recordRoutes).flatMap hostClaims).Pairwise
      fun a b => ¬Conflicts a b) ↔
      (records.flatMap (·.domains)).Nodup ∧ ∀ r ∈ records, r.patterns.Nodup := by
  rw [List.flatMap_assoc, List.pairwise_flatMap, nodup_flatMap]
  simp only [not_conflicts_records]
  constructor
  · rintro ⟨hrecords, hpairs⟩
    exact ⟨⟨fun r hr => ((pairwise_recordClaims (hdomains r hr)).1 (hrecords r hr)).1, hpairs⟩,
      fun r hr => ((pairwise_recordClaims (hdomains r hr)).1 (hrecords r hr)).2⟩
  · rintro ⟨⟨hdistinct, hpairs⟩, hpatterns⟩
    exact ⟨fun r hr => (pairwise_recordClaims (hdomains r hr)).2
      ⟨hdistinct r hr, hpatterns r hr⟩, hpairs⟩

/-! ## Documents -/

theorem listen_valid : ∀ a ∈ Compile.listen, listenAddress a = .ok () := by
  intro a ha
  simp only [Compile.listen, List.mem_cons, List.not_mem_nil, or_false] at ha
  rcases ha with rfl | rfl <;> rfl

/-- **What the validator asks of a compiled document.** -/
theorem validate_document {records : List RoutingRecord} (root email : String)
    (hdomains : ∀ r ∈ Compile.enabledRecords records, r.domains ≠ []) :
    validate (Compile.document root email
      ((Compile.enabledRecords records).flatMap Compile.recordRoutes)) = .ok () ↔
      AreConsistent records := by
  show (Validation.server Compile.serverName (Compile.server _)).bind (fun _ => .ok ()) = .ok () ↔ _
  rw [bind_eq_ok]
  constructor
  · rintro ⟨u, hserver, -⟩
    obtain ⟨-, hgood, hpairs⟩ := server_eq_ok.1 hserver
    obtain ⟨hdistinct, hpatterns⟩ := (pairwise_hostClaims hdomains).1 hpairs
    refine ⟨hdistinct, hpatterns, fun r hr => (hasGoodHandlers_recordRoutes r).1 fun x hx => ?_⟩
    exact hgood x (List.mem_flatMap.2 ⟨r, hr, hx⟩)
  · rintro ⟨hdistinct, hpatterns, htargets⟩
    refine ⟨(), server_eq_ok.2 ⟨⟨by simp [Compile.server, Compile.listen], listen_valid⟩, ?_,
      (pairwise_hostClaims hdomains).2 ⟨hdistinct, hpatterns⟩⟩, rfl⟩
    intro x hx
    obtain ⟨r, hr, hx⟩ := List.mem_flatMap.1 hx
    exact (hasGoodHandlers_recordRoutes r).2 (htargets r hr) x hx

/-- What is made of records, all of them with domains. -/
theorem documentOf_of_domains (m : SyncManager) {records : List RoutingRecord} (email : String)
    (hdomains : ∀ r ∈ Compile.enabledRecords records, r.domains ≠ []) :
    ((∃ d, m.documentOf records email = .ok d) ↔ AreConsistent records) ∧
      (¬AreConsistent records → ∃ e, m.documentOf records email = .error (.validation e)) := by
  have hvalid := validate_document m.storageRoot email hdomains
  rw [SyncManager.documentOf, compile_eq_ok.2 ⟨hdomains, rfl⟩]
  simp only
  cases hresult : validate (Compile.document m.storageRoot email
      ((Compile.enabledRecords records).flatMap Compile.recordRoutes)) with
  | error e =>
    rw [hresult] at hvalid
    have hnot : ¬AreConsistent records := fun h => absurd (hvalid.2 h) nofun
    exact ⟨iff_of_false (fun ⟨_, hd⟩ => absurd hd nofun) hnot, fun _ => ⟨e, rfl⟩⟩
  | ok u =>
    have hconsistent := hvalid.1 hresult
    exact ⟨iff_of_true ⟨_, rfl⟩ hconsistent, fun hnot => absurd hconsistent hnot⟩

/-- **A document is made of records just if they compile to it and are consistent.** -/
theorem documentOf_eq_ok {m : SyncManager} {records : List RoutingRecord} {email : String}
    {d : Document} :
    m.documentOf records email = .ok d ↔
      compile records m.storageRoot email = .ok d ∧ AreConsistent records := by
  rw [SyncManager.documentOf]
  cases hcompile : compile records m.storageRoot email with
  | error e => exact iff_of_false nofun fun h => absurd h.1 nofun
  | ok compiled =>
    obtain ⟨hdomains, rfl⟩ := compile_eq_ok.1 hcompile
    rw [← validate_document m.storageRoot email hdomains]
    simp only
    cases validate (Compile.document m.storageRoot email
      ((Compile.enabledRecords records).flatMap Compile.recordRoutes)) with
    | error e => exact iff_of_false nofun fun h => absurd h.2 nofun
    | ok u => simp

/-- Disabled records leave no trace. -/
theorem documentOf_enabledRecords (m : SyncManager) (records : List RoutingRecord)
    (email : String) :
    m.documentOf (Compile.enabledRecords records) email = m.documentOf records email := by
  have hroutes : Compile.routes (Compile.enabledRecords records) = Compile.routes records := by
    induction records with
    | nil => rfl
    | cons r rest ih =>
      rw [Compile.enabledRecords, List.filter_cons]
      cases hr : r.enabled with
      | false =>
        rw [if_neg Bool.false_ne_true, Compile.routes, hr]
        exact ih
      | true =>
        rw [if_pos rfl, Compile.routes, Compile.routes, hr]
        simp only [Bool.not_true, if_neg Bool.false_ne_true]
        rw [show Compile.routes (rest.filter (·.enabled)) = Compile.routes rest from ih]
  rw [SyncManager.documentOf, SyncManager.documentOf, compile, compile, hroutes]

/-! ## Rendering -/

section Rendering

variable {σ : Type} (answer : {β : Type} → SyncOp β → σ → β × σ)

/-- The store answers with the records and the e-mail address. -/
structure StoreReads (s : σ) (records : List RoutingRecord) (email : Option String) : Prop where
  records : (answer (.store .records) s).1 = .ok records
  email : (answer (.store (.setting acmeEmailSetting)) (answer (.store .records) s).2).1 = .ok email

variable {answer} {s : σ} {records : List RoutingRecord} {email : Option String}

theorem render_of_storeReads (h : StoreReads answer s records email) (m : SyncManager) :
    (m.render.run answer s).1 = m.documentOf records (email.getD "") := by
  simp only [SyncManager.render, SyncProgram.store, Program.bind_eq, Program.run_bind,
    Program.run_perform, h.records, h.email]
  rfl

/-- **Which desired states render.**  Every enabled record must have a domain, or the first without
one is named; apart from that no domain and no pattern may be repeated and all targets must be
dialled, or the validator objects.  Disabled records do not matter. -/
theorem render_spec (h : StoreReads answer s records email) (m : SyncManager) :
    ((∃ d, (m.render.run answer s).1 = .ok d) ↔
      (∀ r ∈ Compile.enabledRecords records, r.domains ≠ []) ∧ AreConsistent records) ∧
    ((¬∀ r ∈ Compile.enabledRecords records, r.domains ≠ []) →
      ∃ r, (Compile.enabledRecords records).find? (fun r => r.domains.isEmpty) = some r ∧
        (m.render.run answer s).1 = .error (.compile (.emptyDomain r.id))) ∧
    ((∀ r ∈ Compile.enabledRecords records, r.domains ≠ []) → ¬AreConsistent records →
      ∃ e, (m.render.run answer s).1 = .error (.validation e)) ∧
    ∀ {σ' : Type} (answer' : {β : Type} → SyncOp β → σ' → β × σ') (s' : σ')
      (records' : List RoutingRecord), StoreReads answer' s' records' email →
      Compile.enabledRecords records' = Compile.enabledRecords records →
      (m.render.run answer' s').1 = (m.render.run answer s).1 := by
  rw [render_of_storeReads h m]
  have hempty : (¬∀ r ∈ Compile.enabledRecords records, r.domains ≠ []) →
      ∃ r, (Compile.enabledRecords records).find? (fun r => r.domains.isEmpty) = some r ∧
        m.documentOf records (email.getD "") = .error (.compile (.emptyDomain r.id)) := by
    intro hnot
    cases hfind : (Compile.enabledRecords records).find? (fun r => r.domains.isEmpty) with
    | none =>
      refine absurd (fun r hr hnil => ?_) hnot
      exact List.find?_eq_none.1 hfind r hr (by simp [hnil])
    | some r =>
      refine ⟨r, rfl, ?_⟩
      rw [SyncManager.documentOf, compile_eq_error.2 ⟨r, hfind, rfl⟩]
  refine ⟨?_, hempty, ?_, ?_⟩
  · constructor
    · rintro ⟨d, hd⟩
      have hdomains : ∀ r ∈ Compile.enabledRecords records, r.domains ≠ [] := by
        apply Decidable.byContradiction
        intro hnot
        obtain ⟨r, -, hr⟩ := hempty hnot
        rw [hd] at hr
        exact absurd hr nofun
      exact ⟨hdomains, (documentOf_of_domains m _ hdomains).1.1 ⟨d, hd⟩⟩
    · rintro ⟨hdomains, hconsistent⟩
      exact (documentOf_of_domains m _ hdomains).1.2 hconsistent
  · intro hdomains
    exact (documentOf_of_domains m _ hdomains).2
  · intro σ' answer' s' records' h' hsame
    rw [render_of_storeReads h' m, ← documentOf_enabledRecords m records', hsame,
      documentOf_enabledRecords]

/-- A world whose store holds an enabled record with a path rule, and a disabled one that could not
be compiled. -/
def oneRecordWorld : World where
  files := FileTree.empty
  backing := .memory (MemoryStore.ofRecords
    [{ RoutingRecord.create "r1" "a.example, b.example" "10.0.0.1" 8080 with
       locations := [⟨"/api", "http", "::1", 8081⟩] },
     { RoutingRecord.create "r2" " , " "10.0.0.2" 80 with enabled := false }]) 0 fun _ => false
  peer := ⟨none, [], fun _ => .error "closed", []⟩
  clock := ⟨0, 0⟩

theorem render_oneRecordWorld :
    ∃ d, ((SyncManager.create ⟨"http://localhost:2019"⟩ "/etc/proxy").render.run World.answer
      oneRecordWorld).1 = .ok d := by
  have hreads : StoreReads World.answer oneRecordWorld _ none := ⟨rfl, rfl⟩
  refine (render_spec hreads _).1.2 ⟨by decide, ⟨by decide, by decide, ?_⟩⟩
  intro r hr
  obtain rfl := List.mem_singleton.1 hr
  refine ⟨⟨_, rfl⟩, fun l hl => ?_⟩
  obtain rfl := List.mem_singleton.1 hl
  exact ⟨_, rfl⟩

end Rendering

end ProxyPlane
