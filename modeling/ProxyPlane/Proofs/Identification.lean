import Mathlib.Data.List.Forall2
import ProxyPlane.Proofs.Compile
import ProxyPlane.Proofs.Json.Rewriting

/-!
# What a document identifies

Two lists of records have the same document just if they desire the same state: the routes of a
record end with the only one of them that has no path, so that a list of routes falls apart into
those of its records in one way.

## What is here

* `Agrees`, that two records desire the same, and `SameState`, that two lists of records do.
* `IsBlock`, a list that can be taken off the front of another one in one way; the routes of a
  record are such a list (`isBlock_recordRoutes`).
* `recordRoutes_eq_iff`: the routes of a record tell all that it desires.
* `compile_of_relabelled`: the document does not depend on what only people read.
* `document_identifies_state`: it identifies the desired state, and depends on nothing else.
-/

set_option autoImplicit false
namespace ProxyPlane

/-! ## Desired states -/

/-- Where the requests below a path are sent: the path, the address, and whether it is dialled over
TLS. -/
def PathRule.route (l : PathRule) : String × String × Bool :=
  (l.path, Address.join l.forwardHost l.forwardPort, Compile.isHttps l.forwardScheme)

/-- Two records desire the same. -/
structure Agrees (r r' : RoutingRecord) : Prop where
  domains : r.domains = r'.domains
  hstsEnabled : r.hstsEnabled = r'.hstsEnabled
  hstsSubdomains : r.hstsEnabled = true → r.hstsSubdomains = r'.hstsSubdomains
  blockExploits : r.blockExploits = r'.blockExploits
  websocketSupport : r.websocketSupport = r'.websocketSupport
  address : Address.join r.forwardHost r.forwardPort = Address.join r'.forwardHost r'.forwardPort
  isHttps : Compile.isHttps r.forwardScheme = Compile.isHttps r'.forwardScheme
  locations : r.locations.map PathRule.route = r'.locations.map PathRule.route

/-- The enabled records of two lists desire the same, one by one and in order. -/
def SameState (rs rs' : List RoutingRecord) : Prop :=
  List.Forall₂ Agrees (Compile.enabledRecords rs) (Compile.enabledRecords rs')

/-- Two texts have the same names between their commas, whatever blanks surround them. -/
def SameNames (names names' : String) : Prop :=
  (pieces ',' names.toList).map (trimWhile isBlank) =
    (pieces ',' names'.toList).map (trimWhile isBlank)

instance (names names' : String) : Decidable (SameNames names names') :=
  inferInstanceAs (Decidable (_ = _))

/-- The second record is the first one but for what only people read: its id, its name, whether
plain requests are sent to HTTPS, and the blanks around its domains. -/
def IsRelabelled (r r' : RoutingRecord) : Prop :=
  ∃ id name names sslForced, SameNames r.domainNames names ∧
    r' = { r with id := id, name := name, domainNames := names, sslForced := sslForced }

theorem IsRelabelled.agrees {r r' : RoutingRecord} (h : IsRelabelled r r') : Agrees r r' := by
  obtain ⟨id, name, names, sslForced, hnames, rfl⟩ := h
  have hdomains := congrArg
    (List.filterMap fun d => if d.isEmpty then none else some (String.ofList d)) hnames
  exact ⟨hdomains, rfl, fun _ => rfl, rfl, rfl, rfl, rfl, rfl⟩

/-! ## Blocks of a list -/

section Blocks

variable {α β : Type} {p : β → Bool} {xs ys rest rest' : List β}

/-- Only the last element fails the test. -/
def IsBlock (p : β → Bool) (xs : List β) : Prop :=
  ∃ body last, xs = body ++ [last] ∧ (∀ b ∈ body, p b = true) ∧ p last = false

/-- **A block is taken off the front of a list in one way.** -/
theorem IsBlock.append_inj (hxs : IsBlock p xs) (hys : IsBlock p ys)
    (h : xs ++ rest = ys ++ rest') : xs = ys ∧ rest = rest' := by
  obtain ⟨body, last, rfl, hbody, hlast⟩ := hxs
  obtain ⟨body', last', rfl, hbody', hlast'⟩ := hys
  simp only [List.append_assoc, List.singleton_append] at h
  have hsame : body = body' := by
    have htake := congrArg (List.takeWhile p) h
    rw [List.takeWhile_append_of_pos hbody, List.takeWhile_append_of_pos hbody',
      List.takeWhile_cons_of_neg (by simp [hlast]),
      List.takeWhile_cons_of_neg (by simp [hlast'])] at htake
    simpa using htake
  subst hsame
  obtain ⟨rfl, rfl⟩ := List.cons.inj (List.append_cancel_left h)
  exact ⟨rfl, rfl⟩

theorem IsBlock.ne_nil (h : IsBlock p xs) : xs ≠ [] := by
  obtain ⟨body, last, rfl, -, -⟩ := h
  simp

/-- **A list of blocks falls apart in one way.** -/
theorem flatMap_eq_iff {f : α → List β} (hf : ∀ a, IsBlock p (f a)) {as bs : List α} :
    as.flatMap f = bs.flatMap f ↔ List.Forall₂ (fun a b => f a = f b) as bs := by
  induction as generalizing bs with
  | nil =>
    cases bs with
    | nil => simp
    | cons b bs => simp [(hf b).ne_nil]
  | cons a as ih =>
    cases bs with
    | nil => simp [(hf a).ne_nil]
    | cons b bs =>
      rw [List.flatMap_cons, List.flatMap_cons, List.forall₂_cons, ← ih]
      constructor
      · exact fun h => (hf a).append_inj (hf b) h
      · rintro ⟨hab, hrest⟩
        rw [hab, hrest]

end Blocks

/-! ## Routes -/

namespace Handler

theorem proxyTo_inj {dial dial' : String} {upgrade upgrade' tls tls' : Bool} :
    proxyTo dial upgrade tls = proxyTo dial' upgrade' tls' ↔
      dial = dial' ∧ upgrade = upgrade' ∧ tls = tls' := by
  cases upgrade <;> cases upgrade' <;> cases tls <;> cases tls' <;> simp [proxyTo]

end Handler

namespace Compile

theorem hstsValue_inj {b b' : Bool} : hstsValue b = hstsValue b' ↔ b = b' := by
  cases b <;> cases b' <;> decide

/-- The path patterns of a rule start with its path. -/
theorem pathPatterns_inj {path path' : String} :
    pathPatterns path = pathPatterns path' ↔ path = path' :=
  ⟨fun h => (List.cons.inj h).1, congrArg pathPatterns⟩

theorem target_eq_iff {scheme scheme' host host' : String} {port port' : Nat}
    {upgrade upgrade' : Bool} :
    target scheme host port upgrade = target scheme' host' port' upgrade' ↔
      Address.join host port = Address.join host' port' ∧ upgrade = upgrade' ∧
        isHttps scheme = isHttps scheme' :=
  Handler.proxyTo_inj

/-- The handlers of a record tell its flags and its target. -/
theorem recordHandlers_eq_iff {r r' : RoutingRecord} :
    recordHandlers r = recordHandlers r' ↔
      r.hstsEnabled = r'.hstsEnabled ∧
        (r.hstsEnabled = true → r.hstsSubdomains = r'.hstsSubdomains) ∧
        r.blockExploits = r'.blockExploits ∧
        target r.forwardScheme r.forwardHost r.forwardPort r.websocketSupport =
          target r'.forwardScheme r'.forwardHost r'.forwardPort r'.websocketSupport := by
  -- the handlers differ in kind, so that those that are present tell which flags are set
  cases hh : r.hstsEnabled <;> cases hh' : r'.hstsEnabled <;>
    cases hb : r.blockExploits <;> cases hb' : r'.blockExploits <;>
    simp [recordHandlers, hh, hh', hb, hb', target, Handler.proxyTo, Handler.responseHeader,
      Dict.insert_inj, hstsValue_inj]

theorem catchAllRoute_eq_iff {domains domains' : List String} {r r' : RoutingRecord} :
    catchAllRoute domains r = catchAllRoute domains' r' ↔
      domains = domains' ∧ recordHandlers r = recordHandlers r' := by
  simp [catchAllRoute]

theorem pathRoute_eq_iff {domains domains' : List String} {upgrade upgrade' : Bool}
    {l l' : PathRule} :
    pathRoute domains upgrade l = pathRoute domains' upgrade' l' ↔
      domains = domains' ∧ upgrade = upgrade' ∧ l.route = l'.route := by
  simp only [pathRoute, Route.mk.injEq, List.cons.injEq, MatcherSet.mk.injEq, pathPatterns_inj,
    target_eq_iff, PathRule.route, Prod.mk.injEq]
  tauto

theorem map_pathRoute_eq_iff {domains : List String} {upgrade : Bool} {ls ls' : List PathRule} :
    ls.map (pathRoute domains upgrade) = ls'.map (pathRoute domains upgrade) ↔
      ls.map PathRule.route = ls'.map PathRule.route := by
  induction ls generalizing ls' with
  | nil => cases ls' <;> simp
  | cons l ls ih =>
    cases ls' with
    | nil => simp
    | cons l' ls' => simp [pathRoute_eq_iff, ih]

/-- Whether a route is for some paths only. -/
def hasPaths (x : Route) : Bool := x.matchers.any fun m => !m.path.isEmpty

/-- **The routes of a record end with the only one that is for all paths.** -/
theorem isBlock_recordRoutes (r : RoutingRecord) : IsBlock hasPaths (recordRoutes r) := by
  refine ⟨_, _, rfl, fun x hx => ?_, rfl⟩
  obtain ⟨l, -, rfl⟩ := List.mem_map.1 hx
  rfl

/-- **The routes of a record tell all that it desires.** -/
theorem recordRoutes_eq_iff {r r' : RoutingRecord} :
    recordRoutes r = recordRoutes r' ↔ Agrees r r' := by
  constructor
  · intro h
    obtain ⟨hrules, hrest⟩ := List.append_inj' h rfl
    obtain ⟨hdomains, hhandlers⟩ := catchAllRoute_eq_iff.1 (List.singleton_inj.1 hrest)
    obtain ⟨hhsts, hsubdomains, hblock, htarget⟩ := recordHandlers_eq_iff.1 hhandlers
    obtain ⟨haddress, hupgrade, hscheme⟩ := target_eq_iff.1 htarget
    rw [← hdomains, ← hupgrade, map_pathRoute_eq_iff] at hrules
    exact ⟨hdomains, hhsts, hsubdomains, hblock, hupgrade, haddress, hscheme, hrules⟩
  · intro h
    have htarget := target_eq_iff.2 ⟨h.address, h.websocketSupport, h.isHttps⟩
    have hhandlers := recordHandlers_eq_iff.2
      ⟨h.hstsEnabled, h.hstsSubdomains, h.blockExploits, htarget⟩
    rw [recordRoutes, recordRoutes, ← h.domains, ← h.websocketSupport,
      map_pathRoute_eq_iff.2 h.locations, catchAllRoute_eq_iff.2 ⟨rfl, hhandlers⟩]

/-- The document around a list of routes tells them. -/
theorem document_inj {root email : String} {xs ys : List Route} :
    document root email xs = document root email ys ↔ xs = ys := by
  refine ⟨fun h => ?_, congrArg (document root email)⟩
  simpa [document, Document.servers, server, Dict.insert_inj] using h

end Compile

/-! ## Documents -/

section Documents

variable {rs rs' : List RoutingRecord} {root email : String} {d d' : Document}

/-- **A document is that of another list just if both desire the same state.** -/
theorem document_eq_iff (h : compile rs root email = .ok d) (h' : compile rs' root email = .ok d') :
    d = d' ↔ SameState rs rs' := by
  obtain ⟨-, rfl⟩ := compile_eq_ok.1 h
  obtain ⟨-, rfl⟩ := compile_eq_ok.1 h'
  rw [Compile.document_inj, flatMap_eq_iff Compile.isBlock_recordRoutes]
  simp only [Compile.recordRoutes_eq_iff]
  rfl

/-- A compiled document is told by its text. -/
theorem compact_eq_iff (h : compile rs root email = .ok d)
    (h' : compile rs' root email = .ok d') : d.compact = d'.compact ↔ d = d' := by
  refine ⟨fun hcompact => ?_, congrArg Document.compact⟩
  have hd := decode_compact_compile h
  rw [hcompact, decode_compact_compile h'] at hd
  exact (Except.ok.inj hd).symm

/-- **Relabelled records have the document of the original ones**, also if other disabled records
stand between them. -/
theorem compile_of_relabelled (h : compile rs root email = .ok d)
    (hrelabelled : List.Forall₂ IsRelabelled (Compile.enabledRecords rs)
      (Compile.enabledRecords rs')) : compile rs' root email = .ok d := by
  have hstate := hrelabelled.imp fun _ _ => IsRelabelled.agrees
  obtain ⟨hdomains, rfl⟩ := compile_eq_ok.1 h
  refine compile_eq_ok.2 ⟨?_, congrArg _ ?_⟩
  · have hboth := (List.forall₂_and_left _ _).2 ⟨hdomains, hstate⟩
    exact Json.forall_mem_of_forall₂ hboth fun _ _ h => h.2.domains ▸ h.1
  · rw [flatMap_eq_iff Compile.isBlock_recordRoutes]
    exact hstate.imp fun _ _ => Compile.recordRoutes_eq_iff.2

/-- **A compiled document identifies the desired state, and depends on nothing else.**  Of two lists
that compile, the documents are equal, and so are their texts, just if the enabled records desire
the same one by one.  In particular neither the document nor its digest changes with the disabled
records, or with what only people read in the enabled ones. -/
theorem document_identifies_state (h : compile rs root email = .ok d)
    (h' : compile rs' root email = .ok d') :
    (d = d' ↔ SameState rs rs') ∧
      (d.compact = d'.compact ↔ SameState rs rs') ∧
      (SameState rs rs' → d.digest = d'.digest) ∧
      ∀ relabelled, List.Forall₂ IsRelabelled (Compile.enabledRecords rs)
        (Compile.enabledRecords relabelled) → compile relabelled root email = .ok d := by
  have hdocument := document_eq_iff h h'
  exact ⟨hdocument, (compact_eq_iff h h').trans hdocument,
    fun hstate => congrArg Document.digest (hdocument.2 hstate),
    fun _ hrelabelled => compile_of_relabelled h hrelabelled⟩

end Documents

/-- A record with two domains and a path rule. -/
def storedRecord : RoutingRecord :=
  { RoutingRecord.create "r1" "a.example, b.example" "10.0.0.1" 80 with
    hstsSubdomains := true
    locations := [⟨"/api/", "HTTPS", "::1", 8443⟩] }

/-- The same record as other people would write it down. -/
def rewordedRecord : RoutingRecord :=
  { storedRecord with
    id := "r7"
    name := "shop"
    domainNames := " a.example,b.example "
    sslForced := true }

/-- Without HTTP Strict Transport Security, it does not matter whether it is for subdomains too. -/
theorem document_identifies_state_reworded :
    ∃ d d', compile [storedRecord] "/data" "" = .ok d ∧
      compile [{ rewordedRecord with hstsSubdomains := false }] "/data" "" = .ok d' ∧
      d = d' ∧ d.compact = d'.compact ∧ d.digest = d'.digest ∧
      compile [{ storedRecord with enabled := false }, rewordedRecord] "/data" "" = .ok d := by
  obtain ⟨hdocument, hcompact, hdigest, hrelabelled⟩ :=
    document_identifies_state
      (show compile [storedRecord] "/data" "" = .ok _ from rfl)
      (show compile [{ rewordedRecord with hstsSubdomains := false }] "/data" "" = .ok _ from rfl)
  have hstate : SameState [storedRecord] [{ rewordedRecord with hstsSubdomains := false }] :=
    .cons ⟨by decide, rfl, by decide, rfl, rfl, rfl, rfl, rfl⟩ .nil
  have hnames : SameNames storedRecord.domainNames rewordedRecord.domainNames := by decide
  exact ⟨_, _, rfl, rfl, hdocument.2 hstate, hcompact.2 hstate, hdigest hstate,
    hrelabelled _ (.cons ⟨_, _, _, _, hnames, rfl⟩ .nil)⟩

end ProxyPlane
