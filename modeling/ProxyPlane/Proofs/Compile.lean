import ProxyPlane.Compile
import ProxyPlane.Proofs.Document.Depth
import ProxyPlane.Proofs.Document.Sections

/-!
# Compiled documents

## What is here

* `compile_eq_ok`: which records compile, and to what; `compile_eq_error`: why others do not.
* `Compile.restores_document` and `Compile.fits_document`: the document around compiled routes is
  restored from what is written for it, and nests no deeper than texts are scanned.
* `decode_pretty_compile` and `decode_compact_compile`: a compiled document is the one that its
  texts are read as.
-/

set_option autoImplicit false
namespace ProxyPlane

open Json

/-! ## Which records compile -/

namespace Compile

/-- The records that leave a trace in the document. -/
def enabledRecords (records : List RoutingRecord) : List RoutingRecord :=
  records.filter (·.enabled)

theorem routes_eq_ok {records : List RoutingRecord} {rs : List Route} :
    routes records = .ok rs ↔
      (∀ r ∈ enabledRecords records, r.domains ≠ []) ∧
        rs = (enabledRecords records).flatMap recordRoutes := by
  induction records generalizing rs with
  | nil =>
    rw [routes, Except.ok.injEq]
    exact ⟨fun h => ⟨fun _ hr => absurd hr List.not_mem_nil, h.symm⟩, fun h => h.2.symm⟩
  | cons r rest ih =>
    rw [routes, enabledRecords, List.filter_cons]
    cases hr : r.enabled with
    | false => simpa [enabledRecords] using ih
    | true =>
      simp only [Bool.not_true, if_neg Bool.false_ne_true, if_true]
      -- an enabled record without a domain stops the walk
      by_cases hd : r.domains = []
      · simp [hd]
      · rw [if_neg (by simpa using hd), map_eq_ok, List.forall_mem_cons, List.flatMap_cons]
        constructor
        · rintro ⟨more, hmore, rfl⟩
          obtain ⟨hrest, rfl⟩ := ih.1 hmore
          exact ⟨⟨hd, hrest⟩, rfl⟩
        · rintro ⟨⟨_, hrest⟩, rfl⟩
          exact ⟨_, ih.2 ⟨hrest, rfl⟩, rfl⟩

/-- The first enabled record without a domain is the one that is named. -/
theorem routes_eq_error {records : List RoutingRecord} {e : CompileError} :
    routes records = .error e ↔
      ∃ r, (enabledRecords records).find? (fun r => r.domains.isEmpty) = some r ∧
        e = .emptyDomain r.id := by
  induction records with
  | nil => simp [routes, enabledRecords]
  | cons r rest ih =>
    rw [routes, enabledRecords, List.filter_cons]
    cases hr : r.enabled with
    | false => simpa [enabledRecords] using ih
    | true =>
      simp only [Bool.not_true, if_neg Bool.false_ne_true, if_true]
      by_cases hd : r.domains.isEmpty = true
      · rw [if_pos hd, List.find?_cons, hd]
        simp [eq_comm]
      · rw [if_neg hd, map_eq_error, List.find?_cons, Bool.eq_false_iff.2 hd]
        exact ih

end Compile

/-- **Records compile just if every enabled one has a domain.** -/
theorem compile_eq_ok {records : List RoutingRecord} {root email : String} {d : Document} :
    compile records root email = .ok d ↔
      (∀ r ∈ Compile.enabledRecords records, r.domains ≠ []) ∧
        d = Compile.document root email
          ((Compile.enabledRecords records).flatMap Compile.recordRoutes) := by
  rw [compile, map_eq_ok]
  constructor
  · rintro ⟨rs, hrs, rfl⟩
    obtain ⟨hdomains, rfl⟩ := Compile.routes_eq_ok.1 hrs
    exact ⟨hdomains, rfl⟩
  · rintro ⟨hdomains, rfl⟩
    exact ⟨_, Compile.routes_eq_ok.2 ⟨hdomains, rfl⟩, rfl⟩

theorem compile_eq_error {records : List RoutingRecord} {root email : String} {e : CompileError} :
    compile records root email = .error e ↔
      ∃ r, (Compile.enabledRecords records).find? (fun r => r.domains.isEmpty) = some r ∧
        e = .emptyDomain r.id := by
  rw [compile, map_eq_error, Compile.routes_eq_error]

/-! ## The texts of compiled documents -/

namespace Compile

/-- The handlers that the compiler writes. -/
theorem mem_recordHandlers {r : RoutingRecord} {h : Handler} (hh : h ∈ recordHandlers r) :
    (∃ name value, h = .responseHeader name value) ∨ h = .blockExploits ∨
      ∃ dial upgrade tls, h = .proxyTo dial upgrade tls := by
  simp only [recordHandlers, List.mem_append, List.mem_ite_nil_right, List.mem_singleton] at hh
  rcases hh with (⟨-, rfl⟩ | ⟨-, rfl⟩) | rfl
  · exact .inl ⟨_, _, rfl⟩
  · exact .inr (.inl rfl)
  · exact .inr (.inr ⟨_, _, _, rfl⟩)

/-- The shape of a compiled route: one matcher set, and handlers that the compiler writes. -/
theorem mem_recordRoutes {r : RoutingRecord} {x : Route} (hx : x ∈ recordRoutes r) :
    (∃ m, x.matchers = [m] ∧ m.extra = Dict.empty) ∧ x.extra = Dict.empty ∧
      ∀ h ∈ x.handle, (∃ name value, h = .responseHeader name value) ∨ h = .blockExploits ∨
        ∃ dial upgrade tls, h = .proxyTo dial upgrade tls := by
  rcases List.mem_append.1 hx with hx | hx
  · obtain ⟨rule, -, rfl⟩ := List.mem_map.1 hx
    refine ⟨⟨_, rfl, rfl⟩, rfl, fun h hh => ?_⟩
    obtain rfl := List.mem_singleton.1 hh
    exact .inr (.inr ⟨_, _, _, rfl⟩)
  · obtain rfl := List.mem_singleton.1 hx
    exact ⟨⟨_, rfl, rfl⟩, rfl, fun h hh => mem_recordHandlers hh⟩

theorem restores_route {r : RoutingRecord} {x : Route} (hx : x ∈ recordRoutes r) :
    Route.codec.Restores x := by
  obtain ⟨⟨m, hm, hmextra⟩, hextra, hhandle⟩ := mem_recordRoutes hx
  refine Route.restores x ?_ ?_ (hextra ▸ areUnknown_empty _)
  · intro m' hm'
    rw [hm, List.mem_singleton] at hm'
    subst hm'
    exact MatcherSet.restores m' (hmextra ▸ areUnknown_empty _)
  · intro h hh
    rcases hhandle h hh with ⟨name, value, rfl⟩ | rfl | ⟨dial, upgrade, tls, rfl⟩
    · exact Handler.restores_responseHeader name value
    · exact Handler.restores_blockExploits
    · exact Handler.restores_proxyTo dial upgrade tls

theorem fits_route {r : RoutingRecord} {x : Route} (hx : x ∈ recordRoutes r) :
    Fits 7 (Route.codec.encode x) := by
  obtain ⟨⟨m, hm, hmextra⟩, hextra, hhandle⟩ := mem_recordRoutes hx
  refine Route.fits ?_ ?_ (hextra ▸ Dict.fits_empty _)
  · intro m' hm'
    rw [hm, List.mem_singleton] at hm'
    subst hm'
    exact MatcherSet.fits (hmextra ▸ Dict.fits_empty _)
  · intro h hh
    rcases hhandle h hh with ⟨name, value, rfl⟩ | rfl | ⟨dial, upgrade, tls, rfl⟩
    · exact Handler.fits_responseHeader name value
    · exact Handler.fits_blockExploits
    · exact Handler.fits_proxyTo dial upgrade tls

section Parts

variable {rs : List Route}

theorem restores_server (h : ∀ x ∈ rs, Route.codec.Restores x) :
    Server.codec.Restores (server rs) := by
  refine Server.restores _ h ?_ ?_ nofun (areUnknown_empty _)
  · intro a ha
    cases ha
    exact AutoHttps.restores _ (areUnknown_empty _)
  · intro l hl
    cases hl
    exact ServerLogs.restores _ (areUnknown_empty _)

theorem fits_server {d : Nat} (h : ∀ x ∈ rs, Fits (d + 1) (Route.codec.encode x)) :
    Fits (d + 3) (Server.codec.encode (server rs)) := by
  refine Server.fits h ?_ ?_ nofun (Dict.fits_empty _)
  · intro a ha
    cases ha
    exact AutoHttps.fits (Dict.fits_empty _)
  · intro l hl
    cases hl
    exact ServerLogs.fits (Dict.fits_empty _)

theorem restores_accessLogging (root : String) : Logging.codec.Restores (accessLogging root) := by
  refine Logging.restores _ (fun e he => ?_) (areUnknown_empty _)
  obtain rfl := List.mem_singleton.1 he
  refine LogConfig.restores _ (fun w hw => ?_) (fun e he => ?_) (areUnknown_empty _)
  · cases hw
    refine LogWriter.restores _ ?_ ?_ ?_ (areUnknown_empty _) <;>
      exact fun n hn => by cases hn; decide
  · cases he
    exact LogEncoder.restores _ (areUnknown_empty _)

theorem fits_accessLogging (root : String) :
    Fits 4 (Logging.codec.encode (accessLogging root)) := by
  refine Logging.fits (fun e he => ?_) (Dict.fits_empty _)
  obtain rfl := List.mem_singleton.1 he
  refine LogConfig.fits (fun w hw => ?_) (fun e he => ?_) (Dict.fits_empty _)
  · cases hw
    refine LogWriter.fits ?_ ?_ ?_ (Dict.fits_empty _) <;>
      exact fun n hn => by cases hn; decide
  · cases he
    exact LogEncoder.fits (Dict.fits_empty _)

/-- The members of an issuer are texts. -/
theorem mem_issuer {module email : String} {e : String × Json}
    (he : e ∈ (issuer module email).entries) : ∃ s, e.2 = .string s := by
  rcases mem_insertEntry he with rfl | he
  · exact ⟨_, rfl⟩
  · obtain rfl := List.mem_singleton.1 he
    exact ⟨_, rfl⟩

theorem restores_tlsApp {email : String} {a : TlsApp} (ha : tlsApp email = some a) :
    TlsApp.codec.Restores a := by
  rw [tlsApp] at ha
  split at ha
  · exact absurd ha nofun
  · cases ha
    refine TlsApp.restores _ (fun x hx => ?_) (areUnknown_empty _)
    cases hx
    refine Automation.restores _ (fun p hp => ?_) (areUnknown_empty _)
    obtain rfl := List.mem_singleton.1 hp
    refine AutomationPolicy.restores _ (fun i hi e he => ?_) (areUnknown_empty _)
    simp only [List.mem_cons, List.not_mem_nil, or_false] at hi
    obtain ⟨s, hs⟩ : ∃ s, e.2 = Json.string s := by
      rcases hi with rfl | rfl <;> exact mem_issuer he
    rw [hs]
    rfl

theorem fits_tlsApp {email : String} {a : TlsApp} (ha : tlsApp email = some a) :
    Fits 6 (TlsApp.codec.encode a) := by
  rw [tlsApp] at ha
  split at ha
  · exact absurd ha nofun
  · cases ha
    refine TlsApp.fits (fun x hx => ?_) (Dict.fits_empty _)
    cases hx
    refine Automation.fits (fun p hp => ?_) (Dict.fits_empty _)
    obtain rfl := List.mem_singleton.1 hp
    refine AutomationPolicy.fits (d := 0) (fun i hi e he => ?_) (Dict.fits_empty _)
    simp only [List.mem_cons, List.not_mem_nil, or_false] at hi
    obtain ⟨s, hs⟩ : ∃ s, e.2 = Json.string s := by
      rcases hi with rfl | rfl <;> exact mem_issuer he
    rw [hs]
    exact .string s

/-- The document around compiled routes is restored from what is written for it. -/
theorem restores_document (root email : String) (h : ∀ x ∈ rs, Route.codec.Restores x) :
    Document.codec.Restores (document root email rs) := by
  refine Document.restores _ (fun l hl => ?_) ?_ (fun s hs => ?_) (areUnknown_empty _)
  · cases hl
    exact restores_accessLogging _
  · refine Apps.restores _ (fun a ha => ?_) (fun a ha => restores_tlsApp ha) (areUnknown_empty _)
    cases ha
    refine HttpApp.restores _ (fun e he => ?_) (areUnknown_empty _)
    obtain rfl := List.mem_singleton.1 he
    exact restores_server h
  · cases hs
    exact Storage.restores _ (areUnknown_empty _)

/-- The document around compiled routes nests no deeper than texts are scanned. -/
theorem fits_document (root email : String) (h : ∀ x ∈ rs, Fits 7 (Route.codec.encode x)) :
    Fits maxDepth (Document.codec.encode (document root email rs)) := by
  refine Fits.mono (d := 13) (Document.fits (fun l hl => ?_) ?_ (fun s hs => ?_)
    (Dict.fits_empty _)) (by decide)
  · cases hl
    exact (fits_accessLogging _).mono (by decide)
  · refine Apps.fits (fun a ha => ?_) (fun a ha => (fits_tlsApp ha).mono (by decide))
      (Dict.fits_empty _)
    cases ha
    refine HttpApp.fits (fun e he => ?_) (Dict.fits_empty _)
    obtain rfl := List.mem_singleton.1 he
    exact fits_server h
  · cases hs
    exact Storage.fits (Dict.fits_empty _)

end Parts

end Compile

section Texts

variable {records : List RoutingRecord} {root email : String} {d : Document}

theorem restores_compile (h : compile records root email = .ok d) : Document.codec.Restores d := by
  obtain ⟨-, rfl⟩ := compile_eq_ok.1 h
  refine Compile.restores_document root email fun x hx => ?_
  obtain ⟨r, -, hr⟩ := List.mem_flatMap.1 hx
  exact Compile.restores_route hr

theorem fits_compile (h : compile records root email = .ok d) :
    Fits maxDepth (Document.codec.encode d) := by
  obtain ⟨-, rfl⟩ := compile_eq_ok.1 h
  refine Compile.fits_document root email fun x hx => ?_
  obtain ⟨r, -, hr⟩ := List.mem_flatMap.1 hx
  exact Compile.fits_route hr

/-- **A compiled document is read back from its indented text.** -/
theorem decode_pretty_compile (h : compile records root email = .ok d) :
    Document.decode d.pretty = .ok d :=
  decode_pretty (restores_compile h) (fits_compile h)

/-- **A compiled document is read back from its compact text.** -/
theorem decode_compact_compile (h : compile records root email = .ok d) :
    Document.decode d.compact = .ok d :=
  decode_compact (restores_compile h) (fits_compile h)

end Texts

end ProxyPlane
