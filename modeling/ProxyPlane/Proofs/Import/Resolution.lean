import Mathlib.Data.List.Pairwise
import ProxyPlane.Proofs.Domains
import ProxyPlane.Proofs.Import.Findings

/-!
# Importing with resolutions

A candidate that is renamed gets the same suffix as every other, whatever names there are.  So skips
and renames for all managed candidates leave no duplicates just if no new name is taken, and a
renaming that was imported once is taken from then on.

## What is here

* `Candidate.IsKept` and `Candidate.IsRenamed`, what resolutions do with a candidate, and
  `Candidate.importedName?`, the name it gets.
* `map_domainNames_toRecords`: the imported records have those names.
* `Settle`, resolutions for all managed candidates, and `RenameFreely`, no new name is taken.
* `distinct_toRecords_iff`: when resolutions leave no duplicates.
* `not_renameFreely_again`: importing twice with the same renaming does not work.
-/

set_option autoImplicit false
namespace ProxyPlane

/-! ## What becomes of a candidate -/

namespace Candidate

variable {resolutions : Dict Resolution} {c : Candidate} {name : String}

/-- The candidate is imported under its own name. -/
def IsKept (resolutions : Dict Resolution) (c : Candidate) : Prop :=
  c.isActionable = true ∧ (resolutions.get? c.domainNames = none ∨
    resolutions.get? c.domainNames = some .importIt)

/-- The candidate is imported under a new name. -/
def IsRenamed (resolutions : Dict Resolution) (c : Candidate) : Prop :=
  c.isActionable = true ∧ resolutions.get? c.domainNames = some .rename

/-- The new name of a candidate that is renamed. -/
def newName (c : Candidate) : String := c.domainNames ++ Resolution.renameSuffix

/-- The name that a candidate is imported under, if it is imported. -/
def importedName? (resolutions : Dict Resolution) (c : Candidate) : Option String :=
  if c.isActionable then
    ((resolutions.get? c.domainNames).getD .importIt).domain? c.domainNames
  else none

/-- **A candidate is imported under its own name or under its new one.** -/
theorem importedName?_eq_some :
    c.importedName? resolutions = some name ↔
      (c.IsKept resolutions ∧ name = c.domainNames) ∨
        (c.IsRenamed resolutions ∧ name = c.newName) := by
  rw [importedName?, IsKept, IsRenamed, newName]
  cases c.isActionable with
  | false => simp
  | true =>
    cases hresolution : resolutions.get? c.domainNames with
    | none => simp [Resolution.domain?, eq_comm]
    | some resolution => cases resolution <;> simp [Resolution.domain?, eq_comm]

theorem IsKept.importedName? (h : c.IsKept resolutions) :
    c.importedName? resolutions = some c.domainNames :=
  importedName?_eq_some.2 (.inl ⟨h, rfl⟩)

theorem IsRenamed.importedName? (h : c.IsRenamed resolutions) :
    c.importedName? resolutions = some c.newName :=
  importedName?_eq_some.2 (.inr ⟨h, rfl⟩)

theorem IsRenamed.not_isKept (h : c.IsRenamed resolutions) : ¬c.IsKept resolutions := by
  rintro ⟨-, hnone | hown⟩
  · exact absurd (h.2.symm.trans hnone) nofun
  · exact absurd (h.2.symm.trans hown) nofun

/-- Different names stay different when they are renamed. -/
theorem newName_inj {c' : Candidate} : c.newName = c'.newName ↔ c.domainNames = c'.domainNames :=
  String.append_left_inj _

end Candidate

open Candidate

/-- **The imported records have the names of the candidates that are imported**, in order. -/
theorem map_domainNames_toRecords (ids : Nat → String) (resolutions : Dict Resolution)
    (hosts : List Candidate) :
    (toRecords ids resolutions hosts).map (·.domainNames) =
      hosts.filterMap (importedName? resolutions) := by
  induction hosts generalizing ids with
  | nil => rfl
  | cons c rest ih =>
    rw [toRecords, List.filterMap_cons, importedName?]
    cases (if c.isActionable then
      ((resolutions.get? c.domainNames).getD .importIt).domain? c.domainNames else none) with
    | none => exact ih ids
    | some name => exact congrArg _ (ih _)

/-! ## Duplicates -/

section Duplicates

variable {resolutions : Dict Resolution} {hosts : List Candidate} {existing : List RoutingRecord}

/-- The candidates whose names are domains of the records are to be skipped or renamed. -/
def Settle (resolutions : Dict Resolution) (hosts : List Candidate)
    (existing : List RoutingRecord) : Prop :=
  ∀ c ∈ hosts, c.domainNames ∈ existing.flatMap (·.domains) →
    resolutions.get? c.domainNames = some .skip ∨ resolutions.get? c.domainNames = some .rename

/-- No new name is a domain of the records, or the name of a candidate that keeps its own. -/
def RenameFreely (resolutions : Dict Resolution) (hosts : List Candidate)
    (existing : List RoutingRecord) : Prop :=
  ∀ c ∈ hosts, c.IsRenamed resolutions →
    c.newName ∉ existing.flatMap (·.domains) ∧
      ∀ c' ∈ hosts, c'.IsKept resolutions → c'.domainNames ≠ c.newName

/-- A candidate that keeps its name has none that is managed. -/
theorem Settle.not_mem_of_isKept (h : Settle resolutions hosts existing) {c : Candidate}
    (hc : c ∈ hosts) (hkept : c.IsKept resolutions) :
    c.domainNames ∉ existing.flatMap (·.domains) := by
  intro hmanaged
  rcases h c hc hmanaged with hskip | hrename
  · rcases hkept.2 with hnone | hown
    · exact absurd (hskip.symm.trans hnone) nofun
    · exact absurd (hskip.symm.trans hown) nofun
  · exact IsRenamed.not_isKept ⟨hkept.1, hrename⟩ hkept

/-- Candidates with different names are imported under different names, unless a new one is the own
name of another. -/
theorem nodup_importedNames_iff (hnames : (hosts.map (·.domainNames)).Nodup) :
    (hosts.filterMap (importedName? resolutions)).Nodup ↔
      ∀ c ∈ hosts, c.IsRenamed resolutions → ∀ c' ∈ hosts, c'.IsKept resolutions →
        c'.domainNames ≠ c.newName := by
  rw [List.Nodup, List.pairwise_filterMap]
  constructor
  · intro hpairs c hc hrenamed c' hc' hkept
    have hne : c' ≠ c := by
      rintro rfl
      exact hrenamed.not_isKept hkept
    have hsymm : Std.Symm fun a b : Candidate => ∀ x, a.importedName? resolutions = some x →
        ∀ y, b.importedName? resolutions = some y → x ≠ y :=
      ⟨fun a b hab x hx y hy => (hab y hy x hx).symm⟩
    exact hpairs.forall hc' hc hne _ hkept.importedName? _ hrenamed.importedName?
  · intro hfree
    refine (List.pairwise_map.1 hnames).imp_of_mem fun {c c'} hc hc' hne x hx y hy => ?_
    rcases importedName?_eq_some.1 hx with ⟨hkept, rfl⟩ | ⟨hrenamed, rfl⟩ <;>
      rcases importedName?_eq_some.1 hy with ⟨hkept', rfl⟩ | ⟨hrenamed', rfl⟩
    · exact hne
    · exact hfree c' hc' hrenamed' c hc hkept
    · exact (hfree c hc hrenamed c' hc' hkept').symm
    · exact mt newName_inj.1 hne

/-- **When resolutions leave no duplicates.**  If every managed candidate of a text is skipped or
renamed, the imported records have different names, none of them managed, just if no new name is
managed or the name of a candidate that keeps its own. -/
theorem distinct_toRecords_iff {bs : Bytes} {r : ImportResult} (hextract : extract bs = .ok r)
    (hsettle : Settle resolutions r.hosts existing) (ids : Nat → String) :
    (((toRecords ids resolutions r.hosts).map (·.domainNames)).Nodup ∧
        ∀ x ∈ toRecords ids resolutions r.hosts,
          x.domainNames ∉ existing.flatMap (·.domains)) ↔
      RenameFreely resolutions r.hosts existing := by
  have hnodup : (r.hosts.filterMap (importedName? resolutions)).Nodup ↔ _ :=
    nodup_importedNames_iff (nodup_domainNames_extract hextract)
  have hmanaged : (∀ x ∈ toRecords ids resolutions r.hosts,
      x.domainNames ∉ existing.flatMap (·.domains)) ↔
      ∀ name ∈ r.hosts.filterMap (importedName? resolutions),
        name ∉ existing.flatMap (·.domains) := by
    rw [← map_domainNames_toRecords ids, List.forall_mem_map]
  rw [map_domainNames_toRecords, hnodup, hmanaged]
  constructor
  · rintro ⟨hfree, hunmanaged⟩ c hc hrenamed
    refine ⟨hunmanaged _ (List.mem_filterMap.2 ⟨c, hc, hrenamed.importedName?⟩), ?_⟩
    exact hfree c hc hrenamed
  · intro hfree
    refine ⟨fun c hc hrenamed => (hfree c hc hrenamed).2, fun name hname => ?_⟩
    obtain ⟨c, hc, hcname⟩ := List.mem_filterMap.1 hname
    rcases importedName?_eq_some.1 hcname with ⟨hkept, rfl⟩ | ⟨hrenamed, rfl⟩
    · exact hsettle.not_mem_of_isKept hc hkept
    · exact (hfree c hc hrenamed).1

/-! ## Importing twice -/

/-- A domain with the suffix of renamed candidates is a domain. -/
theorem IsDomain.newName {c : Candidate} (h : IsDomain c.domainNames) : IsDomain c.newName where
  ne_nil := by simp [Candidate.newName, h.ne_nil]
  noComma := by
    rw [Candidate.newName, String.toList_append, List.mem_append, not_or]
    exact ⟨h.noComma, by decide⟩
  trimmed := by
    refine trimWhile_eq_self fun hne => ⟨?_, ?_⟩
    · have hhead := head_trimWhile isBlank c.domainNames.toList (h.trimmed.symm ▸ h.ne_nil)
      simp only [h.trimmed] at hhead
      simpa only [Candidate.newName, String.toList_append,
        List.head_append_of_ne_nil h.ne_nil] using hhead
    · simp only [Candidate.newName, String.toList_append]
      rw [List.getLast_append_of_ne_nil _ (by decide)]
      decide

/-- **A renaming is not free once it was imported.**  Whatever else the records hold, renaming the
same candidate again names a domain that is managed by now. -/
theorem not_renameFreely_again (ids : Nat → String) {c : Candidate} (hc : c ∈ hosts)
    (hrenamed : c.IsRenamed resolutions) (hdomain : IsDomain c.domainNames) :
    ¬RenameFreely resolutions hosts (existing ++ toRecords ids resolutions hosts) := by
  intro hfree
  have hname : c.newName ∈ (toRecords ids resolutions hosts).map (·.domainNames) := by
    rw [map_domainNames_toRecords]
    exact List.mem_filterMap.2 ⟨c, hc, hrenamed.importedName?⟩
  obtain ⟨x, hx, hxname⟩ := List.mem_map.1 hname
  have hxdomains : x.domains = [x.domainNames] :=
    RoutingRecord.domains_eq_singleton (hxname ▸ hdomain.newName)
  refine (hfree c hc hrenamed).1 (List.mem_flatMap.2 ⟨x, List.mem_append_right _ hx, ?_⟩)
  rw [hxdomains, hxname]
  exact List.mem_singleton_self _

end Duplicates

/-! ## A new name that is taken -/

/-- A document that sends the requests for each host to the address beside it. -/
def proxiesDocument (targets : List (String × String)) : Json :=
  let route := fun t : String × String => Json.object
    [("match", .array [.object [("host", .array [.string t.1])]]),
     ("handle", .array [.object
       [("handler", .string "reverse_proxy"),
        ("upstreams", .array [.object [("dial", .string t.2)]])]])]
  .object [("apps", .object [("http", .object [("servers", .object [("edge", .object
    [("routes", .array (targets.map route))])])])])]

/-- The text of a document with two hosts. -/
def twoHostsText : Bytes :=
  (proxiesDocument [("a.example", "10.0.0.1:80"), ("b.example", "10.0.0.2:80")]).compact

/-- The text of a document with a host that another host gets as its new name. -/
def suffixedText : Bytes :=
  (proxiesDocument [("a.example", "10.0.0.1:80"), ("a.example-imported", "10.0.0.2:80")]).compact

/-- Rename `a.example`, and import whatever else there is. -/
def renameFirst : Dict Resolution := Dict.ofList [("a.example", .rename)]

/-- The domain that is managed already. -/
def managedRecords : List RoutingRecord := [RoutingRecord.create "r1" "a.example" "10.0.0.9" 80]

instance (resolutions : Dict Resolution) (hosts : List Candidate) (existing : List RoutingRecord) :
    Decidable (Settle resolutions hosts existing) :=
  inferInstanceAs (Decidable (∀ c ∈ hosts, _ → _ ∨ _))

instance (resolutions : Dict Resolution) (hosts : List Candidate) (existing : List RoutingRecord) :
    Decidable (RenameFreely resolutions hosts existing) :=
  inferInstanceAs (Decidable (∀ c ∈ hosts, (_ ∧ _) → _ ∧ ∀ c' ∈ hosts, (_ ∧ (_ ∨ _)) → _))

theorem distinct_toRecords_iff_twoHosts :
    ∃ r, extract twoHostsText = .ok r ∧ Settle renameFirst r.hosts managedRecords ∧
      ((toRecords Numeral.write renameFirst r.hosts).map (·.domainNames)).Nodup ∧
      ∀ x ∈ toRecords Numeral.write renameFirst r.hosts,
        x.domainNames ∉ managedRecords.flatMap (·.domains) := by
  have hcheck : (extract twoHostsText).map (fun r =>
      decide (Settle renameFirst r.hosts managedRecords ∧
        RenameFreely renameFirst r.hosts managedRecords)) = .ok true := by decide +kernel
  obtain ⟨r, hextract, hdecide⟩ := map_eq_ok.1 hcheck
  obtain ⟨hsettle, hfree⟩ := of_decide_eq_true hdecide
  exact ⟨r, hextract, hsettle, (distinct_toRecords_iff hextract hsettle Numeral.write).2 hfree⟩

theorem not_nodup_toRecords_suffixed :
    ∃ r, extract suffixedText = .ok r ∧ Settle renameFirst r.hosts managedRecords ∧
      ¬((toRecords Numeral.write renameFirst r.hosts).map (·.domainNames)).Nodup := by
  have hcheck : (extract suffixedText).map (fun r =>
      decide (Settle renameFirst r.hosts managedRecords ∧
        ¬((toRecords Numeral.write renameFirst r.hosts).map (·.domainNames)).Nodup)) =
      .ok true := by decide +kernel
  obtain ⟨r, hextract, hdecide⟩ := map_eq_ok.1 hcheck
  exact ⟨r, hextract, of_decide_eq_true hdecide⟩

end ProxyPlane
