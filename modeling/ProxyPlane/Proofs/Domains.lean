import ProxyPlane.Proofs.Path
import ProxyPlane.Proofs.Text.Trim
import ProxyPlane.Record.Basic

/-!
# Domains of records

## What is here

* `IsDomain`, a text that is one domain when it stands alone.
* `isDomain_of_mem_domains`: the domains of records are such texts.
* `domains_eq_singleton`: a record with such a text has that domain and no other.
-/

set_option autoImplicit false
namespace ProxyPlane

/-- The text is not empty, and neither commas nor blanks at its ends divide it from what it means
in a list of domains. -/
structure IsDomain (d : String) : Prop where
  ne_nil : d.toList ≠ []
  noComma : ',' ∉ d.toList
  trimmed : trimWhile isBlank d.toList = d.toList

namespace RoutingRecord

theorem isDomain_of_mem_domains {r : RoutingRecord} {d : String} (h : d ∈ r.domains) :
    IsDomain d := by
  obtain ⟨cs, hcs, hd⟩ := List.mem_filterMap.1 h
  obtain ⟨piece, hpiece, rfl⟩ := List.mem_map.1 hcs
  split at hd
  · exact absurd hd nofun
  · rename_i hne
    obtain rfl := Option.some.inj hd
    refine ⟨?_, ?_, ?_⟩ <;> rw [String.toList_ofList]
    · simpa using hne
    · exact fun hmem => not_mem_of_mem_pieces hpiece (mem_of_mem_trimWhile hmem)
    · exact trimWhile_trimWhile isBlank piece

/-- **A record with one domain in its text has that domain and no other.** -/
theorem domains_eq_singleton {r : RoutingRecord} (h : IsDomain r.domainNames) :
    r.domains = [r.domainNames] := by
  rw [domains, pieces_of_not_mem h.noComma, List.map_singleton, h.trimmed]
  simp [h.ne_nil]

end RoutingRecord
end ProxyPlane
