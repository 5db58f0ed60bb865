import ProxyPlane.Proofs.Document.Sections

/-!
# Reading the sections of a document in any order

A document may name its members in any order, and its text in a snapshot or a reply of the proxy
does.  Every member of a section is put into a field of its own.

## What is here

* `MatcherSet.isUnordered`, `Route.isUnordered` and so on, from the leaves up to
  `Document.isUnordered`.
-/

set_option autoImplicit false
namespace ProxyPlane

open Json

/-! ## Servers and routes -/

theorem MatcherSet.isUnordered : IsUnordered MatcherSet.members (·.extra)
    fun e s => { s with extra := e } := by
  refine .of_pairwise (List.pairwise_pair.2 ?_) fun m hm => ?_
  · exact Member.independent_of_set (fun _ _ => rfl) (fun _ _ => rfl) fun _ _ _ => rfl
  · simp only [members, List.mem_cons, List.not_mem_nil, or_false] at hm
    rcases hm with rfl | rfl <;>
      exact Member.leavesExtra_of_set (fun _ _ => rfl) (fun _ _ => rfl) fun _ _ _ => rfl

theorem Route.isUnordered : IsUnordered Route.members (·.extra)
    fun e s => { s with extra := e } := by
  refine .of_pairwise ?_ fun m hm => ?_
  · simp only [members, List.pairwise_cons, List.forall_mem_cons, List.not_mem_nil, false_implies,
      implies_true, List.Pairwise.nil, and_true]
    and_intros <;>
      exact Member.independent_of_set (fun _ _ => rfl) (fun _ _ => rfl) fun _ _ _ => rfl
  · simp only [members, List.mem_cons, List.not_mem_nil, or_false] at hm
    rcases hm with rfl | rfl | rfl <;>
      exact Member.leavesExtra_of_set (fun _ _ => rfl) (fun _ _ => rfl) fun _ _ _ => rfl

theorem ServerLogs.isUnordered : IsUnordered ServerLogs.members (·.extra)
    fun e s => { s with extra := e } := by
  refine .of_pairwise (List.pairwise_singleton _ _) (List.forall_mem_singleton.2 ?_)
  exact Member.leavesExtra_of_set (fun _ _ => rfl) (fun _ _ => rfl) fun _ _ _ => rfl

theorem AutoHttps.isUnordered : IsUnordered AutoHttps.members (·.extra)
    fun e s => { s with extra := e } := by
  refine .of_pairwise ?_ fun m hm => ?_
  · simp only [members, List.pairwise_cons, List.forall_mem_cons, List.not_mem_nil, false_implies,
      implies_true, List.Pairwise.nil, and_true]
    and_intros <;>
      exact Member.independent_of_set (fun _ _ => rfl) (fun _ _ => rfl) fun _ _ _ => rfl
  · simp only [members, List.mem_cons, List.not_mem_nil, or_false] at hm
    rcases hm with rfl | rfl | rfl <;>
      exact Member.leavesExtra_of_set (fun _ _ => rfl) (fun _ _ => rfl) fun _ _ _ => rfl

theorem Server.isUnordered : IsUnordered Server.members (·.extra)
    fun e s => { s with extra := e } := by
  refine .of_pairwise ?_ fun m hm => ?_
  · simp only [members, List.pairwise_cons, List.forall_mem_cons, List.not_mem_nil, false_implies,
      implies_true, List.Pairwise.nil, and_true]
    and_intros <;>
      exact Member.independent_of_set (fun _ _ => rfl) (fun _ _ => rfl) fun _ _ _ => rfl
  · simp only [members, List.mem_cons, List.not_mem_nil, or_false] at hm
    rcases hm with rfl | rfl | rfl | rfl | rfl <;>
      exact Member.leavesExtra_of_set (fun _ _ => rfl) (fun _ _ => rfl) fun _ _ _ => rfl

theorem HttpApp.isUnordered : IsUnordered HttpApp.members (·.extra)
    fun e s => { s with extra := e } := by
  refine .of_pairwise (List.pairwise_singleton _ _) (List.forall_mem_singleton.2 ?_)
  exact Member.leavesExtra_of_set (fun _ _ => rfl) (fun _ _ => rfl) fun _ _ _ => rfl

/-! ## Certificates -/

theorem AutomationPolicy.isUnordered : IsUnordered AutomationPolicy.members (·.extra)
    fun e s => { s with extra := e } := by
  refine .of_pairwise (List.pairwise_pair.2 ?_) fun m hm => ?_
  · exact Member.independent_of_set (fun _ _ => rfl) (fun _ _ => rfl) fun _ _ _ => rfl
  · simp only [members, List.mem_cons, List.not_mem_nil, or_false] at hm
    rcases hm with rfl | rfl <;>
      exact Member.leavesExtra_of_set (fun _ _ => rfl) (fun _ _ => rfl) fun _ _ _ => rfl

theorem Automation.isUnordered : IsUnordered Automation.members (·.extra)
    fun e s => { s with extra := e } := by
  refine .of_pairwise (List.pairwise_singleton _ _) (List.forall_mem_singleton.2 ?_)
  exact Member.leavesExtra_of_set (fun _ _ => rfl) (fun _ _ => rfl) fun _ _ _ => rfl

theorem TlsApp.isUnordered : IsUnordered TlsApp.members (·.extra)
    fun e s => { s with extra := e } := by
  refine .of_pairwise (List.pairwise_singleton _ _) (List.forall_mem_singleton.2 ?_)
  exact Member.leavesExtra_of_set (fun _ _ => rfl) (fun _ _ => rfl) fun _ _ _ => rfl

/-! ## Logging and storage -/

theorem LogWriter.isUnordered : IsUnordered LogWriter.members (·.extra)
    fun e s => { s with extra := e } := by
  refine .of_pairwise ?_ fun m hm => ?_
  · simp only [members, List.pairwise_cons, List.forall_mem_cons, List.not_mem_nil, false_implies,
      implies_true, List.Pairwise.nil, and_true]
    and_intros <;>
      exact Member.independent_of_set (fun _ _ => rfl) (fun _ _ => rfl) fun _ _ _ => rfl
  · simp only [members, List.mem_cons, List.not_mem_nil, or_false] at hm
    rcases hm with rfl | rfl | rfl | rfl | rfl | rfl <;>
      exact Member.leavesExtra_of_set (fun _ _ => rfl) (fun _ _ => rfl) fun _ _ _ => rfl

theorem LogEncoder.isUnordered : IsUnordered LogEncoder.members (·.extra)
    fun e s => { s with extra := e } := by
  refine .of_pairwise (List.pairwise_singleton _ _) (List.forall_mem_singleton.2 ?_)
  exact Member.leavesExtra_of_set (fun _ _ => rfl) (fun _ _ => rfl) fun _ _ _ => rfl

theorem LogConfig.isUnordered : IsUnordered LogConfig.members (·.extra)
    fun e s => { s with extra := e } := by
  refine .of_pairwise ?_ fun m hm => ?_
  · simp only [members, List.pairwise_cons, List.forall_mem_cons, List.not_mem_nil, false_implies,
      implies_true, List.Pairwise.nil, and_true]
    and_intros <;>
      exact Member.independent_of_set (fun _ _ => rfl) (fun _ _ => rfl) fun _ _ _ => rfl
  · simp only [members, List.mem_cons, List.not_mem_nil, or_false] at hm
    rcases hm with rfl | rfl | rfl | rfl <;>
      exact Member.leavesExtra_of_set (fun _ _ => rfl) (fun _ _ => rfl) fun _ _ _ => rfl

theorem Logging.isUnordered : IsUnordered Logging.members (·.extra)
    fun e s => { s with extra := e } := by
  refine .of_pairwise (List.pairwise_singleton _ _) (List.forall_mem_singleton.2 ?_)
  exact Member.leavesExtra_of_set (fun _ _ => rfl) (fun _ _ => rfl) fun _ _ _ => rfl

theorem Storage.isUnordered : IsUnordered Storage.members (·.extra)
    fun e s => { s with extra := e } := by
  refine .of_pairwise (List.pairwise_pair.2 ?_) fun m hm => ?_
  · exact Member.independent_of_set (fun _ _ => rfl) (fun _ _ => rfl) fun _ _ _ => rfl
  · simp only [members, List.mem_cons, List.not_mem_nil, or_false] at hm
    rcases hm with rfl | rfl <;>
      exact Member.leavesExtra_of_set (fun _ _ => rfl) (fun _ _ => rfl) fun _ _ _ => rfl

/-! ## Documents -/

theorem Apps.isUnordered : IsUnordered Apps.members (·.extra)
    fun e s => { s with extra := e } := by
  refine .of_pairwise (List.pairwise_pair.2 ?_) fun m hm => ?_
  · exact Member.independent_of_set (fun _ _ => rfl) (fun _ _ => rfl) fun _ _ _ => rfl
  · simp only [members, List.mem_cons, List.not_mem_nil, or_false] at hm
    rcases hm with rfl | rfl <;>
      exact Member.leavesExtra_of_set (fun _ _ => rfl) (fun _ _ => rfl) fun _ _ _ => rfl

theorem Document.isUnordered : IsUnordered Document.members (·.extra)
    fun e s => { s with extra := e } := by
  refine .of_pairwise ?_ fun m hm => ?_
  · simp only [members, List.pairwise_cons, List.forall_mem_cons, List.not_mem_nil, false_implies,
      implies_true, List.Pairwise.nil, and_true]
    and_intros <;>
      exact Member.independent_of_set (fun _ _ => rfl) (fun _ _ => rfl) fun _ _ _ => rfl
  · simp only [members, List.mem_cons, List.not_mem_nil, or_false] at hm
    rcases hm with rfl | rfl | rfl <;>
      exact Member.leavesExtra_of_set (fun _ _ => rfl) (fun _ _ => rfl) fun _ _ _ => rfl

end ProxyPlane
