import ProxyPlane.Import.Extraction
import ProxyPlane.Proofs.Document.Rewriting

/-!
# Routes in routes

The handlers of a route are flattened to a bounded depth, so that flattening is a recursion on a
number.  The bound is never reached: routes that are read from an object are nested less deep than
the object.

## What is here

* `height_lt_of_mem_array`, `height_lt_of_mem_object` and `height_normalize_le`: heights of values.
* `depth_lt_of_reads_route`: what is read is less deep than the value that it is read from.
* `depth_lt_of_mem_subroutes`: nested handlers are less deep than the one that holds them.
* `Handler.flatten_eq`: flattening replaces each handler that holds routes by the handlers of these,
  flattened.
-/

set_option autoImplicit false
namespace ProxyPlane

open Json

/-! ## Heights of values -/

namespace Json

theorem heightItems_le {n : Nat} {items : List Json} :
    heightItems items ≤ n ↔ ∀ v ∈ items, v.height ≤ n := by
  induction items with
  | nil => simp [heightItems]
  | cons v rest ih => rw [heightItems, Nat.max_le, ih, List.forall_mem_cons]

theorem heightMembers_le {n : Nat} {members : List (String × Json)} :
    heightMembers members ≤ n ↔ ∀ e ∈ members, e.2.height ≤ n := by
  induction members with
  | nil => simp [heightMembers]
  | cons e rest ih => rw [heightMembers, Nat.max_le, ih, List.forall_mem_cons]

theorem height_lt_of_mem_array {v : Json} {items : List Json} (h : v ∈ items) :
    v.height < (Json.array items).height :=
  Nat.lt_succ_of_le (heightItems_le.1 (Nat.le_refl _) v h)

theorem height_lt_of_mem_object {e : String × Json} {members : List (String × Json)}
    (h : e ∈ members) : e.2.height < (Json.object members).height :=
  Nat.lt_succ_of_le (heightMembers_le.1 (Nat.le_refl _) e h)

mutual

/-- Normal forms are no higher. -/
theorem height_normalize_le : (v : Json) → v.normalize.height ≤ v.height
  | .null => Nat.le_refl _
  | .bool _ => Nat.le_refl _
  | .number _ => Nat.le_refl _
  | .string _ => Nat.le_refl _
  | .array items => by
    rw [normalize, normalizeItems_eq_map]
    refine Nat.succ_le_succ (heightItems_le.2 fun w hw => ?_)
    obtain ⟨v, hv, rfl⟩ := List.mem_map.1 hw
    exact height_normalize_le_of_mem items v hv
  | .object members => by
    rw [normalize, normalizeMembers_eq_map]
    refine Nat.succ_le_succ (heightMembers_le.2 fun f hf => ?_)
    obtain ⟨e, he, rfl⟩ := List.mem_map.1 (Dict.mem_ofList hf)
    exact height_normalize_le_of_mem_members members e he

theorem height_normalize_le_of_mem : (items : List Json) →
    ∀ v ∈ items, v.normalize.height ≤ heightItems items
  | [] => fun _ hv => absurd hv List.not_mem_nil
  | v :: rest => by
    intro w hw
    rcases List.mem_cons.1 hw with heq | hw
    · rw [heq]
      exact Nat.le_trans (height_normalize_le v) (Nat.le_max_left _ _)
    · exact Nat.le_trans (height_normalize_le_of_mem rest w hw) (Nat.le_max_right _ _)

theorem height_normalize_le_of_mem_members : (members : List (String × Json)) →
    ∀ e ∈ members, e.2.normalize.height ≤ heightMembers members
  | [] => fun _ he => absurd he List.not_mem_nil
  | (k, v) :: rest => by
    intro e he
    rcases List.mem_cons.1 he with heq | he
    · rw [heq]
      exact Nat.le_trans (height_normalize_le v) (Nat.le_max_left _ _)
    · exact Nat.le_trans (height_normalize_le_of_mem_members rest e he) (Nat.le_max_right _ _)

end

end Json

/-! ## Handlers of nested routes -/

namespace Handler

/-- What is read from an object is no deeper than the object. -/
theorem depth_ofFields_le (m : Dict Json) : (ofFields m).depth ≤ (ofDict m).height := by
  rw [ofFields]
  split
  · split <;> simp [depth]
  · split <;> simp [depth]
  · split <;> simp [depth]
  · exact Nat.le_refl _

theorem depth_le_of_reads {v : Json} {h : Handler} (hv : Handler.codec.Reads v h) :
    h.depth ≤ v.height := by
  obtain ⟨m, hm, rfl⟩ := map_eq_ok.1 hv
  refine Nat.le_trans (depth_ofFields_le m) ?_
  rw [← (normalize_of_reads_fields hm).1]
  exact height_normalize_le v

/-- One more member of an object that is read as a route. -/
theorem depth_lt_of_readEntry {e : String × Json} {r r' : Route} {n : Nat}
    (h : readEntry Route.members (keepUnknown (·.extra) fun x s => { s with extra := x }) r e =
      .ok r') (he : e.2.height ≤ n) (hr : ∀ x ∈ r.handle, x.depth < n) :
    ∀ x ∈ r'.handle, x.depth < n := by
  rw [readEntry] at h
  cases hfind : findMember Route.members e.1 with
  | none =>
    rw [hfind] at h
    obtain ⟨w, -, rfl⟩ := keepUnknown_eq_ok.1 h
    exact hr
  | some m =>
    rw [hfind] at h
    have hm := (mem_of_findMember hfind).1
    simp only [Route.members, List.mem_cons, List.not_mem_nil, or_false] at hm
    rcases hm with rfl | rfl | rfl
    · obtain ⟨a, -, rfl⟩ := map_eq_ok.1 h
      exact hr
    · obtain ⟨hs, hread, rfl⟩ := map_eq_ok.1 h
      obtain ⟨vs, hvs, hrel⟩ := exists_of_reads_list hread
      intro x hx
      obtain ⟨v, hv, hxv⟩ := exists_of_mem_forall₂ hrel hx
      have hheight := height_lt_of_mem_array hv
      rw [← hvs] at hheight
      exact Nat.lt_of_le_of_lt (depth_le_of_reads hxv) (Nat.lt_of_lt_of_le hheight he)
    · obtain ⟨a, -, rfl⟩ := map_eq_ok.1 h
      exact hr

/-- All members of an object that is read as a route. -/
theorem depth_lt_of_foldlM {es : List (String × Json)} {r r' : Route} {n : Nat}
    (h : es.foldlM
      (readEntry Route.members (keepUnknown (·.extra) fun x s => { s with extra := x })) r = .ok r')
    (hes : ∀ e ∈ es, e.2.height ≤ n) (hr : ∀ x ∈ r.handle, x.depth < n) :
    ∀ x ∈ r'.handle, x.depth < n := by
  induction es generalizing r with
  | nil =>
    cases h
    exact hr
  | cons e es ih =>
    obtain ⟨t, ht, hrest⟩ := bind_eq_ok.1 h
    obtain ⟨he, hes⟩ := List.forall_mem_cons.1 hes
    exact ih hrest hes (depth_lt_of_readEntry ht he hr)

/-- **The handlers of a route are less deep than the value that the route is read from.** -/
theorem depth_lt_of_reads_route {v : Json} {r : Route} (hv : Route.codec.Reads v r) :
    ∀ h ∈ r.handle, h.depth < v.height := by
  obtain ⟨es, rfl, hes⟩ := exists_of_reads_document hv
  exact depth_lt_of_foldlM hes (fun e he => Nat.le_of_lt (height_lt_of_mem_object he))
    (List.forall_mem_nil _)

/-- Nested handlers are less deep than the one that holds them. -/
theorem depth_lt_of_mem_subroutes {fields : Dict Json} {r : Route} {h : Handler}
    (hr : r ∈ subroutes fields) (hh : h ∈ r.handle) : h.depth < (passthrough fields).depth := by
  rw [subroutes] at hr
  cases hroutes : fields.get? "routes" with
  | none =>
    rw [hroutes] at hr
    exact absurd hr List.not_mem_nil
  | some v =>
    rw [hroutes] at hr
    simp only at hr
    split at hr
    · rename_i routes hread
      obtain ⟨vs, rfl, hrel⟩ := exists_of_reads_list (ofValue_eq_ok.1 hread)
      obtain ⟨w, hw, hrw⟩ := exists_of_mem_forall₂ hrel hr
      calc
        h.depth < w.height := depth_lt_of_reads_route hrw h hh
        _ < (Json.array vs).height := height_lt_of_mem_array hw
        _ < (ofDict fields).height := height_lt_of_mem_object (Dict.mem_of_get? hroutes)
    · exact absurd hr List.not_mem_nil

/-! ## Flattening -/

/-- What stands for a handler depends on what is made of less deep handlers only. -/
theorem expand_congr {inner inner' : List Handler → List Handler} {h : Handler}
    (hinner : ∀ hs : List Handler, (∀ x ∈ hs, x.depth < h.depth) → inner hs = inner' hs) :
    expand inner h = expand inner' h := by
  cases h with
  | headers rules => rfl
  | blockExploits => rfl
  | reverseProxy proxy => rfl
  | passthrough fields =>
    rw [expand, expand]
    split
    · refine List.flatMap_congr fun r hr => hinner r.handle fun x hx => ?_
      exact depth_lt_of_mem_subroutes hr hx
    · rfl

theorem maxDepth_le {n : Nat} {hs : List Handler} :
    maxDepth hs ≤ n ↔ ∀ h ∈ hs, h.depth ≤ n := by
  induction hs with
  | nil => simp [maxDepth]
  | cons h rest ih =>
    rw [List.forall_mem_cons, ← ih]
    exact Nat.max_le

/-- A bound that is not reached may be raised. -/
theorem flattenUpTo_succ {n : Nat} {hs : List Handler} (h : ∀ x ∈ hs, x.depth ≤ n) :
    flattenUpTo (n + 1) hs = flattenUpTo n hs := by
  induction n generalizing hs with
  | zero =>
    refine List.flatMap_congr fun x hx => expand_congr fun inner hinner => ?_
    have hnil : inner = [] := List.eq_nil_iff_forall_not_mem.2 fun y hy =>
      Nat.not_lt_zero _ (Nat.lt_of_lt_of_le (hinner y hy) (h x hx))
    rw [hnil]
    rfl
  | succ n ih =>
    refine List.flatMap_congr fun x hx => expand_congr fun inner hinner => ?_
    exact ih fun y hy => Nat.le_of_lt_succ (Nat.lt_of_lt_of_le (hinner y hy) (h x hx))

theorem flattenUpTo_eq_flatten {n : Nat} {hs : List Handler} (h : maxDepth hs ≤ n) :
    flattenUpTo n hs = flatten hs := by
  induction h with
  | refl => rfl
  | step hle ih => rw [flattenUpTo_succ (maxDepth_le.1 hle), ih]

/-- **Flattening goes all the way down**: each handler that holds routes is replaced by the handlers
of these, flattened. -/
theorem flatten_eq (hs : List Handler) : flatten hs = hs.flatMap (expand flatten) := by
  rw [flatten, ← flattenUpTo_succ (maxDepth_le.1 (Nat.le_refl _))]
  -- handlers inside one of the list are less deep, so that the steps that are left suffice for them
  refine List.flatMap_congr fun h hh => expand_congr fun inner hinner => ?_
  have hdepth := maxDepth_le.1 (Nat.le_refl _) h hh
  exact flattenUpTo_eq_flatten (maxDepth_le.2 fun x hx =>
    Nat.le_of_lt (Nat.lt_of_lt_of_le (hinner x hx) hdepth))

end Handler
end ProxyPlane
