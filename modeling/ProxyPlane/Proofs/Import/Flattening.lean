import ProxyPlane.Proofs.Import.Nesting

/-!
# Flattening

A handler of kind `subroute` stands for the handlers of its routes, and these may be subroutes
again, as deep as objects are nested.  What a list of handlers stands for is said by rules, one for
each thing that a handler can be.  The rules give every list exactly one answer, and it is the one
that flattening computes.

## What is here

* `Handler.HoldsRoutes`, that the routes of a subroute can be read.
* `Handler.Flattens`, the rules: depth first and from left to right.
* `wellFounded_isNestedIn`: nested routes cannot be followed forever.
* `flattens_iff`: the rules and the computation agree.
* `flatten_canonical`: flattening ends, leaves no subroute, and is settled by the rules.
-/

set_option autoImplicit false
namespace ProxyPlane
namespace Handler

/-! ## Subroutes -/

/-- The handler stands for nested routes. -/
def IsSubroute (h : Handler) : Prop := h.kind? = some "subroute"

/-- The handler is a subroute, and its member `routes` is read as these routes. -/
def HoldsRoutes (h : Handler) (routes : List Route) : Prop :=
  ∃ fields v, h = passthrough fields ∧ kindOf fields = some "subroute" ∧
    fields.get? "routes" = some v ∧ (Json.Codec.list Route.codec).ofValue v = .ok routes

/-- The inner handlers are those of a route that an outer one holds.  To flatten a list, the lists
nested in it are flattened. -/
def IsNestedIn (inner outer : List Handler) : Prop :=
  ∃ h ∈ outer, ∃ routes, h.HoldsRoutes routes ∧ ∃ r ∈ routes, inner = r.handle

/-- What a list of handlers stands for. -/
inductive Flattens : List Handler → List Handler → Prop
  | nil : Flattens [] []
  /-- A handler that is no subroute stands for itself. -/
  | keep {h : Handler} {rest out : List Handler} (hkind : ¬h.IsSubroute)
      (hrest : Flattens rest out) : Flattens (h :: rest) (h :: out)
  /-- A subroute stands for what the handlers of its routes stand for. -/
  | descend {h : Handler} {routes : List Route} {inner rest out : List Handler}
      (hroutes : h.HoldsRoutes routes) (hinner : Flattens (routes.flatMap (·.handle)) inner)
      (hrest : Flattens rest out) : Flattens (h :: rest) (inner ++ out)
  /-- A subroute whose routes are missing or cannot be read stands for nothing. -/
  | drop {h : Handler} {rest out : List Handler} (hkind : h.IsSubroute)
      (hnone : ∀ routes, ¬h.HoldsRoutes routes) (hrest : Flattens rest out) :
      Flattens (h :: rest) out

theorem exists_of_isSubroute {h : Handler} (hkind : h.IsSubroute) :
    ∃ fields, h = passthrough fields ∧ kindOf fields = some "subroute" := by
  cases h with
  | passthrough fields => exact ⟨fields, rfl, hkind⟩
  | headers rules => simp [IsSubroute, kind?] at hkind
  | blockExploits => simp [IsSubroute, kind?] at hkind
  | reverseProxy proxy => simp [IsSubroute, kind?] at hkind

/-- There are three rules for a handler, and one of them fits. -/
theorem isSubroute_cases (h : Handler) :
    ¬h.IsSubroute ∨ (∃ routes, h.HoldsRoutes routes) ∨
      h.IsSubroute ∧ ∀ routes, ¬h.HoldsRoutes routes := by
  by_cases hkind : h.IsSubroute
  · by_cases hroutes : ∃ routes, h.HoldsRoutes routes
    · exact .inr (.inl hroutes)
    · exact .inr (.inr ⟨hkind, not_exists.1 hroutes⟩)
  · exact .inl hkind

/-! ## What stands for one handler -/

section Expand

variable {h : Handler} (inner : List Handler → List Handler)

theorem expand_of_not_isSubroute (hkind : ¬h.IsSubroute) : expand inner h = [h] := by
  cases h with
  | passthrough fields => exact if_neg hkind
  | headers rules => rfl
  | blockExploits => rfl
  | reverseProxy proxy => rfl

theorem expand_of_holdsRoutes {routes : List Route} (hroutes : h.HoldsRoutes routes) :
    expand inner h = routes.flatMap fun r => inner r.handle := by
  obtain ⟨fields, v, rfl, hkind, hget, hread⟩ := hroutes
  rw [expand, if_pos hkind, subroutes, hget]
  simp only [hread]

theorem expand_of_not_holdsRoutes (hkind : h.IsSubroute)
    (hnone : ∀ routes, ¬h.HoldsRoutes routes) : expand inner h = [] := by
  obtain ⟨fields, rfl, hfields⟩ := exists_of_isSubroute hkind
  rw [expand, if_pos hfields, subroutes]
  cases hget : fields.get? "routes" with
  | none => rfl
  | some v =>
    simp only
    split
    · rename_i routes hread
      exact absurd ⟨fields, v, rfl, hfields, hget, hread⟩ (hnone routes)
    · rfl

end Expand

/-! ## Following nested routes -/

theorem depth_lt_of_holdsRoutes {h x : Handler} {routes : List Route} {r : Route}
    (hroutes : h.HoldsRoutes routes) (hr : r ∈ routes) (hx : x ∈ r.handle) :
    x.depth < h.depth := by
  obtain ⟨fields, v, rfl, -, hget, hread⟩ := hroutes
  refine depth_lt_of_mem_subroutes (r := r) ?_ hx
  rw [subroutes, hget]
  simpa only [hread] using hr

/-- Handlers of nested routes are less deep than those that hold the routes. -/
theorem maxDepth_lt_of_isNestedIn {inner outer : List Handler} (h : IsNestedIn inner outer) :
    maxDepth inner < maxDepth outer := by
  obtain ⟨h, hh, routes, hroutes, r, hr, rfl⟩ := h
  have hpos : 0 < h.depth := by
    obtain ⟨fields, v, rfl, -⟩ := hroutes
    exact Nat.succ_pos _
  have hlt : maxDepth r.handle ≤ h.depth - 1 := maxDepth_le.2 fun x hx =>
    Nat.le_sub_one_of_lt (depth_lt_of_holdsRoutes hroutes hr hx)
  have hle : h.depth ≤ maxDepth outer := maxDepth_le.1 (Nat.le_refl _) h hh
  omega

/-- **Nested routes cannot be followed forever**: each step takes apart the object of a handler. -/
theorem wellFounded_isNestedIn : WellFounded IsNestedIn :=
  Subrelation.wf maxDepth_lt_of_isNestedIn (measure maxDepth).wf

/-! ## Lists of handlers -/

theorem flatten_append (a b : List Handler) : flatten (a ++ b) = flatten a ++ flatten b := by
  rw [flatten_eq, List.flatMap_append, ← flatten_eq, ← flatten_eq]

theorem flatten_cons (h : Handler) (rest : List Handler) :
    flatten (h :: rest) = expand flatten h ++ flatten rest := by
  rw [flatten_eq, List.flatMap_cons, ← flatten_eq]

theorem flatten_handle (routes : List Route) :
    flatten (routes.flatMap (·.handle)) = routes.flatMap fun r => flatten r.handle := by
  induction routes with
  | nil => rfl
  | cons r rest ih => rw [List.flatMap_cons, flatten_append, ih, List.flatMap_cons]

/-- Handlers among which there is no subroute are left as they are. -/
theorem flatten_of_not_isSubroute {hs : List Handler} (h : ∀ x ∈ hs, ¬x.IsSubroute) :
    flatten hs = hs := by
  rw [flatten_eq, List.flatMap_congr fun x hx => expand_of_not_isSubroute flatten (h x hx),
    List.flatMap_singleton']

/-! ## The rules -/

theorem Flattens.append {a b x y : List Handler} (ha : Flattens a x) (hb : Flattens b y) :
    Flattens (a ++ b) (x ++ y) := by
  induction ha with
  | nil => exact hb
  | keep hkind _ ih => exact .keep hkind ih
  | descend hroutes hinner _ _ ih =>
    rw [List.append_assoc]
    exact .descend hroutes hinner ih
  | drop hkind hnone _ ih => exact .drop hkind hnone ih

theorem Flattens.not_isSubroute {hs out : List Handler} (h : Flattens hs out) :
    ∀ x ∈ out, ¬x.IsSubroute := by
  induction h with
  | nil => exact List.forall_mem_nil _
  | keep hkind _ ih => exact List.forall_mem_cons.2 ⟨hkind, ih⟩
  | descend _ _ _ hinner ih => exact List.forall_mem_append.2 ⟨hinner, ih⟩
  | drop _ _ _ ih => exact ih

theorem Flattens.eq_flatten {hs out : List Handler} (h : Flattens hs out) : out = flatten hs := by
  induction h with
  | nil => rfl
  | keep hkind _ ih =>
    rw [flatten_cons, expand_of_not_isSubroute _ hkind, ← ih]
    rfl
  | descend hroutes _ _ hinner ih =>
    rw [flatten_cons, expand_of_holdsRoutes _ hroutes, ← flatten_handle, ← hinner, ← ih]
  | drop hkind hnone _ ih =>
    rw [flatten_cons, expand_of_not_holdsRoutes _ hkind hnone, ← ih]
    rfl

theorem flattens_flatMap {routes : List Route} {f : Route → List Handler}
    (h : ∀ r ∈ routes, Flattens r.handle (f r)) :
    Flattens (routes.flatMap (·.handle)) (routes.flatMap f) := by
  induction routes with
  | nil => exact .nil
  | cons r rest ih =>
    obtain ⟨hr, hrest⟩ := List.forall_mem_cons.1 h
    exact hr.append (ih hrest)

/-- The rules reach a list if they reach the handlers of the routes nested in it. -/
theorem flattens_of_isNestedIn {hs : List Handler}
    (h : ∀ inner, IsNestedIn inner hs → Flattens inner (flatten inner)) :
    Flattens hs (flatten hs) := by
  -- Only the list is taken apart here; going down is left to `h`.
  induction hs with
  | nil => exact .nil
  | cons x rest ih =>
    have hrest : Flattens rest (flatten rest) := by
      refine ih fun inner hinner => h inner ?_
      obtain ⟨y, hy, hroutes⟩ := hinner
      exact ⟨y, List.mem_cons_of_mem x hy, hroutes⟩
    rw [flatten_cons]
    rcases x.isSubroute_cases with hkind | ⟨routes, hroutes⟩ | ⟨hkind, hnone⟩
    · rw [expand_of_not_isSubroute _ hkind]
      exact .keep hkind hrest
    · rw [expand_of_holdsRoutes _ hroutes]
      refine .descend hroutes (flattens_flatMap fun r hr => h r.handle ?_) hrest
      exact ⟨x, List.mem_cons_self, routes, hroutes, r, hr, rfl⟩
    · rw [expand_of_not_holdsRoutes _ hkind hnone]
      exact .drop hkind hnone hrest

/-- **The rules reach every list**, however deep its routes are nested. -/
theorem flattens_flatten (hs : List Handler) : Flattens hs (flatten hs) :=
  wellFounded_isNestedIn.induction hs fun _ h => flattens_of_isNestedIn h

theorem flattens_iff {hs out : List Handler} : Flattens hs out ↔ out = flatten hs :=
  ⟨Flattens.eq_flatten, fun h => h ▸ flattens_flatten hs⟩

/-- **Flattening ends, and its result is the only one**: nested routes cannot be followed forever,
the result is what the rules say and holds no subroute, lists are flattened piece by piece, and
flattening once more changes nothing. -/
theorem flatten_canonical :
    WellFounded IsNestedIn ∧
      ∀ hs : List Handler,
        (∀ out, Flattens hs out ↔ out = flatten hs) ∧
        (∀ h ∈ flatten hs, ¬h.IsSubroute) ∧
        (∀ more, flatten (hs ++ more) = flatten hs ++ flatten more) ∧
        flatten (flatten hs) = flatten hs := by
  refine ⟨wellFounded_isNestedIn, fun hs => ?_⟩
  have hkinds : ∀ h ∈ flatten hs, ¬h.IsSubroute := (flattens_flatten hs).not_isSubroute
  exact ⟨fun _ => flattens_iff, hkinds, flatten_append hs, flatten_of_not_isSubroute hkinds⟩

/-- The object of a handler. -/
def objectOf (kind : String) (members : List (String × Json)) : Dict Json :=
  Dict.ofList (("handler", .string kind) :: members)

/-- A subroute in a subroute, a subroute whose routes are no list, one that has none, and a handler
of another kind. -/
def nestedHandlers : List Handler :=
  let route := fun objects : List (Dict Json) =>
    Json.object [("handle", .array (objects.map Json.ofDict))]
  let proxy := objectOf "reverse_proxy"
    [("upstreams", .array [.object [("dial", .string "10.0.0.1:80")]])]
  [ofFields (objectOf "subroute" [("routes", .array
    [route [objectOf "rewrite" [], objectOf "subroute" [("routes", .array [route [proxy]])]],
     route [objectOf "file_server" []]])]),
   ofFields (objectOf "subroute" [("routes", .object [])]),
   ofFields (objectOf "subroute" []),
   ofFields (objectOf "encode" [])]

theorem flatten_canonical_nested :
    Flattens nestedHandlers
        [.passthrough (objectOf "rewrite" []), proxyTo "10.0.0.1:80" false false,
         .passthrough (objectOf "file_server" []), .passthrough (objectOf "encode" [])] ∧
      .passthrough (objectOf "rewrite" []) ∈ flatten nestedHandlers ∧
      ¬(passthrough (objectOf "rewrite" [])).IsSubroute := by
  have hflat : [.passthrough (objectOf "rewrite" []), proxyTo "10.0.0.1:80" false false,
      .passthrough (objectOf "file_server" []), .passthrough (objectOf "encode" [])] =
        flatten nestedHandlers := by
    decide +kernel
  have hmem : .passthrough (objectOf "rewrite" []) ∈ flatten nestedHandlers :=
    hflat ▸ List.mem_cons_self
  obtain ⟨hrules, hkinds, -⟩ := flatten_canonical.2 nestedHandlers
  exact ⟨(hrules _).2 hflat, hmem, hkinds _ hmem⟩

end Handler
end ProxyPlane
