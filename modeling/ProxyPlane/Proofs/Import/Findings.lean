import Mathlib.Data.List.Basic
import Mathlib.Data.List.Induction
import ProxyPlane.Import.Extraction
import ProxyPlane.Proofs.Outcome

/-!
# Which place speaks for a host

Extraction goes through the places that name hosts one by one and changes its mind on the way.  What
it has found in the end is said here of the list of places alone.

## What is here

* `slotFor?`, the place that speaks for a host, and `ownedHosts`, the hosts that places own.
* `repeats`, the elements of a list that stood there before.
* `add_findingsOf`: one more place, whatever was found before.
* `foldl_add`: what is found in a list of places.
* `map_host_routesOccurrences` and `ownedHosts_routesOccurrences`: the hosts that routes name, and
  those that they own.
* `nodup_domainNames_extract`: no two candidates carry the same name.
-/

set_option autoImplicit false
namespace ProxyPlane

/-! ## What is to be found -/

/-- The place that speaks for a host: the first that owns it, or else the first that names it. -/
def slotFor? (os : List Occurrence) (host : String) : Option Slot :=
  match os.find? fun o => o.host == host && o.pathless with
  | some o => some ⟨o, true⟩
  | none => (os.find? fun o => o.host == host).map fun o => ⟨o, false⟩

/-- The hosts that places own, in the order of the places. -/
def ownedHosts (os : List Occurrence) : List String := (os.filter (·.pathless)).map (·.host)

/-- The elements of a list that stood before in it, or among others. -/
def repeats (seen : List String) : List String → List String
  | [] => []
  | x :: xs => if x ∈ seen then x :: repeats seen xs else repeats (x :: seen) xs

/-- What is found in some places: a slot for each host, in the order in which the hosts are first
named, and the hosts of all places that come after the owner. -/
def findingsOf (os : List Occurrence) : Findings :=
  ⟨(os.map (·.host)).eraseDups.filterMap (slotFor? os), repeats [] (ownedHosts os)⟩

theorem Findings.ext {f g : Findings} (hslots : f.slots = g.slots)
    (hduplicates : f.duplicates = g.duplicates) : f = g := by
  obtain ⟨fs, fd⟩ := f
  obtain ⟨gs, gd⟩ := g
  rw [show fs = gs from hslots, show fd = gd from hduplicates]

/-! ## Repeated elements -/

theorem repeats_concat (seen xs : List String) (x : String) :
    repeats seen (xs ++ [x]) = repeats seen xs ++ if x ∈ seen ∨ x ∈ xs then [x] else [] := by
  induction xs generalizing seen with
  | nil =>
    by_cases hx : x ∈ seen <;> simp [repeats, hx]
  | cons y ys ih =>
    rw [List.cons_append, repeats, repeats]
    by_cases hy : y ∈ seen
    · have hiff : (x ∈ seen ∨ x ∈ ys) ↔ (x ∈ seen ∨ x ∈ y :: ys) := by
        have hsame : x = y → x ∈ seen ∨ x ∈ ys := fun h => .inl (h ▸ hy)
        rw [List.mem_cons, or_left_comm, or_iff_right_of_imp hsame]
      simp only [if_pos hy, ih, List.cons_append, hiff]
    · have hiff : (x ∈ y :: seen ∨ x ∈ ys) ↔ (x ∈ seen ∨ x ∈ y :: ys) := by
        rw [List.mem_cons, List.mem_cons, or_assoc, or_left_comm]
      simp only [if_neg hy, ih, hiff]

/-- A list of different elements repeats nothing. -/
theorem repeats_of_nodup {seen xs : List String} (h : xs.Nodup) (hseen : ∀ x ∈ xs, x ∉ seen) :
    repeats seen xs = [] := by
  induction xs generalizing seen with
  | nil => rfl
  | cons x xs ih =>
    rw [List.nodup_cons] at h
    rw [repeats, if_neg (hseen x List.mem_cons_self)]
    refine ih h.2 fun y hy hmem => ?_
    rcases List.mem_cons.1 hmem with rfl | hmem
    · exact h.1 hy
    · exact hseen y (List.mem_cons_of_mem _ hy) hmem

theorem eraseDups_append_of_subset {xs ys : List String} (h : ∀ y ∈ ys, y ∈ xs) :
    (xs ++ ys).eraseDups = xs.eraseDups := by
  have hnone : ys.removeAll xs = [] := List.filter_eq_nil_iff.2 fun y hy => by simpa using h y hy
  rw [List.eraseDups_append, hnone, List.eraseDups_nil, List.append_nil]

theorem eraseDups_append_of_disjoint {xs ys : List String} (h : ∀ y ∈ ys, y ∉ xs) :
    (xs ++ ys).eraseDups = xs.eraseDups ++ ys.eraseDups := by
  have hall : ys.removeAll xs = ys := List.filter_eq_self.2 fun y hy => by simpa using h y hy
  rw [List.eraseDups_append, hall]

theorem eraseDups_of_nodup {xs : List String} (h : xs.Nodup) : xs.eraseDups = xs := by
  induction xs with
  | nil => rfl
  | cons x xs ih =>
    rw [List.nodup_cons] at h
    have hall : xs.filter (fun y => !y == x) = xs :=
      List.filter_eq_self.2 fun y hy => by
        simpa using fun heq : y = x => h.1 (heq ▸ hy)
    rw [List.eraseDups_cons, hall, ih h.2]

/-! ## Slots -/

section Slots

variable {os : List Occurrence} {host : String} {s : Slot}

theorem slotFor?_eq_none : slotFor? os host = none ↔ host ∉ os.map (·.host) := by
  have hmem : host ∈ os.map (·.host) ↔ ∃ o ∈ os, (o.host == host) = true := by
    simp only [List.mem_map, beq_iff_eq]
  rw [slotFor?, hmem]
  cases howner : os.find? fun o => o.host == host && o.pathless with
  | some o =>
    have ho := List.find?_some howner
    rw [Bool.and_eq_true] at ho
    exact iff_of_false nofun fun h => h ⟨o, List.mem_of_find?_eq_some howner, ho.1⟩
  | none => rw [Option.map_eq_none_iff, List.find?_eq_none, not_exists]; simp

theorem mem_map_of_mem_ownedHosts (h : host ∈ ownedHosts os) : host ∈ os.map (·.host) := by
  obtain ⟨o, ho, rfl⟩ := List.mem_map.1 h
  exact List.mem_map_of_mem (List.mem_filter.1 ho).1

theorem host_of_slotFor? (h : slotFor? os host = some s) : s.place.host = host := by
  rw [slotFor?] at h
  cases howner : os.find? fun o => o.host == host && o.pathless with
  | some o =>
    rw [howner] at h
    cases h
    have ho := List.find?_some howner
    rw [Bool.and_eq_true, beq_iff_eq] at ho
    exact ho.1
  | none =>
    rw [howner] at h
    obtain ⟨o, ho, rfl⟩ := Option.map_eq_some_iff.1 h
    simpa using List.find?_some ho

/-- A slot is claimed just if some place owns its host. -/
theorem claimed_of_slotFor? (h : slotFor? os host = some s) :
    s.claimed = true ↔ host ∈ ownedHosts os := by
  have hmem : host ∈ ownedHosts os ↔ ∃ o ∈ os, (o.host == host && o.pathless) = true := by
    simp only [ownedHosts, List.mem_map, List.mem_filter, Bool.and_eq_true, beq_iff_eq]
    constructor
    · rintro ⟨o, ⟨ho, hp⟩, hh⟩
      exact ⟨o, ho, hh, hp⟩
    · rintro ⟨o, ho, hh, hp⟩
      exact ⟨o, ⟨ho, hp⟩, hh⟩
  rw [slotFor?] at h
  rw [hmem]
  cases howner : os.find? fun o => o.host == host && o.pathless with
  | some o =>
    rw [howner] at h
    cases h
    have hboth := List.find?_some howner
    exact iff_of_true rfl ⟨o, List.mem_of_find?_eq_some howner, hboth⟩
  | none =>
    rw [howner] at h
    obtain ⟨o, -, rfl⟩ := Option.map_eq_some_iff.1 h
    refine iff_of_false nofun ?_
    rintro ⟨o, ho, hboth⟩
    exact List.find?_eq_none.1 howner o ho hboth

/-- An owner speaks for every host that is owned. -/
theorem slotFor?_of_mem_ownedHosts (h : host ∈ ownedHosts os) :
    ∃ o ∈ os, o.host = host ∧ o.pathless = true ∧ slotFor? os host = some ⟨o, true⟩ := by
  obtain ⟨o, ho, hhost⟩ := List.mem_map.1 h
  obtain ⟨ho, hp⟩ := List.mem_filter.1 ho
  rw [slotFor?]
  cases howner : os.find? fun o => o.host == host && o.pathless with
  | some x =>
    have hx := List.find?_some howner
    rw [Bool.and_eq_true, beq_iff_eq] at hx
    exact ⟨x, List.mem_of_find?_eq_some howner, hx.1, hx.2, rfl⟩
  | none => exact absurd (by simp [hhost, hp]) (List.find?_eq_none.1 howner o ho)

/-- A place of another host changes nothing. -/
theorem slotFor?_concat_of_ne {o : Occurrence} (h : o.host ≠ host) :
    slotFor? (os ++ [o]) host = slotFor? os host := by
  simp [slotFor?, List.find?_append, h]

/-- What speaks for a host once there is one more place for it. -/
theorem slotFor?_concat_self (os : List Occurrence) (o : Occurrence) :
    slotFor? (os ++ [o]) o.host =
      match slotFor? os o.host with
      | none => some ⟨o, o.pathless⟩
      | some s => some (if o.pathless && !s.claimed then ⟨o, true⟩ else s) := by
  rw [slotFor?, slotFor?]
  cases howner : os.find? fun x => x.host == o.host && x.pathless with
  | some x => simp [List.find?_append, howner]
  | none =>
    cases hfirst : os.find? fun x => x.host == o.host with
    | some x => cases hp : o.pathless <;> simp [List.find?_append, howner, hfirst, hp]
    | none => cases hp : o.pathless <;> simp [List.find?_append, howner, hfirst, hp]

theorem slotFor?_concat_of_none {o : Occurrence} (h : slotFor? os o.host = none) :
    slotFor? (os ++ [o]) o.host = some ⟨o, o.pathless⟩ := by
  rw [slotFor?_concat_self, h]

theorem slotFor?_concat_of_some {o : Occurrence} (h : slotFor? os o.host = some s) :
    slotFor? (os ++ [o]) o.host = some (if o.pathless && !s.claimed then ⟨o, true⟩ else s) := by
  rw [slotFor?_concat_self, h]

/-- The slots are found under their hosts. -/
theorem slot?_filterMap {hosts : List String} (hhosts : ∀ h ∈ hosts, slotFor? os h ≠ none)
    (duplicates : List String) (host : String) :
    (Findings.mk (hosts.filterMap (slotFor? os)) duplicates).slot? host =
      if host ∈ hosts then slotFor? os host else none := by
  rw [Findings.slot?]
  induction hosts with
  | nil => rfl
  | cons h hosts ih =>
    obtain ⟨s, hs⟩ := Option.ne_none_iff_exists'.1 (hhosts h List.mem_cons_self)
    have hplace := host_of_slotFor? hs
    rw [List.filterMap_cons_some hs, List.find?_cons, hplace]
    by_cases hh : h = host
    · subst hh
      rw [beq_self_eq_true, if_pos List.mem_cons_self, hs]
    · rw [beq_eq_false_iff_ne.2 hh]
      have hiff : host ∈ h :: hosts ↔ host ∈ hosts := by simp [Ne.symm hh]
      simp only [hiff]
      exact ih fun x hx => hhosts x (List.mem_cons_of_mem _ hx)

theorem slot?_findingsOf (os : List Occurrence) (host : String) :
    (findingsOf os).slot? host = slotFor? os host := by
  have hhosts : ∀ h ∈ (os.map (·.host)).eraseDups, slotFor? os h ≠ none := by
    intro h hh hnone
    exact slotFor?_eq_none.1 hnone (List.mem_eraseDups.1 hh)
  rw [findingsOf, slot?_filterMap hhosts, ite_eq_left_iff]
  exact fun h => (slotFor?_eq_none.2 fun hmem => h (List.mem_eraseDups.2 hmem)).symm

end Slots

/-! ## Going through the places -/

section Places

variable {os : List Occurrence} {o : Occurrence} {s : Slot}

theorem eraseDups_concat (hosts : List String) (host : String) :
    (hosts ++ [host]).eraseDups = hosts.eraseDups ++ if host ∈ hosts then [] else [host] := by
  by_cases h : host ∈ hosts
  · rw [if_pos h, eraseDups_append_of_subset (List.forall_mem_singleton.2 h), List.append_nil]
  · rw [if_neg h, eraseDups_append_of_disjoint (List.forall_mem_singleton.2 h),
      eraseDups_of_nodup (List.pairwise_singleton _ host)]

theorem nodup_eraseDups (hosts : List String) : hosts.eraseDups.Nodup := by
  induction hosts using List.reverseRec with
  | nil => exact List.nodup_nil
  | append_singleton hosts host ih =>
    rw [eraseDups_concat]
    by_cases h : host ∈ hosts
    · rwa [if_pos h, List.append_nil]
    · rw [if_neg h, List.nodup_append]
      refine ⟨ih, List.pairwise_singleton _ host, fun x hx y hy heq => h ?_⟩
      rw [← List.mem_singleton.1 hy, ← heq]
      exact List.mem_eraseDups.1 hx

theorem ownedHosts_concat (os : List Occurrence) (o : Occurrence) :
    ownedHosts (os ++ [o]) = ownedHosts os ++ if o.pathless then [o.host] else [] := by
  rw [ownedHosts, ownedHosts, List.filter_append, List.map_append]
  cases hp : o.pathless with
  | false => rw [List.filter_cons_of_neg (by simp [hp])]; rfl
  | true => rw [List.filter_cons_of_pos hp]; rfl

/-- A place that owns a host once more is a duplicate. -/
theorem duplicates_concat (os : List Occurrence) (o : Occurrence) :
    (findingsOf (os ++ [o])).duplicates = (findingsOf os).duplicates ++
      if o.pathless = true ∧ o.host ∈ ownedHosts os then [o.host] else [] := by
  show repeats [] (ownedHosts (os ++ [o])) = repeats [] (ownedHosts os) ++ _
  rw [ownedHosts_concat]
  cases hp : o.pathless with
  | false => simp
  | true =>
    rw [if_pos rfl, repeats_concat]
    simp

/-- A new host gets a slot. -/
theorem slots_concat_new (h : slotFor? os o.host = none) :
    (findingsOf (os ++ [o])).slots = (findingsOf os).slots ++ [⟨o, o.pathless⟩] := by
  have hself := slotFor?_concat_of_none h
  have hnew : o.host ∉ os.map (·.host) := slotFor?_eq_none.1 h
  rw [findingsOf, findingsOf, List.map_append, List.map_singleton, eraseDups_concat, if_neg hnew,
    List.filterMap_append, List.filterMap_cons_some hself, List.filterMap_nil]
  refine congrArg (· ++ [_]) (List.filterMap_congr fun host hhost => ?_)
  have hne : o.host ≠ host := fun heq => hnew (heq ▸ List.mem_eraseDups.1 hhost)
  exact slotFor?_concat_of_ne hne

/-- One more place for a host that was found leaves the hosts as they are. -/
theorem slots_concat_old {f : Slot → Slot} (hold : slotFor? os o.host = some s)
    (hself : slotFor? (os ++ [o]) o.host = some (f s))
    (hother : ∀ t : Slot, t.place.host ≠ o.host → f t = t) :
    (findingsOf (os ++ [o])).slots = (findingsOf os).slots.map f := by
  have hmem : o.host ∈ os.map (·.host) := by
    refine Classical.not_not.1 fun hnot => ?_
    exact absurd (hold.symm.trans (slotFor?_eq_none.2 hnot)) nofun
  rw [findingsOf, findingsOf, List.map_append, List.map_singleton, eraseDups_concat, if_pos hmem,
    List.append_nil, List.map_filterMap]
  refine List.filterMap_congr fun host _ => ?_
  by_cases hhost : o.host = host
  · rw [← hhost, hself, hold]
    rfl
  · rw [slotFor?_concat_of_ne hhost]
    cases ht : slotFor? os host with
    | none => rfl
    | some t => rw [Option.map_some, hother t fun h => hhost (h.symm.trans (host_of_slotFor? ht))]

theorem slots_concat_kept (hold : slotFor? os o.host = some s)
    (hself : slotFor? (os ++ [o]) o.host = some s) :
    (findingsOf (os ++ [o])).slots = (findingsOf os).slots := by
  rw [slots_concat_old (f := id) hold hself fun _ _ => rfl, List.map_id]

/-- **One more place changes what was found as it should.** -/
theorem add_findingsOf (os : List Occurrence) (o : Occurrence) :
    (findingsOf os).add o = findingsOf (os ++ [o]) := by
  have hduplicates := duplicates_concat os o
  rw [Findings.add, slot?_findingsOf]
  cases hs : slotFor? os o.host with
  | none =>
    have hnot : o.host ∉ ownedHosts os := fun h =>
      slotFor?_eq_none.1 hs (mem_map_of_mem_ownedHosts h)
    rw [if_neg fun h => hnot h.2, List.append_nil] at hduplicates
    exact Findings.ext (slots_concat_new hs).symm hduplicates.symm
  | some s =>
    have hclaimed := claimed_of_slotFor? hs
    have hself := slotFor?_concat_of_some hs
    cases hp : o.pathless with
    | false =>
      -- a place with paths never takes over
      rw [hp] at hself hduplicates
      rw [if_neg fun h => Bool.false_ne_true h.1, List.append_nil] at hduplicates
      exact Findings.ext (slots_concat_kept hs hself).symm hduplicates.symm
    | true =>
      rw [hp] at hself hduplicates
      cases hc : s.claimed with
      | true =>
        -- the host has an owner already, so that this one is a duplicate
        rw [hc] at hself
        rw [if_pos ⟨rfl, hclaimed.1 hc⟩] at hduplicates
        simp only [hc, Bool.not_true, if_neg Bool.false_ne_true, if_true]
        exact Findings.ext (slots_concat_kept hs hself).symm hduplicates.symm
      | false =>
        -- the owner takes over from a place with paths
        rw [hc] at hself
        have hnot : o.host ∉ ownedHosts os := fun h => by
          rw [hclaimed.2 h] at hc
          cases hc
        rw [if_neg fun h => hnot h.2, List.append_nil] at hduplicates
        have hslots := slots_concat_old
          (f := fun t => if t.place.host == o.host then ⟨o, true⟩ else t) hs
          (by rw [hself, host_of_slotFor? hs, beq_self_eq_true]; rfl)
          fun t ht => if_neg (by simpa using ht)
        simp only [hc, Bool.not_true, if_neg Bool.false_ne_true]
        exact Findings.ext hslots.symm hduplicates.symm

/-- **What going through places finds.** -/
theorem foldl_add (os : List Occurrence) :
    os.foldl Findings.add Findings.none = findingsOf os := by
  induction os using List.reverseRec with
  | nil => rfl
  | append_singleton os o ih => rw [List.foldl_append, ih]; exact add_findingsOf os o

end Places

/-! ## Places in routes -/

section Routes

variable {serverName : String} {server : Server} {index : Nat} {o : Occurrence}

/-- The hosts that a route names without paths. -/
def Route.ownHosts (x : Route) : List String :=
  (x.matchers.filter (·.path.isEmpty)).flatMap (·.host)

theorem mem_routesOccurrences {rs : List Route}
    (h : o ∈ routesOccurrences serverName server index rs) :
    o.server = server ∧ o.route ∈ rs ∧
      ∃ m ∈ o.route.matchers, o.host ∈ m.host ∧ o.pathless = m.path.isEmpty := by
  induction rs generalizing index with
  | nil => exact absurd h List.not_mem_nil
  | cons x rs ih =>
    rcases List.mem_append.1 h with h | h
    · obtain ⟨m, hm, h⟩ := List.mem_flatMap.1 h
      obtain ⟨host, hhost, rfl⟩ := List.mem_map.1 h
      exact ⟨rfl, List.mem_cons_self, m, hm, hhost, rfl⟩
    · obtain ⟨hserver, hroute, hset⟩ := ih h
      exact ⟨hserver, List.mem_cons_of_mem _ hroute, hset⟩

theorem map_host_routesOccurrences (index : Nat) (rs : List Route) :
    (routesOccurrences serverName server index rs).map (·.host) = rs.flatMap Route.hosts := by
  induction rs generalizing index with
  | nil => rfl
  | cons x rs ih =>
    rw [routesOccurrences, List.map_append, ih, List.flatMap_cons, Route.occurrences,
      List.map_flatMap, Route.hosts]
    simp only [List.map_map, Function.comp_def, List.map_id']

theorem ownedHosts_routesOccurrences (index : Nat) (rs : List Route) :
    ownedHosts (routesOccurrences serverName server index rs) = rs.flatMap Route.ownHosts := by
  have hset : ∀ (m : MatcherSet) (index : Nat) (x : Route),
      ((m.host.map fun h => Occurrence.mk h m.path.isEmpty serverName server index x).filter
        (·.pathless)).map (·.host) = if m.path.isEmpty then m.host else [] := by
    intro m index x
    cases hm : m.path.isEmpty <;> simp [List.filter_map, Function.comp_def]
  have hroute : ∀ (index : Nat) (x : Route),
      ((x.occurrences serverName server index).filter (·.pathless)).map (·.host) =
        x.ownHosts := by
    intro index x
    rw [Route.occurrences, Route.ownHosts, List.filter_flatMap, List.map_flatMap]
    simp only [hset]
    induction x.matchers with
    | nil => rfl
    | cons m ms ih =>
      rw [List.flatMap_cons, List.filter_cons, ih]
      split <;> simp
  induction rs generalizing index with
  | nil => rfl
  | cons x rs ih =>
    rw [routesOccurrences, ownedHosts, List.filter_append, List.map_append, hroute,
      List.flatMap_cons]
    exact congrArg _ (ih (index + 1))

end Routes

/-! ## Names of candidates -/

theorem Occurrence.domainNames_withProxy (p : ReverseProxy) (c : Candidate) :
    (Occurrence.withProxy p c).domainNames = c.domainNames := by
  rw [Occurrence.withProxy]
  cases p.backends with
  | nil => rfl
  | cons u _ =>
    cases hsplit : Address.split u.dial with
    | error e => simp [hsplit]
    | ok t => simp [hsplit]

/-- A candidate carries the name of the host that it was found for. -/
theorem Occurrence.domainNames_candidate (o : Occurrence) : o.candidate.domainNames = o.host := by
  rw [Occurrence.candidate]
  cases Occurrence.proxy? (Handler.flatten o.route.handle) with
  | none => rfl
  | some p => exact Occurrence.domainNames_withProxy p _

theorem map_host_slots_findingsOf (os : List Occurrence) :
    (findingsOf os).slots.map (·.place.host) = (os.map (·.host)).eraseDups := by
  have hhosts : ∀ hosts : List String, (∀ h ∈ hosts, h ∈ os.map (·.host)) →
      (hosts.filterMap (slotFor? os)).map (·.place.host) = hosts := by
    intro hosts hmem
    induction hosts with
    | nil => rfl
    | cons h hosts ih =>
      obtain ⟨s, hs⟩ := Option.ne_none_iff_exists'.1
        (mt slotFor?_eq_none.1 (not_not_intro (hmem h List.mem_cons_self)))
      rw [List.filterMap_cons_some hs, List.map_cons, host_of_slotFor? hs,
        ih fun x hx => hmem x (List.mem_cons_of_mem _ hx)]
  exact hhosts _ fun h hh => List.mem_eraseDups.1 hh

/-- **The candidates of a document carry the hosts that it names, each once.** -/
theorem map_domainNames_extractDocument (d : Document) :
    (extractDocument d).hosts.map (·.domainNames) = (d.occurrences.map (·.host)).eraseDups := by
  rw [extractDocument, foldl_add, ← map_host_slots_findingsOf, List.map_map]
  exact List.map_congr_left fun s _ => Occurrence.domainNames_candidate s.place

theorem nodup_domainNames_extractDocument (d : Document) :
    ((extractDocument d).hosts.map (·.domainNames)).Nodup := by
  rw [map_domainNames_extractDocument]
  exact nodup_eraseDups _

/-- **No two candidates of a text carry the same name.** -/
theorem nodup_domainNames_extract {bs : Bytes} {r : ImportResult} (h : extract bs = .ok r) :
    (r.hosts.map (·.domainNames)).Nodup := by
  obtain ⟨d, -, rfl⟩ := map_eq_ok.1 h
  exact nodup_domainNames_extractDocument d

end ProxyPlane
