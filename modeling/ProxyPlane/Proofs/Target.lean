import ProxyPlane.Proofs.Render
import Mathlib.Data.List.Forall2

/-!
# Which target a dialled address leads to

The host of a target is any text, and the address that is dialled for it is put together from that
text and a port.  A host in square brackets comes out of it without them.  A host that carries a
port of its own behind a closing bracket is cut off there, and all that follows is taken for the
port.

## What is here

* `Address.unbracketed` and `Address.CarriesPort`, what is asked of the text of a host.
* `Address.split_join_cases`: what a joined address is split into, for any host.
* `Route.dials`, the addresses that a route dials; `RoutingRecord.routeTargets`, what the routes of
  a record are for; `Route.LeadsTo`.
* `forall₂_leadsTo_render`: every route of a rendered document leads to its own target.
* `not_leadsTo_portInHost`: a host with a port of its own passes validation.
-/

set_option autoImplicit false
namespace ProxyPlane

open Compile

/-! ## Hosts in addresses -/

namespace Address

/-- The host without the square brackets around it, if it stands in a pair of them. -/
def unbracketed (host : String) : String :=
  if host.toList.head? = some '[' ∧ host.toList.getLast? = some ']' then
    String.ofList host.toList.tail.dropLast
  else host

/-- A port is written behind the host already: its first closing bracket is followed by a colon. -/
def CarriesPort (host : String) : Prop :=
  ∃ before after, host.toList = before ++ ']' :: ':' :: after ∧ ']' ∉ before

variable {host : String}

theorem unbracketed_of_head (h : host.toList.head? ≠ some '[') : unbracketed host = host :=
  if_neg fun hboth => h hboth.1

theorem unbracketed_of_pair {inner : List Char} (h : host.toList = '[' :: (inner ++ [']'])) :
    unbracketed host = String.ofList inner := by
  have hlast : ('[' :: (inner ++ [']'])).getLast? = some ']' := by
    rw [← List.cons_append, List.getLast?_concat]
  rw [unbracketed, h, if_pos ⟨rfl, hlast⟩, List.tail_cons, List.dropLast_concat]

theorem not_carriesPort_of_isPlain (h : IsPlain host) : ¬CarriesPort host := by
  rintro ⟨before, after, heq, -⟩
  refine h.2 ?_
  rw [heq]
  simp

/-- Nothing follows the first closing bracket. -/
theorem not_carriesPort_of_last {inner : List Char} (h : host.toList = inner ++ [']'])
    (hinner : ']' ∉ inner) : ¬CarriesPort host := by
  rintro ⟨before, after, heq, hbefore⟩
  have hcut := cutFirst?_eq_some.2 ⟨h, hinner⟩
  rw [cutFirst?_eq_some.2 ⟨heq, hbefore⟩] at hcut
  cases hcut

/-- The bracket before the port of an address stands behind a first part of it, at the end of that
part, or inside it. -/
theorem closing_cases {first rest inner port : List Char}
    (h : first ++ rest = inner ++ ']' :: ':' :: port) :
    (∃ more, inner = first ++ more ∧ rest = more ++ ']' :: ':' :: port) ∨
      (first = inner ++ [']'] ∧ rest = ':' :: port) ∨
      ∃ own, first = inner ++ ']' :: ':' :: own ∧ port = own ++ rest := by
  rcases List.append_eq_append_iff.1 h with ⟨more, hinner, hrest⟩ | ⟨more, hfirst, hmore⟩
  · exact .inl ⟨more, hinner, hrest⟩
  · match more with
    | [] => exact .inl ⟨[], by rw [hfirst, List.append_nil, List.append_nil], hmore.symm⟩
    | [c] =>
      obtain ⟨hc, hrest⟩ := List.cons.inj hmore
      exact .inr (.inl ⟨hc ▸ hfirst, hrest.symm⟩)
    | c :: c' :: own =>
      obtain ⟨hc, htail⟩ := List.cons.inj hmore
      obtain ⟨hc', hport⟩ := List.cons.inj htail
      exact .inr (.inr ⟨own, hc ▸ hc' ▸ hfirst, hport⟩)

theorem closing_not_mem_toDigits (port : Nat) : ']' ∉ Nat.toDigits 10 port := by
  intro h
  exact absurd (Nat.isDigit_of_mem_toDigits (by decide) (by decide) h) (by decide)

section Joined

variable {inner text : List Char} {port : Nat}

/-- A host that was put into brackets and holds a closing one. -/
theorem carriesPort_of_bracketed (hclosing : ']' ∈ host.toList)
    (h : host.toList ++ ']' :: ':' :: Nat.toDigits 10 port = inner ++ ']' :: ':' :: text)
    (hinner : ']' ∉ inner) : CarriesPort host ∧ ':' ∈ text := by
  rcases closing_cases h with ⟨more, rfl, -⟩ | ⟨-, hrest⟩ | ⟨own, hown, rfl⟩
  · exact absurd (List.mem_append_left more hclosing) hinner
  · exact absurd (List.cons.inj hrest).1 (by decide)
  · exact ⟨⟨inner, own, hown, hinner⟩, by simp⟩

/-- A host that starts with a bracket itself. -/
theorem split_opened_cases {rest : List Char} (hhost : host.toList = '[' :: rest)
    (h : rest ++ ':' :: Nat.toDigits 10 port = inner ++ ']' :: ':' :: text)
    (hinner : ']' ∉ inner) :
    (¬CarriesPort host ∧ String.ofList inner = unbracketed host ∧ text = Nat.toDigits 10 port) ∨
      (CarriesPort host ∧ ':' ∈ text) := by
  have hopened : ']' ∉ '[' :: inner := by
    rw [List.mem_cons, not_or]
    exact ⟨by decide, hinner⟩
  rcases closing_cases h with ⟨more, -, hrest⟩ | ⟨rfl, hrest⟩ | ⟨own, rfl, rfl⟩
  · -- the bracket would stand in the numeral of the port
    have hmem : ']' ∈ ':' :: Nat.toDigits 10 port := by
      rw [hrest]
      simp
    rcases List.mem_cons.1 hmem with hmem | hmem
    · exact absurd hmem (by decide)
    · exact absurd hmem (closing_not_mem_toDigits port)
  · exact .inl ⟨not_carriesPort_of_last hhost hopened, (unbracketed_of_pair hhost).symm,
      (List.cons.inj hrest).2.symm⟩
  · exact .inr ⟨⟨'[' :: inner, own, hhost, hopened⟩, by simp⟩

/-- **What a joined address is split into**: the host without brackets around it and the numeral of
the port, unless the host carries a port; then the rest of the host is taken for a part of the
port. -/
theorem split_join_cases {r : String × String} (h : split (join host port) = .ok r) :
    (¬CarriesPort host ∧ r = (unbracketed host, Numeral.write port)) ∨
      (CarriesPort host ∧ ':' ∈ r.2.toList) := by
  by_cases hplain : IsPlain host
  · rw [split_join hplain] at h
    cases h
    exact .inl ⟨not_carriesPort_of_isPlain hplain, by rw [unbracketed_of_head hplain.1]⟩
  obtain ⟨⟨inner, text⟩, hsplit, rfl⟩ := map_eq_ok.1 h
  rw [toList_join] at hsplit
  rw [String.toList_ofList]
  -- a host that is not plain opens a bracket itself, or closes too soon the one it is put into
  by_cases hhead : host.toList.head? = some '['
  · obtain ⟨rest, hhost⟩ := List.head?_eq_some_iff.1 hhead
    have hbrackets : ¬needsBrackets host = true := by simp [needsBrackets, hhead]
    rw [if_neg hbrackets, hhost] at hsplit
    obtain ⟨heq, hinner⟩ := splitChars_bracket_eq_ok.1 hsplit
    refine (split_opened_cases hhost heq hinner).imp_left ?_
    rintro ⟨hcarries, hinside, rfl⟩
    exact ⟨hcarries, Prod.ext hinside rfl⟩
  · obtain ⟨hcolon, hclosing⟩ := Decidable.not_not.1 (not_and.1 hplain hhead)
    have hbrackets : needsBrackets host = true := by simp [needsBrackets, hhead, hcolon]
    rw [if_pos hbrackets] at hsplit
    obtain ⟨heq, hinner⟩ := splitChars_bracket_eq_ok.1 hsplit
    exact .inr (carriesPort_of_bracketed hclosing
      ((List.append_assoc _ _ _).symm.trans heq) hinner)

/-- An address that is split leads to its own target just if the host carries no port. -/
theorem eq_of_split_join_iff {r : String × String} (h : split (join host port) = .ok r) :
    r = (unbracketed host, Numeral.write port) ↔ ¬CarriesPort host := by
  rcases split_join_cases h with ⟨hplain, hr⟩ | ⟨hcarries, hcolon⟩
  · exact iff_of_true hr hplain
  · refine iff_of_false ?_ (not_not_intro hcarries)
    rintro rfl
    rw [Numeral.write, String.toList_ofList] at hcolon
    exact colon_not_mem_toDigits port hcolon

end Joined

end Address

/-! ## Routes -/

/-- The addresses that the reverse proxies of a route dial, in their order. -/
def Route.dials (x : Route) : List String :=
  x.handle.flatMap fun
    | .reverseProxy p => p.backends.map (·.dial)
    | _ => []

/-- What a route is for: some hosts, and the target that their requests are sent to. -/
structure RouteTarget where
  domains : List String
  host : String
  port : Nat

/-- What the routes of a record are for: its path rules one by one, and then the record itself. -/
def RoutingRecord.routeTargets (r : RoutingRecord) : List RouteTarget :=
  r.locations.map (fun l => ⟨r.domains, l.forwardHost, l.forwardPort⟩) ++
    [⟨r.domains, r.forwardHost, r.forwardPort⟩]

/-- The route is for the hosts, and dials one address.  That address is split, and it is split into
the target just if the host of the target carries no port. -/
structure Route.LeadsTo (x : Route) (t : RouteTarget) : Prop where
  hosts : x.hosts = t.domains
  dial : ∃ a r, x.dials = [a] ∧ Address.split a = .ok r ∧
    (r = (Address.unbracketed t.host, Numeral.write t.port) ↔ ¬Address.CarriesPort t.host)

theorem Route.leadsTo_of_dials {x : Route} {t : RouteTarget} (hhosts : x.hosts = t.domains)
    (hdials : x.dials = [Address.join t.host t.port]) (h : IsDialable t.host t.port) :
    x.LeadsTo t := by
  obtain ⟨r, hr⟩ := h
  exact ⟨hhosts, _, r, hdials, hr, Address.eq_of_split_join_iff hr⟩

theorem hosts_pathRoute (domains : List String) (upgrade : Bool) (l : PathRule) :
    (pathRoute domains upgrade l).hosts = domains := List.append_nil _

theorem dials_pathRoute (domains : List String) (upgrade : Bool) (l : PathRule) :
    (pathRoute domains upgrade l).dials = [Address.join l.forwardHost l.forwardPort] := rfl

theorem hosts_catchAllRoute (domains : List String) (r : RoutingRecord) :
    (catchAllRoute domains r).hosts = domains := List.append_nil _

theorem dials_catchAllRoute (domains : List String) (r : RoutingRecord) :
    (catchAllRoute domains r).dials = [Address.join r.forwardHost r.forwardPort] := by
  rw [Route.dials, catchAllRoute, recordHandlers]
  cases r.hstsEnabled <;> cases r.blockExploits <;> rfl

/-- The routes of a record lead to what they are for. -/
theorem forall₂_leadsTo_recordRoutes {r : RoutingRecord} (h : r.HasDialableTargets) :
    List.Forall₂ Route.LeadsTo (recordRoutes r) r.routeTargets := by
  refine List.rel_append ?_ (.cons ?_ .nil)
  · rw [List.forall₂_map_left_iff, List.forall₂_map_right_iff, List.forall₂_same]
    intro l hl
    exact Route.leadsTo_of_dials (hosts_pathRoute _ _ l) (dials_pathRoute _ _ l) (h.2 l hl)
  · exact Route.leadsTo_of_dials (hosts_catchAllRoute _ r) (dials_catchAllRoute _ r) h.1

theorem forall₂_leadsTo_flatMap {records : List RoutingRecord}
    (h : ∀ r ∈ records, r.HasDialableTargets) :
    List.Forall₂ Route.LeadsTo (records.flatMap recordRoutes)
      (records.flatMap (·.routeTargets)) := by
  induction records with
  | nil => exact .nil
  | cons r rest ih =>
    rw [List.flatMap_cons, List.flatMap_cons]
    exact List.rel_append (forall₂_leadsTo_recordRoutes (h r List.mem_cons_self))
      (ih fun x hx => h x (List.mem_cons_of_mem r hx))

/-! ## Rendered documents -/

section Rendering

variable {σ : Type} {answer : {β : Type} → SyncOp β → σ → β × σ} {s : σ}
  {records : List RoutingRecord} {email : Option String}

/-- **Each route of a rendered document leads to its own target**, unless the host of the target
carries a port.  There is one server, and its routes are those of the enabled records, in the order
of the records and of their path rules. -/
theorem forall₂_leadsTo_render (h : StoreReads answer s records email) {m : SyncManager}
    {d : Document} (hd : (m.render.run answer s).1 = .ok d) :
    ∃ server, d.servers = [("srv0", server)] ∧
      List.Forall₂ Route.LeadsTo server.routes
        ((enabledRecords records).flatMap (·.routeTargets)) := by
  rw [render_of_storeReads h, documentOf_eq_ok, compile_eq_ok] at hd
  obtain ⟨⟨-, rfl⟩, hconsistent⟩ := hd
  exact ⟨_, rfl, forall₂_leadsTo_flatMap hconsistent.targets⟩

/-- A world whose store holds one record, and nothing else. -/
def worldOf (r : RoutingRecord) : World :=
  { oneRecordWorld with backing := .memory (MemoryStore.ofRecords [r]) 0 fun _ => false }

/-- A manager that renders. -/
def renderer : SyncManager := SyncManager.create ⟨"http://localhost:2019"⟩ "/etc/proxy"

/-- A record with a host in brackets, and a path rule with one that needs them. -/
def bracketedRecord : RoutingRecord :=
  { RoutingRecord.create "r1" "a.example" "[fd00::5]" 80 with
    locations := [⟨"/api", "http", "::1", 8081⟩] }

theorem forall₂_leadsTo_bracketedRecord :
    ∃ d server, (renderer.render.run World.answer (worldOf bracketedRecord)).1 = .ok d ∧
      d.servers = [("srv0", server)] ∧
      List.Forall₂ Route.LeadsTo server.routes
        [⟨["a.example"], "::1", 8081⟩, ⟨["a.example"], "[fd00::5]", 80⟩] := by
  have hreads : StoreReads World.answer (worldOf bracketedRecord) [bracketedRecord] none :=
    ⟨rfl, rfl⟩
  have hrendered : ∃ d, (renderer.render.run World.answer (worldOf bracketedRecord)).1 = .ok d := by
    rw [render_of_storeReads hreads]
    refine (documentOf_of_domains renderer _ (by decide)).1.2 ⟨by decide, by decide, ?_⟩
    intro r hr
    obtain rfl := List.mem_singleton.1 hr
    refine ⟨⟨_, rfl⟩, fun l hl => ?_⟩
    obtain rfl := List.mem_singleton.1 hl
    exact ⟨_, rfl⟩
  obtain ⟨d, hd⟩ := hrendered
  obtain ⟨server, hserver, hroutes⟩ := forall₂_leadsTo_render hreads hd
  exact ⟨d, server, hd, hserver, hroutes⟩

/-- A record whose host carries a port. -/
def portInHostRecord : RoutingRecord := RoutingRecord.create "r1" "a.example" "[::1]:9000" 80

/-- **A host that carries a port passes validation**, and what is dialled is not its target. -/
theorem not_leadsTo_portInHost :
    ∃ d server x, (renderer.render.run World.answer (worldOf portInHostRecord)).1 = .ok d ∧
      d.servers = [("srv0", server)] ∧ server.routes = [x] ∧ x.dials = ["[::1]:9000:80"] ∧
      Address.split "[::1]:9000:80" = .ok ("::1", "9000:80") ∧
      ("::1", "9000:80") ≠ (Address.unbracketed "[::1]:9000", Numeral.write 80) :=
  ⟨_, _, _, rfl, rfl, rfl, rfl, rfl, by decide⟩

end Rendering

end ProxyPlane
