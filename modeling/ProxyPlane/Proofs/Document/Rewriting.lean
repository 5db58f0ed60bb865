import Mathlib.Data.List.Perm.Subperm
import ProxyPlane.Proofs.Document.Order
import ProxyPlane.Proofs.Json.Sections

/-!
# Documents that are read and written again

A document may come from anywhere: it may have members that no section declares, and handlers of
kinds that nobody knows.  Nothing of it is lost when it is read and written again.

## What is here

* `MatcherSet.fields`, `Route.fields` and so on: the fields that the sections declare, when they are
  written, and what may become of their values.
* `isField_text`, `isField_array` and so on, the kinds of fields.
* `IsReading`, how the object of a handler is read, and `Handler.change`, what becomes of it.
* `MatcherSet.rewrites`, `Route.rewrites` and so on, up to `Document.rewrites`.
* `Document.rewrite`, a document read and written again, and `document_rewriting`.
-/

set_option autoImplicit false
namespace ProxyPlane

open Json

/-! ## Kinds of fields -/

section Kinds

variable {σ α : Type} {start : σ} {key : String} {c : Codec α} {change : Change}

/-- A text, `""` by default. -/
theorem isField_text {get : σ → String} {set : String → σ → σ} (h : IsLens start "" get set) :
    IsField start (.always key .string get set) ⟨key, .always (.string ""), .same⟩
      fun s t => set (get s) t :=
  .always rewrites_string h rfl rfl

/-- A truth value that is false by default. -/
theorem isField_truth {get : σ → Bool} {set : Bool → σ → σ} (h : IsLens start false get set) :
    IsField start (.always key .bool get set) ⟨key, .always (.bool false), .same⟩
      fun s t => set (get s) t :=
  .always rewrites_bool h rfl rfl

/-- An array, without elements by default. -/
theorem isField_array (hc : c.Rewrites change) {get : σ → List α} {set : List α → σ → σ}
    (h : IsLens start [] get set) :
    IsField start (.always key (.list c) get set) ⟨key, .always (.array []), .list change⟩
      fun s t => set (get s) t :=
  .always (rewrites_list hc) h rfl rfl

/-- An object with free keys, without members by default. -/
theorem isField_dict (hc : c.Rewrites change) {get : σ → Dict α} {set : Dict α → σ → σ}
    (h : IsLens start Dict.empty get set) :
    IsField start (.always key (.dict c) get set) ⟨key, .always (.object []), .dict change⟩
      fun s t => set (get s) t :=
  .always (rewrites_dict hc) h rfl rfl

/-- A truth value that is not written when it is false. -/
theorem isField_flag {get : σ → Bool} {set : Bool → σ → σ} (h : IsLens start false get set) :
    IsField start (.unlessEmpty not key .bool get set) ⟨key, .unlessEmpty (.bool false), .same⟩
      fun s t => set (get s) t :=
  .unlessEmpty rewrites_bool h rfl rfl fun b => by cases b <;> decide

/-- An array that is not written when it has no elements. -/
theorem isField_sparseArray (hc : c.Rewrites change) {get : σ → List α} {set : List α → σ → σ}
    (h : IsLens start [] get set) :
    IsField start (.unlessEmpty List.isEmpty key (.list c) get set)
      ⟨key, .unlessEmpty (.array []), .list change⟩ fun s t => set (get s) t :=
  .unlessEmpty (rewrites_list hc) h rfl rfl fun _ => List.isEmpty_iff

/-- An object with free keys that is not written when it has no members. -/
theorem isField_sparseDict (hc : c.Rewrites change) {get : σ → Dict α} {set : Dict α → σ → σ}
    (h : IsLens start Dict.empty get set) :
    IsField start (.unlessEmpty Dict.isEmpty key (.dict c) get set)
      ⟨key, .unlessEmpty (.object []), .dict change⟩ fun s t => set (get s) t :=
  .unlessEmpty (rewrites_dict hc) h rfl rfl fun _ => ⟨Dict.eq_empty_of_isEmpty, fun h => h ▸ rfl⟩

end Kinds

/-! ## Sections inside handlers -/

def HeaderOps.fields : List Declared :=
  [⟨"set", .unlessEmpty (.object []), .dict (.list .same)⟩]

theorem HeaderOps.rewrites : HeaderOps.codec.Rewrites (.object HeaderOps.fields) :=
  document_rewrites isSection isUnordered
    (.cons (isField_sparseDict (rewrites_list rewrites_string)
        ⟨fun _ _ => rfl, fun _ _ _ => rfl, rfl⟩) .nil)
    (fun _ => rfl) fun _ => rfl

def HeaderRules.fields : List Declared :=
  [⟨"request", .optional, .object HeaderOps.fields⟩,
   ⟨"response", .optional, .object HeaderOps.fields⟩]

theorem HeaderRules.rewrites : HeaderRules.codec.Rewrites (.object HeaderRules.fields) :=
  document_rewrites isSection isUnordered
    (.cons (.optional HeaderOps.rewrites ⟨fun _ _ => rfl, fun _ _ _ => rfl, rfl⟩) <|
      .cons (.optional HeaderOps.rewrites ⟨fun _ _ => rfl, fun _ _ _ => rfl, rfl⟩) .nil)
    (fun _ => rfl) fun _ => rfl

def Backend.fields : List Declared := [⟨"dial", .always (.string ""), .same⟩]

theorem Backend.rewrites : Backend.codec.Rewrites (.object Backend.fields) :=
  document_rewrites isSection isUnordered
    (.cons (isField_text ⟨fun _ _ => rfl, fun _ _ _ => rfl, rfl⟩) .nil)
    (fun _ => rfl) fun _ => rfl

def ReverseProxy.fields : List Declared :=
  [⟨"upstreams", .always (.array []), .list (.object Backend.fields)⟩,
   ⟨"headers", .optional, .object HeaderRules.fields⟩,
   ⟨"transport", .optional, .same⟩]

theorem ReverseProxy.rewrites : ReverseProxy.codec.Rewrites (.object ReverseProxy.fields) :=
  document_rewrites isSection isUnordered
    (.cons (isField_array Backend.rewrites ⟨fun _ _ => rfl, fun _ _ _ => rfl, rfl⟩) <|
      .cons (.optional HeaderRules.rewrites ⟨fun _ _ => rfl, fun _ _ _ => rfl, rfl⟩) <|
      .cons (.optional rewrites_any ⟨fun _ _ => rfl, fun _ _ _ => rfl, rfl⟩) .nil)
    (fun _ => rfl) fun _ => rfl

/-! ## Handlers -/

namespace Handler

/-- How the object of a handler is read. -/
inductive IsReading (m : Dict Json) : Handler → Prop
  | reverseProxy {p : ReverseProxy} (hkind : kindOf m = some "reverse_proxy")
      (h : ReverseProxy.codec.Reads (.ofDict (m.erase kindKey)) p) : IsReading m (.reverseProxy p)
  | headers {r : HeaderRules} (hkind : kindOf m = some "headers")
      (h : HeaderRules.codec.Reads (.ofDict (m.erase kindKey)) r) : IsReading m (.headers r)
  | blockExploits (hkind : kindOf m = some "vars") (hsize : m.size = 2)
      (h : m.get? blockExploitsKey = some (.bool true)) : IsReading m .blockExploits
  | passthrough : IsReading m (.passthrough m)

theorem decodeFields?_eq_some {α : Type} {c : Codec α} {m : Dict Json} {a : α} :
    decodeFields? c m = some a ↔ c.Reads (.ofDict (m.erase kindKey)) a := by
  rw [decodeFields?, ← ofValue_eq_ok]
  cases c.ofValue (.ofDict (m.erase kindKey)) with
  | error e => exact iff_of_false (fun h => by cases h) fun h => by cases h
  | ok b => exact ⟨fun h => congrArg Except.ok (Option.some.inj h), fun h => by cases h; rfl⟩

/-- **Every object is read as a handler.** -/
theorem isReading_ofFields (m : Dict Json) : IsReading m (ofFields m) := by
  rw [ofFields]
  split
  · rename_i hkind
    cases hp : decodeFields? ReverseProxy.codec m with
    | some p => exact .reverseProxy hkind (decodeFields?_eq_some.1 hp)
    | none => exact .passthrough
  · rename_i hkind
    cases hr : decodeFields? HeaderRules.codec m with
    | some r => exact .headers hkind (decodeFields?_eq_some.1 hr)
    | none => exact .passthrough
  · rename_i hkind
    split
    · rename_i h
      exact .blockExploits hkind h.1 h.2
    · exact .passthrough
  · exact .passthrough

theorem get?_kindKey_of_kindOf {m : Dict Json} {kind : String} (h : kindOf m = some kind) :
    m.get? kindKey = some (.string kind) := by
  rw [kindOf] at h
  obtain ⟨v, hv, hkind⟩ := Option.bind_eq_some_iff.1 h
  cases v with
  | string s => rw [hv, ← Option.some.inj hkind]
  | _ => cases hkind

/-- An object with two members is determined by them. -/
theorem eq_of_size_eq_two {α : Type} {m : Dict α} {k l : String} {a b : α} (hsize : m.size = 2)
    (hkl : k ≠ l) (hk : m.get? k = some a) (hl : m.get? l = some b) :
    m = (Dict.empty.insert k a).insert l b := by
  -- two different members are all that an object of size two can have
  have hmem : ∀ e ∈ m.entries, e = (k, a) ∨ e = (l, b) := by
    have hpair : [(k, a), (l, b)].Subperm m.entries := by
      refine List.subperm_of_subset (by simp [hkl]) ?_
      simp [Dict.mem_of_get? hk, Dict.mem_of_get? hl]
    have hperm := hpair.perm_of_length_le (Nat.le_of_eq hsize)
    intro e he
    simpa using hperm.mem_iff.2 he
  refine Dict.ext_get? fun j => ?_
  rw [Dict.get?_insert, Dict.get?_insert]
  by_cases hjl : j = l
  · rw [if_pos hjl, hjl, hl]
  · rw [if_neg hjl]
    by_cases hjk : j = k
    · rw [if_pos hjk, hjk, hk]
    · rw [if_neg hjk]
      cases hj : m.get? j with
      | none => rfl
      | some v =>
        rcases hmem _ (Dict.mem_of_get? hj) with heq | heq
        · exact absurd (congrArg Prod.fst heq) hjk
        · exact absurd (congrArg Prod.fst heq) hjl

/-- **Only one object blocks common exploits.** -/
theorem ofFields_eq_blockExploits {m : Dict Json} :
    ofFields m = .blockExploits ↔ m = blockExploits.toFields := by
  constructor
  · intro h
    have hreading := isReading_ofFields m
    rw [h] at hreading
    cases hreading with
    | blockExploits hkind hsize hm =>
      exact eq_of_size_eq_two hsize (by decide) (get?_kindKey_of_kindOf hkind) hm
  · rintro rfl
    rfl

/-- **The kind of a handler is what its object names.** -/
theorem kind?_ofFields (m : Dict Json) : (ofFields m).kind? = kindOf m := by
  have h := isReading_ofFields m
  generalize ofFields m = handler at h
  cases h with
  | reverseProxy hkind _ => exact hkind.symm
  | headers hkind _ => exact hkind.symm
  | blockExploits hkind _ _ => exact hkind.symm
  | passthrough => rfl

/-- What becomes of the object of a handler: the members of a reverse proxy and of header rules
change as they declare, apart from the kind, and every other object stays as it is. -/
def change : Change := fun v w =>
  ∃ m n : Dict Json, v = .ofDict m ∧ w = .ofDict n ∧
    match ofFields m with
    | .reverseProxy _ =>
      n.get? kindKey = m.get? kindKey ∧
        MembersChange ReverseProxy.fields (m.erase kindKey) (n.erase kindKey)
    | .headers _ =>
      n.get? kindKey = m.get? kindKey ∧
        MembersChange HeaderRules.fields (m.erase kindKey) (n.erase kindKey)
    | .blockExploits | .passthrough _ => n = m

section Known

variable {σ : Type} {start : σ} {members : List (Member σ)} {extra : σ → Dict Json}
  {setExtra : Dict Json → σ → σ} {fields : List Declared}

/-- The members of an object of a known kind change as its section declares. -/
theorem membersChange_fieldsOf
    (hc : (Codec.document start members extra setExtra).Rewrites (.object fields)) {m : Dict Json}
    {s : σ} (hnormal : ∀ e ∈ m.entries, e.2.normalize = e.2)
    (h : (Codec.document start members extra setExtra).Reads (.ofDict (m.erase kindKey)) s) :
    MembersChange fields (m.erase kindKey)
      (fieldsOf (Codec.document start members extra setExtra) s) := by
  have herase : ∀ e ∈ (m.erase kindKey).entries, e.2.normalize = e.2 :=
    fun e he => hnormal e (List.mem_of_mem_filter he)
  have hchange := hc.changes h
  rw [normalize_ofDict_of_forall herase, ← ofDict_fieldsOf] at hchange
  obtain ⟨d, e, hd, he, hmembers⟩ := hchange
  rwa [← ofDict_injective hd, ← ofDict_injective he] at hmembers

/-- The object that is written for a known kind. -/
theorem tagged_change
    (hc : (Codec.document start members extra setExtra).Rewrites (.object fields))
    (hkeys : ∀ f ∈ fields, f.key ≠ kindKey) {m : Dict Json} {kind : String} {s : σ}
    (hkind : kindOf m = some kind) (hnormal : ∀ e ∈ m.entries, e.2.normalize = e.2)
    (h : (Codec.document start members extra setExtra).Reads (.ofDict (m.erase kindKey)) s) :
    (fieldsOf (Codec.document start members extra setExtra) s).get? kindKey = none ∧
      (tagged kind (fieldsOf (Codec.document start members extra setExtra) s)).get? kindKey =
        m.get? kindKey ∧
      MembersChange fields (m.erase kindKey)
        ((tagged kind (fieldsOf (Codec.document start members extra setExtra) s)).erase
          kindKey) := by
  have hmembers := membersChange_fieldsOf hc hnormal h
  have hnone : (fieldsOf (Codec.document start members extra setExtra) s).get? kindKey = none := by
    rw [hmembers.undeclared kindKey hkeys, Dict.get?_erase, if_pos rfl]
  refine ⟨hnone, ?_, ?_⟩
  · rw [tagged_eq_insert kind hnone, Dict.get?_insert, if_pos rfl, get?_kindKey_of_kindOf hkind]
  · rwa [tagged_eq_insert kind hnone, Dict.erase_insert_self_of_get? _ _ hnone]

end Known

/-- An object that is read as a handler has changed as it may, and is that of the same handler. -/
theorem change_toFields {m : Dict Json} (hnormal : ∀ e ∈ m.entries, e.2.normalize = e.2) :
    change (.ofDict m) (.ofDict (ofFields m).toFields) ∧
      (∀ e ∈ (ofFields m).toFields.entries, e.2.normalize = e.2) ∧
      ofFields (ofFields m).toFields = ofFields m := by
  have h := isReading_ofFields m
  generalize hm : ofFields m = handler at h
  cases h with
  | @reverseProxy p hkind h =>
    obtain ⟨hnone, hget, hmembers⟩ :=
      tagged_change ReverseProxy.rewrites (by decide) hkind hnormal h
    refine ⟨⟨m, _, rfl, rfl, ?_⟩, normalize_of_mem_tagged hnone normalize_of_mem_fieldsOf,
      ofFields_reverseProxy (ReverseProxy.rewrites.restores h) hnone⟩
    rw [hm]
    exact ⟨hget, hmembers⟩
  | @headers r hkind h =>
    obtain ⟨hnone, hget, hmembers⟩ :=
      tagged_change HeaderRules.rewrites (by decide) hkind hnormal h
    refine ⟨⟨m, _, rfl, rfl, ?_⟩, normalize_of_mem_tagged hnone normalize_of_mem_fieldsOf,
      ofFields_headers (HeaderRules.rewrites.restores h) hnone⟩
    rw [hm]
    exact ⟨hget, hmembers⟩
  | blockExploits hkind hsize hget =>
    obtain rfl := ofFields_eq_blockExploits.1 hm
    refine ⟨⟨_, _, rfl, rfl, ?_⟩, hnormal, hm⟩
    rw [hm]
  | passthrough =>
    refine ⟨⟨m, m, rfl, rfl, ?_⟩, hnormal, hm⟩
    rw [hm]

theorem rewrites : Handler.codec.Rewrites change where
  restores {v handler} hv := by
    obtain ⟨m, hm, rfl⟩ := map_eq_ok.1 hv
    obtain ⟨-, hnormal, hof⟩ := change_toFields (normalize_of_reads_fields hm).2
    have hrestores := restores_of_ofFields hnormal hof
    rw [Codec.RestoresSorted]
    show Handler.codec.Reads (Json.ofDict _).normalize _
    rw [normalize_ofDict_of_forall hnormal]
    exact hrestores
  changes {v handler} hv := by
    obtain ⟨m, hm, rfl⟩ := map_eq_ok.1 hv
    obtain ⟨hform, hvalues⟩ := normalize_of_reads_fields hm
    obtain ⟨hchange, hnormal, -⟩ := change_toFields hvalues
    rw [hform]
    show change _ (Json.ofDict _).normalize
    rw [normalize_ofDict_of_forall hnormal]
    exact hchange
  null _ hnull := absurd hnull (normalize_ne_null nofun)

end Handler

/-! ## Servers and routes -/

def MatcherSet.fields : List Declared :=
  [⟨"host", .unlessEmpty (.array []), .list .same⟩,
   ⟨"path", .unlessEmpty (.array []), .list .same⟩]

theorem MatcherSet.rewrites : MatcherSet.codec.Rewrites (.object MatcherSet.fields) :=
  document_rewrites isSection isUnordered
    (.cons (isField_sparseArray rewrites_string ⟨fun _ _ => rfl, fun _ _ _ => rfl, rfl⟩) <|
      .cons (isField_sparseArray rewrites_string ⟨fun _ _ => rfl, fun _ _ _ => rfl, rfl⟩) .nil)
    (fun _ => rfl) fun _ => rfl

def Route.fields : List Declared :=
  [⟨"match", .unlessEmpty (.array []), .list (.object MatcherSet.fields)⟩,
   ⟨"handle", .always (.array []), .list Handler.change⟩,
   ⟨"terminal", .always (.bool false), .same⟩]

theorem Route.rewrites : Route.codec.Rewrites (.object Route.fields) :=
  document_rewrites isSection isUnordered
    (.cons (isField_sparseArray MatcherSet.rewrites ⟨fun _ _ => rfl, fun _ _ _ => rfl, rfl⟩) <|
      .cons (isField_array Handler.rewrites ⟨fun _ _ => rfl, fun _ _ _ => rfl, rfl⟩) <|
      .cons (isField_truth ⟨fun _ _ => rfl, fun _ _ _ => rfl, rfl⟩) .nil)
    (fun _ => rfl) fun _ => rfl

def ServerLogs.fields : List Declared := [⟨"default_logger_name", .optional, .same⟩]

theorem ServerLogs.rewrites : ServerLogs.codec.Rewrites (.object ServerLogs.fields) :=
  document_rewrites isSection isUnordered
    (.cons (.optional rewrites_string ⟨fun _ _ => rfl, fun _ _ _ => rfl, rfl⟩) .nil)
    (fun _ => rfl) fun _ => rfl

def AutoHttps.fields : List Declared :=
  [⟨"disable", .unlessEmpty (.bool false), .same⟩,
   ⟨"disable_redirects", .unlessEmpty (.bool false), .same⟩,
   ⟨"skip", .unlessEmpty (.array []), .list .same⟩]

theorem AutoHttps.rewrites : AutoHttps.codec.Rewrites (.object AutoHttps.fields) :=
  document_rewrites isSection isUnordered
    (.cons (isField_flag ⟨fun _ _ => rfl, fun _ _ _ => rfl, rfl⟩) <|
      .cons (isField_flag ⟨fun _ _ => rfl, fun _ _ _ => rfl, rfl⟩) <|
      .cons (isField_sparseArray rewrites_string ⟨fun _ _ => rfl, fun _ _ _ => rfl, rfl⟩) .nil)
    (fun _ => rfl) fun _ => rfl

def Server.fields : List Declared :=
  [⟨"listen", .always (.array []), .list .same⟩,
   ⟨"routes", .always (.array []), .list (.object Route.fields)⟩,
   ⟨"automatic_https", .optional, .object AutoHttps.fields⟩,
   ⟨"logs", .optional, .object ServerLogs.fields⟩,
   ⟨"tls_connection_policies", .optional, .same⟩]

theorem Server.rewrites : Server.codec.Rewrites (.object Server.fields) :=
  document_rewrites isSection isUnordered
    (.cons (isField_array rewrites_string ⟨fun _ _ => rfl, fun _ _ _ => rfl, rfl⟩) <|
      .cons (isField_array Route.rewrites ⟨fun _ _ => rfl, fun _ _ _ => rfl, rfl⟩) <|
      .cons (.optional AutoHttps.rewrites ⟨fun _ _ => rfl, fun _ _ _ => rfl, rfl⟩) <|
      .cons (.optional ServerLogs.rewrites ⟨fun _ _ => rfl, fun _ _ _ => rfl, rfl⟩) <|
      .cons (.optional rewrites_any ⟨fun _ _ => rfl, fun _ _ _ => rfl, rfl⟩) .nil)
    (fun _ => rfl) fun _ => rfl

def HttpApp.fields : List Declared :=
  [⟨"servers", .always (.object []), .dict (.object Server.fields)⟩]

theorem HttpApp.rewrites : HttpApp.codec.Rewrites (.object HttpApp.fields) :=
  document_rewrites isSection isUnordered
    (.cons (isField_dict Server.rewrites ⟨fun _ _ => rfl, fun _ _ _ => rfl, rfl⟩) .nil)
    (fun _ => rfl) fun _ => rfl

/-! ## Certificates -/

def AutomationPolicy.fields : List Declared :=
  [⟨"subjects", .unlessEmpty (.array []), .list .same⟩,
   ⟨"issuers", .unlessEmpty (.array []), .list (.dict .same)⟩]

theorem AutomationPolicy.rewrites :
    AutomationPolicy.codec.Rewrites (.object AutomationPolicy.fields) :=
  document_rewrites isSection isUnordered
    (.cons (isField_sparseArray rewrites_string ⟨fun _ _ => rfl, fun _ _ _ => rfl, rfl⟩) <|
      .cons (isField_sparseArray (rewrites_dict rewrites_any)
        ⟨fun _ _ => rfl, fun _ _ _ => rfl, rfl⟩) .nil)
    (fun _ => rfl) fun _ => rfl

def Automation.fields : List Declared :=
  [⟨"policies", .unlessEmpty (.array []), .list (.object AutomationPolicy.fields)⟩]

theorem Automation.rewrites : Automation.codec.Rewrites (.object Automation.fields) :=
  document_rewrites isSection isUnordered
    (.cons (isField_sparseArray AutomationPolicy.rewrites
        ⟨fun _ _ => rfl, fun _ _ _ => rfl, rfl⟩) .nil)
    (fun _ => rfl) fun _ => rfl

def TlsApp.fields : List Declared := [⟨"automation", .optional, .object Automation.fields⟩]

theorem TlsApp.rewrites : TlsApp.codec.Rewrites (.object TlsApp.fields) :=
  document_rewrites isSection isUnordered
    (.cons (.optional Automation.rewrites ⟨fun _ _ => rfl, fun _ _ _ => rfl, rfl⟩) .nil)
    (fun _ => rfl) fun _ => rfl

/-! ## Logging and storage -/

def LogWriter.fields : List Declared :=
  [⟨"output", .always (.string ""), .same⟩,
   ⟨"filename", .optional, .same⟩,
   ⟨"roll", .optional, .same⟩,
   ⟨"roll_size_mb", .optional, .same⟩,
   ⟨"roll_keep", .optional, .same⟩,
   ⟨"roll_keep_days", .optional, .same⟩]

theorem LogWriter.rewrites : LogWriter.codec.Rewrites (.object LogWriter.fields) :=
  document_rewrites isSection isUnordered
    (.cons (isField_text ⟨fun _ _ => rfl, fun _ _ _ => rfl, rfl⟩) <|
      .cons (.optional rewrites_string ⟨fun _ _ => rfl, fun _ _ _ => rfl, rfl⟩) <|
      .cons (.optional rewrites_bool ⟨fun _ _ => rfl, fun _ _ _ => rfl, rfl⟩) <|
      .cons (.optional (rewrites_nat _) ⟨fun _ _ => rfl, fun _ _ _ => rfl, rfl⟩) <|
      .cons (.optional (rewrites_nat _) ⟨fun _ _ => rfl, fun _ _ _ => rfl, rfl⟩) <|
      .cons (.optional (rewrites_nat _) ⟨fun _ _ => rfl, fun _ _ _ => rfl, rfl⟩) .nil)
    (fun _ => rfl) fun _ => rfl

def LogEncoder.fields : List Declared := [⟨"format", .always (.string ""), .same⟩]

theorem LogEncoder.rewrites : LogEncoder.codec.Rewrites (.object LogEncoder.fields) :=
  document_rewrites isSection isUnordered
    (.cons (isField_text ⟨fun _ _ => rfl, fun _ _ _ => rfl, rfl⟩) .nil)
    (fun _ => rfl) fun _ => rfl

def LogConfig.fields : List Declared :=
  [⟨"writer", .optional, .object LogWriter.fields⟩,
   ⟨"encoder", .optional, .object LogEncoder.fields⟩,
   ⟨"level", .optional, .same⟩,
   ⟨"include", .unlessEmpty (.array []), .list .same⟩]

theorem LogConfig.rewrites : LogConfig.codec.Rewrites (.object LogConfig.fields) :=
  document_rewrites isSection isUnordered
    (.cons (.optional LogWriter.rewrites ⟨fun _ _ => rfl, fun _ _ _ => rfl, rfl⟩) <|
      .cons (.optional LogEncoder.rewrites ⟨fun _ _ => rfl, fun _ _ _ => rfl, rfl⟩) <|
      .cons (.optional rewrites_string ⟨fun _ _ => rfl, fun _ _ _ => rfl, rfl⟩) <|
      .cons (isField_sparseArray rewrites_string ⟨fun _ _ => rfl, fun _ _ _ => rfl, rfl⟩) .nil)
    (fun _ => rfl) fun _ => rfl

def Logging.fields : List Declared :=
  [⟨"logs", .always (.object []), .dict (.object LogConfig.fields)⟩]

theorem Logging.rewrites : Logging.codec.Rewrites (.object Logging.fields) :=
  document_rewrites isSection isUnordered
    (.cons (isField_dict LogConfig.rewrites ⟨fun _ _ => rfl, fun _ _ _ => rfl, rfl⟩) .nil)
    (fun _ => rfl) fun _ => rfl

def Storage.fields : List Declared :=
  [⟨"module", .always (.string ""), .same⟩,
   ⟨"root", .always (.string ""), .same⟩]

theorem Storage.rewrites : Storage.codec.Rewrites (.object Storage.fields) :=
  document_rewrites isSection isUnordered
    (.cons (isField_text ⟨fun _ _ => rfl, fun _ _ _ => rfl, rfl⟩) <|
      .cons (isField_text ⟨fun _ _ => rfl, fun _ _ _ => rfl, rfl⟩) .nil)
    (fun _ => rfl) fun _ => rfl

/-! ## Documents -/

def Apps.fields : List Declared :=
  [⟨"http", .optional, .object HttpApp.fields⟩,
   ⟨"tls", .optional, .object TlsApp.fields⟩]

theorem Apps.rewrites : Apps.codec.Rewrites (.object Apps.fields) :=
  document_rewrites isSection isUnordered
    (.cons (.optional HttpApp.rewrites ⟨fun _ _ => rfl, fun _ _ _ => rfl, rfl⟩) <|
      .cons (.optional TlsApp.rewrites ⟨fun _ _ => rfl, fun _ _ _ => rfl, rfl⟩) .nil)
    (fun _ => rfl) fun _ => rfl

def Document.fields : List Declared :=
  [⟨"logging", .optional, .object Logging.fields⟩,
   ⟨"apps", .unlessEmpty (.object []), .object Apps.fields⟩,
   ⟨"storage", .optional, .object Storage.fields⟩]

theorem Apps.isEmpty_iff {a : Apps} : a.isEmpty = true ↔ a = Apps.empty :=
  ⟨eq_empty_of_isEmpty, fun h => h ▸ rfl⟩

/-- **A document that is read and written again** has changed only as its sections declare. -/
theorem Document.rewrites : Document.codec.Rewrites (.object Document.fields) :=
  document_rewrites isSection isUnordered
    (.cons (.optional Logging.rewrites ⟨fun _ _ => rfl, fun _ _ _ => rfl, rfl⟩) <|
      .cons (.unlessEmpty Apps.rewrites ⟨fun _ _ => rfl, fun _ _ _ => rfl, rfl⟩ rfl rfl
        fun _ => Apps.isEmpty_iff) <|
      .cons (.optional Storage.rewrites ⟨fun _ _ => rfl, fun _ _ _ => rfl, rfl⟩) .nil)
    (fun _ => rfl) fun _ => rfl

/-! ## Writing documents again -/

namespace Document

/-- The value that a document is written as. -/
def value (d : Document) : Json := (Document.codec.encode d).normalize

/-- A value that is read as a document and written again. -/
def rewrite (v : Json) : Except Json.Error Json := (Document.codec.ofValue v).map value

/-- A document that was read from anywhere is read again from what it is written as. -/
theorem ofValue_value {v : Json} {d : Document} (h : Document.codec.ofValue v = .ok d) :
    Document.codec.ofValue d.value = .ok d :=
  ofValue_eq_ok.2 (rewrites.restores (ofValue_eq_ok.1 h))

theorem rewrite_value {v w : Json} (h : rewrite v = .ok w) : rewrite w = .ok w := by
  obtain ⟨d, hd, rfl⟩ := map_eq_ok.1 h
  exact map_eq_ok.2 ⟨d, ofValue_value hd, rfl⟩

end Document

/-- An object that fits no known kind is carried along. -/
theorem Handler.toFields_ofFields {m : Dict Json}
    (hproxy : m.get? kindKey = some (.string "reverse_proxy") →
      ∀ p, ReverseProxy.codec.ofValue (.ofDict (m.erase kindKey)) ≠ .ok p)
    (hheaders : m.get? kindKey = some (.string "headers") →
      ∀ r, HeaderRules.codec.ofValue (.ofDict (m.erase kindKey)) ≠ .ok r) :
    (ofFields m).toFields = m := by
  have h := isReading_ofFields m
  generalize hm : ofFields m = handler at h
  cases h with
  | reverseProxy hkind h =>
    exact absurd (ofValue_eq_ok.2 h) (hproxy (get?_kindKey_of_kindOf hkind) _)
  | headers hkind h =>
    exact absurd (ofValue_eq_ok.2 h) (hheaders (get?_kindKey_of_kindOf hkind) _)
  | blockExploits _ _ _ => exact (ofFields_eq_blockExploits.1 hm).symm
  | passthrough => rfl

/-- **Nothing of a foreign document is lost when it is read and written again.**  What is written is
read as the same document, and differs from what was read only in declared fields, as the tables of
the sections allow.  A handler keeps its kind, its object is written as it was read unless it is of
a known kind that fits, and one object alone blocks common exploits. -/
theorem document_rewriting :
    (∀ v d, Document.codec.ofValue v = .ok d →
      Document.codec.ofValue d.value = .ok d ∧
        Change.object Document.fields v.normalize d.value) ∧
    (∀ v w, Document.rewrite v = .ok w → Document.rewrite w = .ok w) ∧
    ∀ m : Dict Json,
      (Handler.ofFields m).kind? = (m.get? "handler").bind Json.string? ∧
      ((m.get? "handler" = some (.string "reverse_proxy") →
          ∀ p, ReverseProxy.codec.ofValue (.ofDict (m.erase "handler")) ≠ .ok p) →
        (m.get? "handler" = some (.string "headers") →
          ∀ r, HeaderRules.codec.ofValue (.ofDict (m.erase "handler")) ≠ .ok r) →
        (Handler.ofFields m).toFields = m) ∧
      (Handler.ofFields m = .blockExploits ↔
        m = Dict.ofList [("handler", .string "vars"), ("block_exploits", .bool true)]) := by
  refine ⟨fun v d h => ?_, fun v w => Document.rewrite_value, fun m => ?_⟩
  · exact ⟨Document.ofValue_value h, Document.rewrites.changes (ofValue_eq_ok.1 h)⟩
  · exact ⟨Handler.kind?_ofFields m, Handler.toFields_ofFields, Handler.ofFields_eq_blockExploits⟩

/-- A document with members that nobody declares, fields that are `null` or empty, and handlers of
a known and of an unknown kind. -/
def foreignDocument : Json :=
  .object
    [("zone", .null),
     ("storage", .null),
     ("apps", .object [("http", .object [("servers", .object [("edge", .object
       [("routes", .array [.object
          [("match", .array []),
           ("handle", .array
             [.object [("handler", .string "encode"), ("minimum", .ofNat 512)],
              .object
                [("upstreams", .array [.object [("dial", .string "a:80"), ("weight", .ofNat 2)]]),
                 ("handler", .string "reverse_proxy"),
                 ("flush", .bool true)]]),
           ("group", .string "g")]]),
        ("idle", .ofNat 30)])])])])]

theorem document_rewriting_foreignDocument :
    ∃ d, Document.codec.ofValue foreignDocument = .ok d ∧
      Document.codec.ofValue d.value = .ok d ∧
      Change.object Document.fields foreignDocument.normalize d.value ∧
      Document.rewrite foreignDocument = .ok d.value ∧
      Document.rewrite d.value = .ok d.value ∧
      (Handler.ofFields (Dict.empty.insert "handler" (.string "encode"))).toFields =
        Dict.empty.insert "handler" (.string "encode") := by
  obtain ⟨hrewritten, hagain, hhandler⟩ := document_rewriting
  obtain ⟨hvalue, hchange⟩ := hrewritten foreignDocument _ rfl
  exact ⟨_, rfl, hvalue, hchange, rfl, hagain foreignDocument _ rfl,
    (hhandler _).2.1 (fun h => absurd h (by decide)) fun h => absurd h (by decide)⟩

end ProxyPlane
