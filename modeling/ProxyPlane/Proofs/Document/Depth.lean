import ProxyPlane.Document.Basic
import ProxyPlane.Proofs.Json.Order

/-!
# How deep documents are nested

Texts are scanned to a bounded depth only.  The sections of a document nest to a depth that is known
as soon as that of their unknown members is.

## What is here

* `fits_list`, `fits_dict` and `fits_normalize`, for the basic codecs and normal forms.
* `Member.Fits`, a bound on the depth of what a member writes, and `fits_document`.
* `MatcherSet.fits`, `Route.fits` and so on, up to `Document.fits`, each from the bounds of its
  parts.
-/

set_option autoImplicit false
namespace ProxyPlane

open Json

namespace Json

/-! ## Basic codecs -/

theorem fits_list {α : Type} {c : Codec α} {d : Nat} {xs : List α}
    (h : ∀ a ∈ xs, Fits d (c.encode a)) : Fits (d + 1) ((Codec.list c).encode xs) := by
  refine .array fun v hv => ?_
  obtain ⟨a, ha, rfl⟩ := List.mem_map.1 hv
  exact h a ha

theorem fits_dict {α : Type} {c : Codec α} {d : Nat} {x : Dict α}
    (h : ∀ e ∈ x.entries, Fits d (c.encode e.2)) : Fits (d + 1) ((Codec.dict c).encode x) := by
  refine .object fun e he => ?_
  obtain ⟨f, hf, rfl⟩ := List.mem_map.1 he
  exact h f hf

theorem fits_strings (d : Nat) (xs : List String) :
    Fits (d + 1) ((Codec.list Codec.string).encode xs) :=
  fits_list fun s _ => .string s

/-- Normal forms are not nested deeper. -/
theorem fits_normalize {d : Nat} {v : Json} (h : Fits d v) : Fits d v.normalize := by
  induction h with
  | null => exact .null
  | bool b => exact .bool b
  | int h => exact .int h
  | string s => exact .string s
  | array _ ih =>
    rw [normalize, normalizeItems_eq_map]
    refine .array fun v hv => ?_
    obtain ⟨w, hw, rfl⟩ := List.mem_map.1 hv
    exact ih w hw
  | object _ ih =>
    rw [normalize, normalizeMembers_eq_map]
    refine .object fun e he => ?_
    obtain ⟨f, hf, rfl⟩ := List.mem_map.1 (Dict.mem_ofList he)
    exact ih f hf

/-! ## Sections -/

section Section

variable {σ α : Type} {d : Nat} {s : σ}

/-- What the member writes for an object fits. -/
def Member.Fits (d : Nat) (m : Member σ) (s : σ) : Prop :=
  ∀ v, m.write s = some v → Json.Fits d v

theorem Member.fits_always {key : String} {c : Codec α} {get : σ → α} {set : α → σ → σ}
    (h : Json.Fits d (c.encode (get s))) : (always key c get set).Fits d s := by
  intro v hv
  cases hv
  exact h

theorem Member.fits_unlessEmpty {empty : α → Bool} {key : String} {c : Codec α} {get : σ → α}
    {set : α → σ → σ} (h : Json.Fits d (c.encode (get s))) :
    (unlessEmpty empty key c get set).Fits d s := by
  intro v hv
  simp only [unlessEmpty] at hv
  split at hv
  · cases hv
  · cases hv
    exact h

theorem Member.fits_optional {key : String} {c : Codec α} {get : σ → Option α}
    {set : Option α → σ → σ} (h : ∀ a, get s = some a → Json.Fits d (c.encode a)) :
    (optional key c get set).Fits d s := by
  intro v hv
  obtain ⟨a, ha, rfl⟩ := Option.map_eq_some_iff.1 hv
  exact h a ha

/-- **A section is nested one deeper than its members.** -/
theorem fits_document {start : σ} {members : List (Member σ)} {extra : σ → Dict Json}
    {setExtra : Dict Json → σ → σ} (h : ∀ m ∈ members, m.Fits d s)
    (hextra : ∀ e ∈ (extra s).entries, Json.Fits d e.2) :
    Json.Fits (d + 1) ((Codec.document start members extra setExtra).encode s) := by
  refine .object fun e he => ?_
  rcases List.mem_append.1 he with he | he
  · obtain ⟨m, hm, hw⟩ := List.mem_filterMap.1 he
    obtain ⟨v, hv, rfl⟩ := Option.map_eq_some_iff.1 hw
    exact h m hm v hv
  · exact hextra e he

end Section

end Json

/-- All values of the dictionary fit. -/
def Dict.Fits (d : Nat) (x : Dict Json) : Prop := ∀ e ∈ x.entries, Json.Fits d e.2

theorem Dict.fits_empty (d : Nat) : Dict.empty.Fits d := fun _ he => absurd he List.not_mem_nil

/-! ## Handlers -/

section Sections

variable {d : Nat}

theorem HeaderOps.fits {ops : HeaderOps} (h : ops.extra.Fits (d + 2)) :
    Fits (d + 3) (HeaderOps.codec.encode ops) :=
  fits_document (List.forall_mem_cons.2
    ⟨Member.fits_unlessEmpty (fits_dict fun e _ => fits_strings d e.2), List.forall_mem_nil _⟩) h

theorem HeaderRules.fits {r : HeaderRules}
    (hrequest : ∀ ops, r.request = some ops → Fits d (HeaderOps.codec.encode ops))
    (hresponse : ∀ ops, r.response = some ops → Fits d (HeaderOps.codec.encode ops))
    (h : r.extra.Fits d) : Fits (d + 1) (HeaderRules.codec.encode r) :=
  fits_document (List.forall_mem_cons.2 ⟨Member.fits_optional hrequest,
    List.forall_mem_cons.2 ⟨Member.fits_optional hresponse, List.forall_mem_nil _⟩⟩) h

theorem Backend.fits {b : Backend} (h : b.extra.Fits d) :
    Fits (d + 1) (Backend.codec.encode b) :=
  fits_document
    (List.forall_mem_cons.2 ⟨Member.fits_always (.string b.dial), List.forall_mem_nil _⟩) h

theorem ReverseProxy.fits {p : ReverseProxy}
    (hbackends : ∀ b ∈ p.backends, Fits d (Backend.codec.encode b))
    (hheaders : ∀ r, p.headers = some r → Fits (d + 1) (HeaderRules.codec.encode r))
    (htransport : ∀ v, p.transport = some v → Fits (d + 1) v) (h : p.extra.Fits (d + 1)) :
    Fits (d + 2) (ReverseProxy.codec.encode p) :=
  fits_document (List.forall_mem_cons.2 ⟨Member.fits_always (fits_list hbackends),
    List.forall_mem_cons.2 ⟨Member.fits_optional hheaders,
      List.forall_mem_cons.2 ⟨Member.fits_optional htransport, List.forall_mem_nil _⟩⟩⟩) h

namespace Handler

/-- The object of a known kind is not nested deeper than that of its members. -/
theorem fits_tagged {α : Type} {c : Codec α} {a : α} (kind : String)
    (h : Fits (d + 1) (c.encode a)) : Fits (d + 1) (.ofDict (tagged kind (fieldsOf c a))) := by
  refine .object fun e he => ?_
  rcases Dict.mem_foldl_insert he with he | he
  · rcases mem_insertEntry he with rfl | he
    · exact .string kind
    · exact absurd he List.not_mem_nil
  · rw [fieldsOf] at he
    have hnormal := fits_normalize h
    cases hv : (c.encode a).normalize with
    | object members =>
      rw [hv] at he hnormal
      cases hnormal with
      | object hmembers => exact hmembers e (Dict.mem_ofList he)
    | _ =>
      rw [hv] at he
      exact absurd he List.not_mem_nil

theorem fits_responseHeader (name value : String) :
    Fits (d + 5) (Handler.codec.encode (responseHeader name value)) := by
  refine fits_tagged "headers" (HeaderRules.fits nofun (fun ops hops => ?_) (Dict.fits_empty _))
  cases hops
  exact HeaderOps.fits (Dict.fits_empty _)

theorem fits_blockExploits : Fits (d + 5) (Handler.codec.encode .blockExploits) := by
  refine .object fun e he => ?_
  rcases Dict.mem_foldl_insert he with he | he
  · rcases mem_insertEntry he with rfl | he
    · exact .string _
    · exact absurd he List.not_mem_nil
  · obtain rfl := List.mem_singleton.1 he
    exact .bool true

theorem fits_proxyTo (dial : String) (upgrade tls : Bool) :
    Fits (d + 5) (Handler.codec.encode (proxyTo dial upgrade tls)) := by
  refine fits_tagged "reverse_proxy" (ReverseProxy.fits ?_ ?_ ?_ (Dict.fits_empty _))
  · intro b hb
    obtain rfl := List.mem_singleton.1 hb
    exact Backend.fits (Dict.fits_empty _)
  · intro r hr
    cases upgrade with
    | false => exact absurd hr nofun
    | true =>
      cases hr
      refine HeaderRules.fits (fun ops hops => ?_) nofun (Dict.fits_empty _)
      cases hops
      exact HeaderOps.fits (Dict.fits_empty _)
  · intro v hv
    cases tls with
    | false => exact absurd hv nofun
    | true =>
      cases hv
      refine .object fun e he => ?_
      simp only [List.mem_cons, List.not_mem_nil, or_false] at he
      rcases he with rfl | rfl
      · exact .string "http"
      · exact .object nofun

end Handler

/-! ## Servers and routes -/

theorem MatcherSet.fits {m : MatcherSet} (h : m.extra.Fits (d + 1)) :
    Fits (d + 2) (MatcherSet.codec.encode m) :=
  fits_document (List.forall_mem_cons.2 ⟨Member.fits_unlessEmpty (fits_strings d m.host),
    List.forall_mem_cons.2
      ⟨Member.fits_unlessEmpty (fits_strings d m.path), List.forall_mem_nil _⟩⟩) h

theorem Route.fits {r : Route} (hmatchers : ∀ m ∈ r.matchers, Fits d (MatcherSet.codec.encode m))
    (hhandle : ∀ h ∈ r.handle, Fits d (Handler.codec.encode h)) (h : r.extra.Fits (d + 1)) :
    Fits (d + 2) (Route.codec.encode r) :=
  fits_document (List.forall_mem_cons.2 ⟨Member.fits_unlessEmpty (fits_list hmatchers),
    List.forall_mem_cons.2 ⟨Member.fits_always (fits_list hhandle),
      List.forall_mem_cons.2 ⟨Member.fits_always (.bool r.terminal), List.forall_mem_nil _⟩⟩⟩) h

theorem ServerLogs.fits {l : ServerLogs} (h : l.extra.Fits d) :
    Fits (d + 1) (ServerLogs.codec.encode l) :=
  fits_document (List.forall_mem_cons.2 ⟨Member.fits_optional fun s _ => .string s,
    List.forall_mem_nil _⟩) h

theorem AutoHttps.fits {a : AutoHttps} (h : a.extra.Fits (d + 1)) :
    Fits (d + 2) (AutoHttps.codec.encode a) :=
  fits_document (List.forall_mem_cons.2 ⟨Member.fits_unlessEmpty (.bool a.disable),
    List.forall_mem_cons.2 ⟨Member.fits_unlessEmpty (.bool a.disableRedirects),
      List.forall_mem_cons.2 ⟨Member.fits_unlessEmpty (fits_strings d a.skip),
        List.forall_mem_nil _⟩⟩⟩) h

theorem Server.fits {s : Server} (hroutes : ∀ r ∈ s.routes, Fits d (Route.codec.encode r))
    (hhttps : ∀ a, s.automaticHttps = some a → Fits (d + 1) (AutoHttps.codec.encode a))
    (hlogs : ∀ l, s.logs = some l → Fits (d + 1) (ServerLogs.codec.encode l))
    (hpolicies : ∀ v, s.tlsConnectionPolicies = some v → Fits (d + 1) v)
    (h : s.extra.Fits (d + 1)) : Fits (d + 2) (Server.codec.encode s) :=
  fits_document (List.forall_mem_cons.2 ⟨Member.fits_always (fits_strings d s.listen),
    List.forall_mem_cons.2 ⟨Member.fits_always (fits_list hroutes),
      List.forall_mem_cons.2 ⟨Member.fits_optional hhttps,
        List.forall_mem_cons.2 ⟨Member.fits_optional hlogs,
          List.forall_mem_cons.2 ⟨Member.fits_optional hpolicies, List.forall_mem_nil _⟩⟩⟩⟩⟩) h

theorem HttpApp.fits {a : HttpApp}
    (hservers : ∀ e ∈ a.servers.entries, Fits d (Server.codec.encode e.2))
    (h : a.extra.Fits (d + 1)) : Fits (d + 2) (HttpApp.codec.encode a) :=
  fits_document (List.forall_mem_cons.2 ⟨Member.fits_always (fits_dict hservers),
    List.forall_mem_nil _⟩) h

/-! ## Certificates -/

theorem AutomationPolicy.fits {p : AutomationPolicy} (hissuers : ∀ i ∈ p.issuers, i.Fits d)
    (h : p.extra.Fits (d + 2)) : Fits (d + 3) (AutomationPolicy.codec.encode p) :=
  fits_document (List.forall_mem_cons.2 ⟨Member.fits_unlessEmpty (fits_strings (d + 1) p.subjects),
    List.forall_mem_cons.2 ⟨Member.fits_unlessEmpty
      (fits_list fun i hi => fits_dict fun e he => hissuers i hi e he), List.forall_mem_nil _⟩⟩) h

theorem Automation.fits {a : Automation}
    (hpolicies : ∀ p ∈ a.policies, Fits d (AutomationPolicy.codec.encode p))
    (h : a.extra.Fits (d + 1)) : Fits (d + 2) (Automation.codec.encode a) :=
  fits_document (List.forall_mem_cons.2 ⟨Member.fits_unlessEmpty (fits_list hpolicies),
    List.forall_mem_nil _⟩) h

theorem TlsApp.fits {a : TlsApp}
    (hautomation : ∀ x, a.automation = some x → Fits d (Automation.codec.encode x))
    (h : a.extra.Fits d) : Fits (d + 1) (TlsApp.codec.encode a) :=
  fits_document (List.forall_mem_cons.2 ⟨Member.fits_optional hautomation, List.forall_mem_nil _⟩) h

/-! ## Logging and storage -/

theorem fits_nat {bound n : Nat} (h : n < Nat.pow 2 32) :
    Fits d ((Codec.nat bound).encode n) := by
  have hbounds : Nat.pow 2 32 ≤ Nat.pow 2 64 := by decide
  exact .int (by omega)

theorem LogWriter.fits {w : LogWriter} (hsize : ∀ n, w.rollSizeMb = some n → n < Nat.pow 2 32)
    (hkeep : ∀ n, w.rollKeep = some n → n < Nat.pow 2 32)
    (hdays : ∀ n, w.rollKeepDays = some n → n < Nat.pow 2 32)
    (h : w.extra.Fits d) : Fits (d + 1) (LogWriter.codec.encode w) :=
  fits_document (List.forall_mem_cons.2 ⟨Member.fits_always (.string w.output),
    List.forall_mem_cons.2 ⟨Member.fits_optional fun s _ => .string s,
      List.forall_mem_cons.2 ⟨Member.fits_optional fun b _ => .bool b,
        List.forall_mem_cons.2 ⟨Member.fits_optional fun n hn => fits_nat (hsize n hn),
          List.forall_mem_cons.2 ⟨Member.fits_optional fun n hn => fits_nat (hkeep n hn),
            List.forall_mem_cons.2 ⟨Member.fits_optional fun n hn => fits_nat (hdays n hn),
              List.forall_mem_nil _⟩⟩⟩⟩⟩⟩) h

theorem LogEncoder.fits {e : LogEncoder} (h : e.extra.Fits d) :
    Fits (d + 1) (LogEncoder.codec.encode e) :=
  fits_document (List.forall_mem_cons.2 ⟨Member.fits_always (.string e.format),
    List.forall_mem_nil _⟩) h

theorem LogConfig.fits {c : LogConfig}
    (hwriter : ∀ w, c.writer = some w → Fits (d + 1) (LogWriter.codec.encode w))
    (hencoder : ∀ e, c.encoder = some e → Fits (d + 1) (LogEncoder.codec.encode e))
    (h : c.extra.Fits (d + 1)) : Fits (d + 2) (LogConfig.codec.encode c) :=
  fits_document (List.forall_mem_cons.2 ⟨Member.fits_optional hwriter,
    List.forall_mem_cons.2 ⟨Member.fits_optional hencoder,
      List.forall_mem_cons.2 ⟨Member.fits_optional fun s _ => .string s,
        List.forall_mem_cons.2 ⟨Member.fits_unlessEmpty (fits_strings d c.loggers),
          List.forall_mem_nil _⟩⟩⟩⟩) h

theorem Logging.fits {l : Logging}
    (hlogs : ∀ e ∈ l.logs.entries, Fits d (LogConfig.codec.encode e.2))
    (h : l.extra.Fits (d + 1)) : Fits (d + 2) (Logging.codec.encode l) :=
  fits_document (List.forall_mem_cons.2 ⟨Member.fits_always (fits_dict hlogs),
    List.forall_mem_nil _⟩) h

theorem Storage.fits {s : Storage} (h : s.extra.Fits d) :
    Fits (d + 1) (Storage.codec.encode s) :=
  fits_document (List.forall_mem_cons.2 ⟨Member.fits_always (.string s.module),
    List.forall_mem_cons.2 ⟨Member.fits_always (.string s.root), List.forall_mem_nil _⟩⟩) h

/-! ## Documents -/

theorem Apps.fits {a : Apps} (hhttp : ∀ x, a.http = some x → Fits d (HttpApp.codec.encode x))
    (htls : ∀ x, a.tls = some x → Fits d (TlsApp.codec.encode x))
    (h : a.extra.Fits d) : Fits (d + 1) (Apps.codec.encode a) :=
  fits_document (List.forall_mem_cons.2 ⟨Member.fits_optional hhttp,
    List.forall_mem_cons.2 ⟨Member.fits_optional htls, List.forall_mem_nil _⟩⟩) h

/-- **A document is nested one deeper than its sections.** -/
theorem Document.fits {x : Document}
    (hlogging : ∀ l, x.logging = some l → Fits d (Logging.codec.encode l))
    (happs : Fits d (Apps.codec.encode x.apps))
    (hstorage : ∀ s, x.storage = some s → Fits d (Storage.codec.encode s))
    (h : x.extra.Fits d) : Fits (d + 1) (Document.codec.encode x) :=
  fits_document (List.forall_mem_cons.2 ⟨Member.fits_optional hlogging,
    List.forall_mem_cons.2 ⟨Member.fits_unlessEmpty happs,
      List.forall_mem_cons.2 ⟨Member.fits_optional hstorage, List.forall_mem_nil _⟩⟩⟩) h

end Sections

end ProxyPlane
