import ProxyPlane.Document.Basic
import ProxyPlane.Proofs.Document.Handler

/-!
# Reading back documents

A document is restored from what its codec writes if its parts are: every section asks that of its
own parts, and that its unknown members are under other keys than the declared ones.

## What is here

* `MatcherSet.restores`, `Route.restores` and so on, from the leaves up to `Document.restores`.
-/

set_option autoImplicit false
namespace ProxyPlane

open Json

/-! ## Servers and routes -/

theorem MatcherSet.isSection : IsSection MatcherSet.empty MatcherSet.members (·.extra)
    fun e s => { s with extra := e } :=
  ⟨fun _ _ => rfl, fun _ => rfl, fun _ _ _ => rfl, rfl, by decide, rfl⟩

theorem restores_strings (xs : List String) : (Codec.list Codec.string).Restores xs :=
  restores_list fun s _ => restores_string s

theorem MatcherSet.restores (m : MatcherSet) (h : AreUnknown MatcherSet.members m.extra) :
    MatcherSet.codec.Restores m :=
  document_restores isSection
    (restoreAll_cons (Member.restore_unlessEmpty (restores_strings m.host)
        (fun _ => List.isEmpty_iff.1) rfl)
      (restoreAll_cons (Member.restore_unlessEmpty (restores_strings m.path)
        (fun _ => List.isEmpty_iff.1) rfl)
        (restoreAll_nil _ _))) rfl h rfl

theorem Route.isSection : IsSection Route.empty Route.members (·.extra)
    fun e s => { s with extra := e } :=
  ⟨fun _ _ => rfl, fun _ => rfl, fun _ _ _ => rfl, rfl, by decide, rfl⟩

theorem Route.restores (r : Route) (hmatchers : ∀ m ∈ r.matchers, MatcherSet.codec.Restores m)
    (hhandle : ∀ h ∈ r.handle, Handler.codec.Restores h)
    (h : AreUnknown Route.members r.extra) : Route.codec.Restores r :=
  document_restores isSection
    (restoreAll_cons (Member.restore_unlessEmpty (restores_list hmatchers)
        (fun _ => List.isEmpty_iff.1) rfl)
      (restoreAll_cons (Member.restore_always (restores_list hhandle))
        (restoreAll_cons (Member.restore_always (restores_bool r.terminal))
          (restoreAll_nil _ _)))) rfl h rfl

theorem ServerLogs.isSection : IsSection ServerLogs.empty ServerLogs.members (·.extra)
    fun e s => { s with extra := e } :=
  ⟨fun _ _ => rfl, fun _ => rfl, fun _ _ _ => rfl, rfl, by decide, rfl⟩

theorem ServerLogs.restores (l : ServerLogs) (h : AreUnknown ServerLogs.members l.extra) :
    ServerLogs.codec.Restores l :=
  document_restores isSection
    (restoreAll_cons (Member.restore_optional (fun s _ => ⟨restores_string s, nofun⟩) rfl)
      (restoreAll_nil _ _)) rfl h rfl

theorem AutoHttps.isSection : IsSection AutoHttps.empty AutoHttps.members (·.extra)
    fun e s => { s with extra := e } :=
  ⟨fun _ _ => rfl, fun _ => rfl, fun _ _ _ => rfl, rfl, by decide, rfl⟩

theorem eq_false_of_not {b : Bool} (h : (!b) = true) : b = false := by
  simpa using h

theorem AutoHttps.restores (a : AutoHttps) (h : AreUnknown AutoHttps.members a.extra) :
    AutoHttps.codec.Restores a :=
  document_restores isSection
    (restoreAll_cons (Member.restore_unlessEmpty (restores_bool a.disable)
        (fun _ => eq_false_of_not) rfl)
      (restoreAll_cons (Member.restore_unlessEmpty (restores_bool a.disableRedirects)
          (fun _ => eq_false_of_not) rfl)
        (restoreAll_cons (Member.restore_unlessEmpty (restores_strings a.skip)
            (fun _ => List.isEmpty_iff.1) rfl)
          (restoreAll_nil _ _)))) rfl h rfl

theorem Server.isSection : IsSection Server.empty Server.members (·.extra)
    fun e s => { s with extra := e } :=
  ⟨fun _ _ => rfl, fun _ => rfl, fun _ _ _ => rfl, rfl, by decide, rfl⟩

theorem Server.restores (s : Server) (hroutes : ∀ r ∈ s.routes, Route.codec.Restores r)
    (hhttps : ∀ a, s.automaticHttps = some a → AutoHttps.codec.Restores a)
    (hlogs : ∀ l, s.logs = some l → ServerLogs.codec.Restores l)
    (hpolicies : ∀ v, s.tlsConnectionPolicies = some v → v.normalize = v ∧ v ≠ .null)
    (h : AreUnknown Server.members s.extra) : Server.codec.Restores s :=
  document_restores isSection
    (restoreAll_cons (Member.restore_always (restores_strings s.listen))
      (restoreAll_cons (Member.restore_always (restores_list hroutes))
        (restoreAll_cons (Member.restore_optional (fun a ha => ⟨hhttps a ha, nofun⟩) rfl)
          (restoreAll_cons (Member.restore_optional (fun l hl => ⟨hlogs l hl, nofun⟩) rfl)
            (restoreAll_cons (Member.restore_optional
                (fun v hv => ⟨restores_any (hpolicies v hv).1, (hpolicies v hv).2⟩) rfl)
              (restoreAll_nil _ _)))))) rfl h rfl

theorem HttpApp.isSection : IsSection HttpApp.empty HttpApp.members (·.extra)
    fun e s => { s with extra := e } :=
  ⟨fun _ _ => rfl, fun _ => rfl, fun _ _ _ => rfl, rfl, by decide, rfl⟩

theorem HttpApp.restores (a : HttpApp)
    (hservers : ∀ e ∈ a.servers.entries, Server.codec.Restores e.2)
    (h : AreUnknown HttpApp.members a.extra) : HttpApp.codec.Restores a :=
  document_restores isSection
    (restoreAll_cons (Member.restore_always (restores_dict hservers)) (restoreAll_nil _ _))
    rfl h rfl

/-! ## Certificates -/

theorem AutomationPolicy.isSection : IsSection AutomationPolicy.empty AutomationPolicy.members
    (·.extra) fun e s => { s with extra := e } :=
  ⟨fun _ _ => rfl, fun _ => rfl, fun _ _ _ => rfl, rfl, by decide, rfl⟩

theorem AutomationPolicy.restores (p : AutomationPolicy)
    (hissuers : ∀ i ∈ p.issuers, ∀ e ∈ i.entries, e.2.normalize = e.2)
    (h : AreUnknown AutomationPolicy.members p.extra) : AutomationPolicy.codec.Restores p :=
  document_restores isSection
    (restoreAll_cons (Member.restore_unlessEmpty (restores_strings p.subjects)
        (fun _ => List.isEmpty_iff.1) rfl)
      (restoreAll_cons (Member.restore_unlessEmpty
          (restores_list fun i hi => restores_fields (hissuers i hi))
          (fun _ => List.isEmpty_iff.1) rfl)
        (restoreAll_nil _ _))) rfl h rfl

theorem Automation.isSection : IsSection Automation.empty Automation.members (·.extra)
    fun e s => { s with extra := e } :=
  ⟨fun _ _ => rfl, fun _ => rfl, fun _ _ _ => rfl, rfl, by decide, rfl⟩

theorem Automation.restores (a : Automation)
    (hpolicies : ∀ p ∈ a.policies, AutomationPolicy.codec.Restores p)
    (h : AreUnknown Automation.members a.extra) : Automation.codec.Restores a :=
  document_restores isSection
    (restoreAll_cons (Member.restore_unlessEmpty (restores_list hpolicies)
        (fun _ => List.isEmpty_iff.1) rfl)
      (restoreAll_nil _ _)) rfl h rfl

theorem TlsApp.isSection : IsSection TlsApp.empty TlsApp.members (·.extra)
    fun e s => { s with extra := e } :=
  ⟨fun _ _ => rfl, fun _ => rfl, fun _ _ _ => rfl, rfl, by decide, rfl⟩

theorem TlsApp.restores (a : TlsApp)
    (hautomation : ∀ x, a.automation = some x → Automation.codec.Restores x)
    (h : AreUnknown TlsApp.members a.extra) : TlsApp.codec.Restores a :=
  document_restores isSection
    (restoreAll_cons (Member.restore_optional (fun x hx => ⟨hautomation x hx, nofun⟩) rfl)
      (restoreAll_nil _ _)) rfl h rfl

/-! ## Logging and storage -/

theorem LogWriter.isSection : IsSection LogWriter.empty LogWriter.members (·.extra)
    fun e s => { s with extra := e } :=
  ⟨fun _ _ => rfl, fun _ => rfl, fun _ _ _ => rfl, rfl, by decide, rfl⟩

/-- A number that may be absent is written as it is. -/
theorem restores_small {bound n : Nat} (h : n < bound) :
    (Codec.nat bound).Restores n ∧ (Codec.nat bound).encode n ≠ .null :=
  ⟨restores_nat h, nofun⟩

theorem LogWriter.restores (w : LogWriter)
    (hsize : ∀ n, w.rollSizeMb = some n → n < Nat.pow 2 32)
    (hkeep : ∀ n, w.rollKeep = some n → n < Nat.pow 2 32)
    (hdays : ∀ n, w.rollKeepDays = some n → n < Nat.pow 2 32)
    (h : AreUnknown LogWriter.members w.extra) : LogWriter.codec.Restores w :=
  document_restores isSection
    (restoreAll_cons (Member.restore_always (restores_string w.output))
      (restoreAll_cons (Member.restore_optional (fun s _ => ⟨restores_string s, nofun⟩) rfl)
        (restoreAll_cons (Member.restore_optional (fun b _ => ⟨restores_bool b, nofun⟩) rfl)
          (restoreAll_cons (Member.restore_optional (fun n hn => restores_small (hsize n hn)) rfl)
            (restoreAll_cons
              (Member.restore_optional (fun n hn => restores_small (hkeep n hn)) rfl)
              (restoreAll_cons
                (Member.restore_optional (fun n hn => restores_small (hdays n hn)) rfl)
                (restoreAll_nil _ _))))))) rfl h rfl

theorem LogEncoder.isSection : IsSection LogEncoder.empty LogEncoder.members (·.extra)
    fun e s => { s with extra := e } :=
  ⟨fun _ _ => rfl, fun _ => rfl, fun _ _ _ => rfl, rfl, by decide, rfl⟩

theorem LogEncoder.restores (e : LogEncoder) (h : AreUnknown LogEncoder.members e.extra) :
    LogEncoder.codec.Restores e :=
  document_restores isSection
    (restoreAll_cons (Member.restore_always (restores_string e.format)) (restoreAll_nil _ _))
    rfl h rfl

theorem LogConfig.isSection : IsSection LogConfig.empty LogConfig.members (·.extra)
    fun e s => { s with extra := e } :=
  ⟨fun _ _ => rfl, fun _ => rfl, fun _ _ _ => rfl, rfl, by decide, rfl⟩

theorem LogConfig.restores (c : LogConfig)
    (hwriter : ∀ w, c.writer = some w → LogWriter.codec.Restores w)
    (hencoder : ∀ e, c.encoder = some e → LogEncoder.codec.Restores e)
    (h : AreUnknown LogConfig.members c.extra) : LogConfig.codec.Restores c :=
  document_restores isSection
    (restoreAll_cons (Member.restore_optional (fun w hw => ⟨hwriter w hw, nofun⟩) rfl)
      (restoreAll_cons (Member.restore_optional (fun e he => ⟨hencoder e he, nofun⟩) rfl)
        (restoreAll_cons (Member.restore_optional (fun s _ => ⟨restores_string s, nofun⟩) rfl)
          (restoreAll_cons (Member.restore_unlessEmpty (restores_strings c.loggers)
              (fun _ => List.isEmpty_iff.1) rfl)
            (restoreAll_nil _ _))))) rfl h rfl

theorem Logging.isSection : IsSection Logging.empty Logging.members (·.extra)
    fun e s => { s with extra := e } :=
  ⟨fun _ _ => rfl, fun _ => rfl, fun _ _ _ => rfl, rfl, by decide, rfl⟩

theorem Logging.restores (l : Logging)
    (hlogs : ∀ e ∈ l.logs.entries, LogConfig.codec.Restores e.2)
    (h : AreUnknown Logging.members l.extra) : Logging.codec.Restores l :=
  document_restores isSection
    (restoreAll_cons (Member.restore_always (restores_dict hlogs)) (restoreAll_nil _ _))
    rfl h rfl

theorem Storage.isSection : IsSection Storage.empty Storage.members (·.extra)
    fun e s => { s with extra := e } :=
  ⟨fun _ _ => rfl, fun _ => rfl, fun _ _ _ => rfl, rfl, by decide, rfl⟩

theorem Storage.restores (s : Storage) (h : AreUnknown Storage.members s.extra) :
    Storage.codec.Restores s :=
  document_restores isSection
    (restoreAll_cons (Member.restore_always (restores_string s.module))
      (restoreAll_cons (Member.restore_always (restores_string s.root)) (restoreAll_nil _ _)))
    rfl h rfl

/-! ## Documents -/

theorem Apps.isSection : IsSection Apps.empty Apps.members (·.extra)
    fun e s => { s with extra := e } :=
  ⟨fun _ _ => rfl, fun _ => rfl, fun _ _ _ => rfl, rfl, by decide, rfl⟩

theorem Apps.restores (a : Apps) (hhttp : ∀ x, a.http = some x → HttpApp.codec.Restores x)
    (htls : ∀ x, a.tls = some x → TlsApp.codec.Restores x)
    (h : AreUnknown Apps.members a.extra) : Apps.codec.Restores a :=
  document_restores isSection
    (restoreAll_cons (Member.restore_optional (fun x hx => ⟨hhttp x hx, nofun⟩) rfl)
      (restoreAll_cons (Member.restore_optional (fun x hx => ⟨htls x hx, nofun⟩) rfl)
        (restoreAll_nil _ _))) rfl h rfl

theorem Apps.eq_empty_of_isEmpty {a : Apps} (h : a.isEmpty = true) : a = Apps.empty := by
  obtain ⟨http, tls, extra⟩ := a
  simp only [isEmpty, Bool.and_eq_true, Option.isNone_iff_eq_none] at h
  obtain ⟨⟨rfl, rfl⟩, hextra⟩ := h
  rw [Dict.eq_empty_of_isEmpty hextra]
  rfl

theorem Document.isSection : IsSection Document.empty Document.members (·.extra)
    fun e s => { s with extra := e } :=
  ⟨fun _ _ => rfl, fun _ => rfl, fun _ _ _ => rfl, rfl, by decide, rfl⟩

/-- **A document is restored if its sections are.** -/
theorem Document.restores (d : Document)
    (hlogging : ∀ l, d.logging = some l → Logging.codec.Restores l)
    (happs : Apps.codec.Restores d.apps)
    (hstorage : ∀ s, d.storage = some s → Storage.codec.Restores s)
    (h : AreUnknown Document.members d.extra) : Document.codec.Restores d :=
  document_restores isSection
    (restoreAll_cons (Member.restore_optional (fun l hl => ⟨hlogging l hl, nofun⟩) rfl)
      (restoreAll_cons (Member.restore_unlessEmpty happs (fun _ => Apps.eq_empty_of_isEmpty) rfl)
        (restoreAll_cons (Member.restore_optional (fun s hs => ⟨hstorage s hs, nofun⟩) rfl)
          (restoreAll_nil _ _)))) rfl h rfl

end ProxyPlane
