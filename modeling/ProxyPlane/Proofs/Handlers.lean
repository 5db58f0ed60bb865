import ProxyPlane.Proofs.Acceptance
import ProxyPlane.Proofs.Document.Rewriting
import ProxyPlane.Proofs.Json.Selection

/-!
# Handlers of a value that is accepted

An object that does not fit the kind of handler it names is carried along as one of an unknown kind,
and fields that are absent have defaults.  Neither lets a reverse proxy that is not well formed pass
the validator.

## What is here

* `handlerPath`, where the handlers of a document stand.
* `IsUpstream`, `IsHeaderRules` and `IsProxy`, the shape of a reverse proxy.
* `Backend.isUpstream`, `HeaderRules.isHeaderRules` and so on: what is read as a section has its
  shape.
* `validateValue_handlers`: the handlers of a value that is accepted.
-/

set_option autoImplicit false
namespace ProxyPlane

open Json

/-! ## Shapes -/

/-- From a document to the handlers of its routes. -/
def handlerPath : List Step :=
  [.member "apps", .member "http", .member "servers", .members, .member "routes", .elements,
    .member "handle", .elements]

/-- A server to dial: the address can be split, and has a port. -/
structure IsUpstream (v : Json) : Prop where
  isObject : ∃ d : Dict Json, v = .ofDict d
  dial : ∃ dial host port, v.member? "dial" = some (.string dial) ∧ dial ≠ "" ∧
    Address.split dial = .ok (host, port) ∧ port ≠ ""

/-- Header fields with their values. -/
def IsHeaderSet (v : Json) : Prop :=
  ∃ d : Dict Json, v = .ofDict d ∧
    ∀ e ∈ d.entries, ∃ values : List String, e.2 = .array (values.map .string)

/-- Changes to a set of header fields. -/
structure IsHeaderOps (v : Json) : Prop where
  isObject : ∃ d : Dict Json, v = .ofDict d
  set : ∀ w, v.member? "set" = some w → IsHeaderSet w

/-- Changes to the header fields of requests and of responses, either of which may be absent. -/
structure IsHeaderRules (v : Json) : Prop where
  isObject : ∃ d : Dict Json, v = .ofDict d
  request : ∀ w, v.member? "request" = some w → w = .null ∨ IsHeaderOps w
  response : ∀ w, v.member? "response" = some w → w = .null ∨ IsHeaderOps w

/-- A reverse proxy with servers to dial. -/
structure IsProxy (v : Json) : Prop where
  upstreams : ∃ us, v.member? "upstreams" = some (.array us) ∧ us ≠ [] ∧ ∀ u ∈ us, IsUpstream u
  headers : ∀ w, v.member? "headers" = some w → w = .null ∨ IsHeaderRules w

/-! ## Sections inside handlers -/

variable {form x : Json} {path : List Step}

theorem HeaderOps.isHeaderOps {ops : HeaderOps} (h : HeaderOps.codec.ReadsForm form ops) :
    IsHeaderOps form where
  isObject := exists_of_readsForm_document h
  set w hw := by
    have hset : (Codec.dict (Codec.list Codec.string)).ReadsMember Dict.empty
        (form.member? "set") ops.set :=
      readsMember_unlessEmpty isSection isUnordered (.head _)
        ⟨fun _ _ => rfl, fun _ _ _ => rfl, rfl⟩ (.object []) rfl h
    obtain ⟨d, rfl, hd⟩ := exists_of_readsForm_dict (hset.readsForm hw)
    refine ⟨d, rfl, fun e he => ?_⟩
    obtain ⟨values, -, hvalues⟩ := hd e he
    exact ⟨values, eq_of_readsForm_strings hvalues⟩

theorem HeaderRules.isHeaderRules {rules : HeaderRules}
    (h : HeaderRules.codec.ReadsForm form rules) : IsHeaderRules form where
  isObject := exists_of_readsForm_document h
  request w hw := by
    have hrequest : HeaderOps.codec.option.ReadsMember none (form.member? "request")
        rules.request :=
      readsMember_optional isSection isUnordered (.head _)
        ⟨fun _ _ => rfl, fun _ _ _ => rfl, rfl⟩ h
    exact eq_null_or_of_readsForm_option (hrequest.readsForm hw) fun _ => HeaderOps.isHeaderOps
  response w hw := by
    have hresponse : HeaderOps.codec.option.ReadsMember none (form.member? "response")
        rules.response :=
      readsMember_optional isSection isUnordered (.tail _ (.head _))
        ⟨fun _ _ => rfl, fun _ _ _ => rfl, rfl⟩ h
    exact eq_null_or_of_readsForm_option (hresponse.readsForm hw) fun _ => HeaderOps.isHeaderOps

/-- A server whose address has a port is written with that address. -/
theorem Backend.isUpstream {b : Backend} (h : Backend.codec.ReadsForm form b)
    (hport : b.NamesPort) : IsUpstream form where
  isObject := exists_of_readsForm_document h
  dial := by
    obtain ⟨hne, host, port, hsplit, hport⟩ := hport
    have hdial : Codec.string.ReadsMember "" (form.member? "dial") b.dial :=
      readsMember_always isSection isUnordered (.head _)
        ⟨fun _ _ => rfl, fun _ _ _ => rfl, rfl⟩ (.string "") rfl h
    obtain ⟨w, hw, hdial⟩ := hdial.exists_of_ne hne
    rw [eq_of_readsForm_string hdial] at hw
    exact ⟨b.dial, host, port, hw, hne, hsplit, hport⟩

/-- A reverse proxy that has servers to dial is written as one. -/
theorem ReverseProxy.isProxy {p : ReverseProxy} (h : ReverseProxy.codec.ReadsForm form p)
    (hne : p.backends ≠ []) (hports : ∀ b ∈ p.backends, b.NamesPort) : IsProxy form where
  upstreams := by
    have hupstreams : (Codec.list Backend.codec).ReadsMember [] (form.member? "upstreams")
        p.backends :=
      readsMember_always isSection isUnordered (.head _)
        ⟨fun _ _ => rfl, fun _ _ _ => rfl, rfl⟩ (.array []) rfl h
    obtain ⟨w, hw, hupstreams⟩ := hupstreams.exists_of_ne hne
    obtain ⟨us, rfl, hus⟩ := exists_of_readsForm_list hupstreams
    refine ⟨us, hw, ?_, fun u hu => ?_⟩
    · rintro rfl
      exact hne (List.forall₂_nil_left_iff.1 hus)
    · obtain ⟨b, hb, hread⟩ := exists_of_mem_forall₂ hus.flip hu
      exact Backend.isUpstream hread (hports b hb)
  headers w hw := by
    have hheaders : HeaderRules.codec.option.ReadsMember none (form.member? "headers") p.headers :=
      readsMember_optional isSection isUnordered (.tail _ (.head _))
        ⟨fun _ _ => rfl, fun _ _ _ => rfl, rfl⟩ h
    exact eq_null_or_of_readsForm_option (hheaders.readsForm hw) fun _ =>
      HeaderRules.isHeaderRules

/-! ## Handlers -/

/-- The member that names the kind of a handler is not one of its section. -/
theorem IsProxy.of_erase {fields : Dict Json}
    (h : IsProxy (.ofDict (fields.erase Handler.kindKey))) : IsProxy (.ofDict fields) := by
  have hget : ∀ key, key ≠ Handler.kindKey →
      (Json.ofDict (fields.erase Handler.kindKey)).member? key =
        (Json.ofDict fields).member? key := by
    intro key hkey
    exact (Dict.get?_erase _ _ _).trans (if_neg hkey)
  obtain ⟨hupstreams, hheaders⟩ := h
  rw [hget "upstreams" (by decide)] at hupstreams
  rw [hget "headers" (by decide)] at hheaders
  exact ⟨hupstreams, hheaders⟩

/-- **An object whose handler is by the rules** names its kind, and it is a reverse proxy if it says
so. -/
theorem Handler.exists_kind_of_isSound {handler : Handler}
    (h : Handler.codec.ReadsForm form handler) (hsound : handler.IsSound) :
    ∃ fields kind, form = .ofDict fields ∧ Handler.codec.ofValue form = .ok handler ∧
      fields.get? Handler.kindKey = some (.string kind) ∧
      (kind = "reverse_proxy" → IsProxy form ∧ ∃ p, handler = .reverseProxy p) := by
  obtain ⟨v, rfl, hv⟩ := h
  obtain ⟨fields, hfields, rfl⟩ := map_eq_ok.1 hv
  obtain ⟨hform, hnormal⟩ := normalize_of_reads_fields hfields
  rw [hform]
  have hread : Handler.codec.ofValue (.ofDict fields) = .ok (ofFields fields) :=
    ofValue_eq_ok.2 (reads_ofDict hnormal)
  have hreading := isReading_ofFields fields
  generalize ofFields fields = handler at *
  cases hreading with
  | reverseProxy hkind hproxy =>
    refine ⟨fields, _, rfl, hread, get?_kindKey_of_kindOf hkind, fun _ => ⟨?_, _, rfl⟩⟩
    refine IsProxy.of_erase (ReverseProxy.isProxy ⟨_, ?_, hproxy⟩ hsound.1 hsound.2)
    exact normalize_ofDict_of_forall fun e he => hnormal e (List.mem_of_mem_filter he)
  | headers hkind hrules =>
    exact ⟨fields, _, rfl, hread, get?_kindKey_of_kindOf hkind, fun h => absurd h (by decide)⟩
  | blockExploits hkind hsize hblock =>
    exact ⟨fields, _, rfl, hread, get?_kindKey_of_kindOf hkind, fun h => absurd h (by decide)⟩
  | passthrough =>
    obtain ⟨kind, hkind, hne⟩ := hsound
    exact ⟨fields, kind, rfl, hread, hkind, fun h => absurd h hne⟩

/-! ## Documents -/

theorem Route.exists_handler {r : Route} (h : Route.codec.ReadsForm form r)
    (hx : x ∈ form.select [.member "handle", .elements]) :
    ∃ handler ∈ r.handle, Handler.codec.ReadsForm x handler := by
  have hhandle : (Codec.list Handler.codec).ReadsMember [] (form.member? "handle") r.handle :=
    readsMember_always isSection isUnordered (.tail _ (.head _))
      ⟨fun _ _ => rfl, fun _ _ _ => rfl, rfl⟩ (.array []) rfl h
  obtain ⟨w, hw, hx⟩ := hhandle.select hx
  obtain ⟨handler, hmem, w, hw, hx⟩ := exists_of_select_elements hw hx
  obtain rfl := List.mem_singleton.1 hx
  exact ⟨handler, hmem, hw⟩

theorem Server.exists_route {s : Server} (h : Server.codec.ReadsForm form s)
    (hx : x ∈ form.select (.member "routes" :: .elements :: path)) :
    ∃ r ∈ s.routes, ∃ form', Route.codec.ReadsForm form' r ∧ x ∈ form'.select path := by
  have hroutes : (Codec.list Route.codec).ReadsMember [] (form.member? "routes") s.routes :=
    readsMember_always isSection isUnordered (.tail _ (.head _))
      ⟨fun _ _ => rfl, fun _ _ _ => rfl, rfl⟩ (.array []) rfl h
  obtain ⟨w, hw, hx⟩ := hroutes.select hx
  exact exists_of_select_elements hw hx

theorem HttpApp.exists_server {http : HttpApp} (h : HttpApp.codec.ReadsForm form http)
    (hx : x ∈ form.select (.member "servers" :: .members :: path)) :
    ∃ e ∈ http.servers.entries, ∃ form',
      Server.codec.ReadsForm form' e.2 ∧ x ∈ form'.select path := by
  have hservers : (Codec.dict Server.codec).ReadsMember Dict.empty (form.member? "servers")
      http.servers :=
    readsMember_always isSection isUnordered (.head _)
      ⟨fun _ _ => rfl, fun _ _ _ => rfl, rfl⟩ (.object []) rfl h
  obtain ⟨w, hw, hx⟩ := hservers.select hx
  exact exists_of_select_members hw hx

theorem Document.exists_http {d : Document} (h : Document.codec.ReadsForm form d) {step : Step}
    (hx : x ∈ form.select (.member "apps" :: .member "http" :: step :: path)) :
    ∃ http, d.apps.http = some http ∧ ∃ form',
      HttpApp.codec.ReadsForm form' http ∧ x ∈ form'.select (step :: path) := by
  have happs : Apps.codec.ReadsMember Apps.empty (form.member? "apps") d.apps :=
    readsMember_unlessEmpty isSection isUnordered (.tail _ (.head _))
      ⟨fun _ _ => rfl, fun _ _ _ => rfl, rfl⟩ (.object []) rfl h
  obtain ⟨form, happs, hx⟩ := happs.select hx
  have hhttp : HttpApp.codec.option.ReadsMember none (form.member? "http") d.apps.http :=
    readsMember_optional Apps.isSection Apps.isUnordered (.head _)
      ⟨fun _ _ => rfl, fun _ _ _ => rfl, rfl⟩ happs
  obtain ⟨form, hhttp, hx⟩ := hhttp.select hx
  obtain ⟨http, hsome, hhttp⟩ := exists_of_select_option hhttp hx
  exact ⟨http, hsome, form, hhttp, hx⟩

/-- **Every handler of a value is one of its document.** -/
theorem Document.exists_handler {d : Document} (h : Document.codec.ReadsForm form d)
    (hx : x ∈ form.select handlerPath) :
    ∃ e ∈ d.servers, ∃ r ∈ e.2.routes, ∃ handler ∈ r.handle,
      Handler.codec.ReadsForm x handler := by
  obtain ⟨http, hhttp, form, h, hx⟩ := Document.exists_http h hx
  obtain ⟨e, he, form, h, hx⟩ := HttpApp.exists_server h hx
  obtain ⟨r, hr, form, h, hx⟩ := Server.exists_route h hx
  rw [servers, hhttp]
  exact ⟨e, he, r, hr, Route.exists_handler h hx⟩

theorem exists_of_validateValue {v : Json} (h : validateValue v = .ok ()) :
    ∃ d, Document.codec.ofValue v = .ok d ∧ validate d = .ok () := by
  rw [validateValue.eq_def] at h
  split at h
  · cases h
  · split at h
    · cases h
    · exact ⟨_, ‹_›, h⟩

/-- **The handlers of a value that is accepted.**  Each of them is an object that names its kind.
One that names itself a reverse proxy has servers to dial and fits its section, and the document has
it as a reverse proxy.  Of a member that stands twice the last one counts, which is what the normal
form of the value keeps. -/
theorem validateValue_handlers {v : Json} (h : validateValue v = .ok ()) :
    ∃ d, Document.codec.ofValue v = .ok d ∧ ∀ x ∈ v.normalize.select handlerPath,
      ∃ e ∈ d.servers, ∃ r ∈ e.2.routes, ∃ handler ∈ r.handle,
        ∃ fields kind, x = .ofDict fields ∧ Handler.codec.ofValue x = .ok handler ∧
          fields.get? Handler.kindKey = some (.string kind) ∧
          (kind = "reverse_proxy" → IsProxy x ∧ ∃ p, handler = .reverseProxy p) := by
  obtain ⟨d, hd, hvalid⟩ := exists_of_validateValue h
  refine ⟨d, hd, fun x hx => ?_⟩
  obtain ⟨e, he, r, hr, handler, hhandler, hread⟩ :=
    Document.exists_handler ⟨v, rfl, ofValue_eq_ok.1 hd⟩ hx
  have hsound := (isSound_of_validate hvalid e he).handlers r hr handler hhandler
  exact ⟨e, he, r, hr, handler, hhandler, Handler.exists_kind_of_isSound hread hsound⟩

/-- The object of a reverse proxy that adds a header field to what it sends. -/
def headedProxy : Json :=
  .object
    [("handler", .string "reverse_proxy"),
     ("headers", .object [("request", .object [("set", .object
      [("X-Edge", .array [.string "1"])])])]),
     ("upstreams", .array [.object [("dial", .string "10.0.0.1:80")]])]

/-- A value with a handler of a kind that nobody knows and a reverse proxy. -/
def headedDocument : Json :=
  let unknown := Json.object [("handler", .string "rewrite"), ("upstreams", .null)]
  let route := Json.object [("handle", .array [unknown, headedProxy])]
  let server := Json.object
    [("listen", .array [.string ":443"]), ("routes", .array [route])]
  .object [("apps", .object [("http", .object [("servers", .object [("edge", server)])])])]

theorem validateValue_handlers_headed :
    validateValue headedDocument = .ok () ∧ IsProxy headedProxy ∧
      ∃ p, Handler.codec.ofValue headedProxy = .ok (.reverseProxy p) := by
  have hvalid : validateValue headedDocument = .ok () := by decide +kernel
  have hmem : headedProxy ∈ headedDocument.normalize.select handlerPath := by decide +kernel
  obtain ⟨d, -, hall⟩ := validateValue_handlers hvalid
  obtain ⟨e, he, r, hr, handler, hhandler, fields, kind, hfields, hread, hkind, hproxy⟩ :=
    hall headedProxy hmem
  have hname : headedProxy.member? Handler.kindKey = some (.string kind) := by
    rw [hfields]
    exact hkind
  obtain ⟨hshape, p, rfl⟩ := hproxy (by cases hname; rfl)
  exact ⟨hvalid, hshape, p, hread⟩

end ProxyPlane
