import ProxyPlane.Admin
import ProxyPlane.Proofs.Compile
import ProxyPlane.Proofs.Document.Rewriting
import ProxyPlane.Proofs.Snapshot.Save
import ProxyPlane.Proofs.Text.Trim
import ProxyPlane.Validation

/-!
# Reading compiled documents back

A compiled document leaves the program as the body of a request and as the file of a snapshot.  What
comes back from the proxy or from a snapshot is the same document, so that everything that is
computed of it is the same as well.

## What is here

* `trimWhile_compact`: the compact text of an object has no blanks at its ends.
* `validateValue_value`: a document and the value that it is written as are judged alike.
* `ReadsBack text d`: all that is read from the text of a document.
* `AdminClient.current_eq_ok` and `SnapshotDir.load_eq_ok`: the two ways back into the program.
* `compile_readsBack`: a compiled document survives all ways out of the program and back.
-/

set_option autoImplicit false
namespace ProxyPlane

open Json

/-! ## Texts of objects -/

theorem exists_joinedTail (gap last : Bytes) (close : UInt8) (texts : List Bytes) :
    ∃ bs, joinedTail gap last close texts = bs ++ [close] := by
  induction texts with
  | nil => exact ⟨last, rfl⟩
  | cons t texts ih =>
    obtain ⟨bs, hbs⟩ := ih
    refine ⟨0x2C :: (gap ++ t ++ bs), ?_⟩
    rw [joinedTail, hbs, List.cons_append, List.append_assoc (gap ++ t)]

/-- The members of an object are closed by a brace. -/
theorem exists_compactMembers (ms : List (String × Json)) :
    ∃ bs, compactMembers ms = bs ++ [0x7D] := by
  cases ms with
  | nil => exact ⟨[], rfl⟩
  | cons e ms =>
    obtain ⟨bs, hbs⟩ := exists_joinedTail [] [] 0x7D (ms.map fun e => memberText e.1 e.2.compact)
    exact ⟨memberText e.1 e.2.compact ++ bs, by rw [compactMembers_cons, hbs, List.append_assoc]⟩

/-- **The compact text of an object has no blanks at its ends.** -/
theorem trimWhile_compact {p : UInt8 → Bool} (hopen : p 0x7B = false) (hclose : p 0x7D = false)
    (ms : List (String × Json)) :
    trimWhile p (Json.object ms).compact = (Json.object ms).compact := by
  obtain ⟨bs, hbs⟩ := exists_compactMembers ms
  rw [Json.compact, hbs, trimWhile_of_ends hopen hclose]

/-! ## What is read from a text -/

/-- A document and the value that it is written as are judged alike. -/
theorem validateValue_value {d : Document} (h : Document.codec.ofValue d.value = .ok d) :
    validateValue d.value = validate d := by
  rw [validateValue]
  · simp only [h]
  · exact nofun

/-- The document is read from the text, with its compact text, its digest and its verdict; read as a
value of any shape, the text gives the value of the document, and that has the same verdict. -/
structure ReadsBack (text : Bytes) (d : Document) : Prop where
  decoded : Document.decode text = .ok d
  same : ∀ c, Document.decode text = .ok c →
    c = d ∧ c.compact = d.compact ∧ c.digest = d.digest ∧ validate c = validate d
  value : Codec.any.decode text = .ok d.value
  verdict : ∀ v, Codec.any.decode text = .ok v → validateValue v = validate d

theorem readsBack_of_scan {text : Bytes} {d : Document} (h : Document.codec.Restores d)
    (hscan : scan text = (Scan.ofJson (Document.codec.encode d), .ok [])) : ReadsBack text d := by
  have hdecoded : Document.decode text = .ok d := decode_of_scan h hscan
  have hvalue : Codec.any.decode text = .ok d.value := by
    rw [Codec.decode, hscan]
    simp only [Codec.any, readAny_ofJson]
    rfl
  refine ⟨hdecoded, fun c hc => ?_, hvalue, fun v hv => ?_⟩
  · obtain rfl := Except.ok.inj (hdecoded.symm.trans hc)
    exact ⟨rfl, rfl, rfl, rfl⟩
  · obtain rfl := Except.ok.inj (hvalue.symm.trans hv)
    exact validateValue_value (ofValue_eq_ok.2 (Document.rewrites.restores h))

/-! ## The ways back into the program -/

theorem AdminClient.documentOf_compact {d : Document} (h : Document.decode d.compact = .ok d) :
    AdminClient.documentOf d.compact = .ok d := by
  have htrim : trimWhile isAsciiBlank d.compact = d.compact := trimWhile_compact rfl rfl _
  have hempty : ¬(d.compact.isEmpty = true ∨ d.compact = Utf8.encode "null") := by
    rintro (hnil | hnull)
    · exact absurd hnil nofun
    · have hhead : some (0x7B : UInt8) = some 0x6E := congrArg List.head? hnull
      exact absurd hhead (by decide)
  rw [documentOf, htrim]
  simp only [if_neg hempty, h]

variable {σ : Type}

/-- What the proxy was sent is what it runs, if it answers with the body that it was sent. -/
theorem AdminClient.current_eq_ok {d : Document} (h : Document.decode d.compact = .ok d)
    (c : AdminClient) (answer : {β : Type} → AdminOp β → σ → β × σ) (w : σ) {r : Response}
    (hreply : (answer (.send c.currentRequest) w).1 = .ok r)
    (hsuccess : HttpStatus.isSuccess r.status = true)
    (hbody : r.body = .ok (c.loadRequest d).body) : (c.current.run answer w).1 = .ok d := by
  have hchecked : checked (.ok r) = .ok r := if_pos hsuccess
  simp only [current, Program.bind_eq, Program.run_bind, Program.run_perform, Program.pure_eq,
    Program.run_done, hreply, hchecked, hbody]
  exact documentOf_compact h

/-- The document of a snapshot is what was written there. -/
theorem SnapshotDir.load_eq_ok {d : Document} (h : Document.decode d.pretty = .ok d)
    (s : SnapshotDir) (seq : Nat) (answer : {β : Type} → FileOp β → σ → β × σ) (w : σ)
    (hread : (answer (.read (s.pathFor seq)) w).1 = .ok d.pretty) :
    ((s.load seq).run.run answer w).1 = .ok d := by
  simp only [load, ExceptT.run, ExceptT.mk, Files.read, Program.bind_eq, Program.run_bind,
    Program.run_perform, Program.pure_eq, Program.run_done, hread, h]

/-! ## Compiled documents -/

section Compiled

variable {records : List RoutingRecord} {root email : String} {d : Document}

/-- Everything that is read from the two texts of a compiled document. -/
theorem readsBack_compile (h : compile records root email = .ok d) :
    ReadsBack d.compact d ∧ ReadsBack d.pretty d :=
  ⟨readsBack_of_scan (restores_compile h) (scan_compact (fits_compile h)),
    readsBack_of_scan (restores_compile h) (scan_pretty (fits_compile h))⟩

/-- **A compiled document survives every way out of the program and back.**  Its two texts are read
as the document, and with it everything that is computed of it.  A proxy that answers with the body
that it was sent is found to run the document, a snapshot file with its indented text holds it, and
a snapshot that was kept is loaded again. -/
theorem compile_readsBack (h : compile records root email = .ok d) :
    (∀ text ∈ [d.compact, d.pretty], ReadsBack text d) ∧
    (∀ {σ : Type} (answer : {β : Type} → AdminOp β → σ → β × σ) (w : σ) (c : AdminClient)
        (r : Response), (answer (.send c.currentRequest) w).1 = .ok r →
      HttpStatus.isSuccess r.status = true → r.body = .ok (c.loadRequest d).body →
      (c.current.run answer w).1 = .ok d) ∧
    (∀ {σ : Type} (answer : {β : Type} → FileOp β → σ → β × σ) (w : σ) (s : SnapshotDir) (n : Nat),
      (answer (.read (s.pathFor n)) w).1 = .ok d.pretty →
      ((s.load n).run.run answer w).1 = .ok d) ∧
    ∀ (s : SnapshotDir) (t t' : FileTree) (v : Snapshot), s.dir ≠ "" → s.IsBelowLimit t →
      (s.save d).on t = (.ok v, t') → (s.load v.seq).on t' = (.ok d, t') := by
  obtain ⟨hcompact, hpretty⟩ := readsBack_compile h
  refine ⟨fun text htext => ?_, fun answer w c r => c.current_eq_ok hcompact.decoded answer w,
    fun answer w s n => s.load_eq_ok hpretty.decoded n answer w,
    fun s t t' v hne hlimit hsave => ?_⟩
  · rcases List.mem_pair.1 htext with rfl | rfl
    · exact hcompact
    · exact hpretty
  · rcases s.on_save_cases hne hlimit d with ⟨e, u, herror, -⟩ | ⟨n, u, es, marker, hok, hkeeps, hn⟩
    · cases herror.symm.trans hsave
    · cases hok.symm.trans hsave
      exact hkeeps.on_load (Nat.le_of_lt hn) hpretty.decoded

end Compiled

/-- A record that uses all kinds of handlers, with a path rule. -/
def guardedRecords : List RoutingRecord :=
  [{ RoutingRecord.create "r1" "a.example" "10.0.0.1" 8080 with
     blockExploits := true
     hstsEnabled := true
     websocketSupport := true
     locations := [⟨"/api", "https", "::1", 8443⟩] }]

theorem isBelowLimit_empty : (SnapshotDir.below "/etc/proxy").IsBelowLimit FileTree.empty where
  listed := by
    intro snapshots hsnapshots v hv
    have hnone : ((SnapshotDir.below "/etc/proxy").list.on FileTree.empty).1 = .ok [] := rfl
    cases hnone.symm.trans hsnapshots
    exact absurd hv List.not_mem_nil
  marker := nofun

/-- A proxy that answers every request with these bytes. -/
def answerWith (body : Bytes) {β : Type} : AdminOp β → Unit → β × Unit
  | .send _, w => (.ok ⟨200, .ok body⟩, w)

/-- Files of which every one holds these bytes. -/
def readsAs (contents : Bytes) {β : Type} : FileOp β → FileTree → β × FileTree
  | .read _, w => (.ok contents, w)
  | op, w => FileTree.answer op w

theorem compile_readsBack_guarded :
    ∃ d, compile guardedRecords "/var/lib/proxy/storage" "ops@a.example" = .ok d ∧
      ReadsBack d.compact d ∧
      ((AdminClient.mk "http://localhost:2019").current.run (answerWith d.compact) ()).1 = .ok d ∧
      (((SnapshotDir.below "/etc/proxy").load 7).run.run (readsAs d.pretty) FileTree.empty).1 =
        .ok d ∧
      ∃ v t', ((SnapshotDir.below "/etc/proxy").save d).on FileTree.empty = (.ok v, t') ∧
        ((SnapshotDir.below "/etc/proxy").load v.seq).on t' = (.ok d, t') := by
  have hcompile : compile guardedRecords "/var/lib/proxy/storage" "ops@a.example" = .ok _ := rfl
  obtain ⟨htexts, hproxy, hfile, hkept⟩ := compile_readsBack hcompile
  refine ⟨_, hcompile, htexts _ List.mem_cons_self,
    hproxy (answerWith _) () ⟨"http://localhost:2019"⟩ _ rfl rfl rfl,
    hfile (readsAs _) FileTree.empty _ 7 rfl, ?_⟩
  have hproper : (SnapshotDir.below "/etc/proxy").IsProper :=
    SnapshotDir.isProper_below (by decide)
  have hlimit : SnapshotDir.nextIn [] none ≤ Nat.pow 2 64 :=
    SnapshotDir.nextIn_le _ (fun k hk => SnapshotDir.lt_of_mem_numbersIn hk) nofun (by decide)
  obtain ⟨t', hsave, -⟩ := SnapshotDir.on_save_ok hproper (t := FileTree.empty)
    (.inr ⟨rfl, rfl⟩) ⟨_, rfl⟩ rfl hlimit
    ⟨SnapshotDir.isFree_none, SnapshotDir.isFree_none⟩ _
  exact ⟨_, t', hsave, hkept _ _ _ _ (by decide) isBelowLimit_empty hsave⟩

end ProxyPlane
