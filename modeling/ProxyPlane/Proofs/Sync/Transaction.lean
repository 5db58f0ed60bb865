import ProxyPlane.Proofs.Sync.Runs

/-!
# The proxy runs what was accepted

A cycle whose document the proxy takes replaces what it runs.  Any other cycle either leaves that as
it is, restores it, or says that nobody knows.

## What is here

* `Transacts`, what the proxy runs after a cycle, by how the cycle ended.
* `Follows.transacts`: every cycle of a run does so.
* `transactional_apply`: as long as no rollback failed, the proxy runs the last document it took.
-/

set_option autoImplicit false
namespace ProxyPlane

open SnapshotDir SnapshotProgram

section Transaction

variable {σ : Type} (answers : {β : Type} → StoreOp β → σ → β × σ)

/-- What the proxy runs after a cycle, by how the cycle ended. -/
@[irreducible]
def Transacts (past : List (Cycle σ)) (c : Cycle σ) : Prop :=
  match c.outcome answers with
  | .ok _ =>
    ∃ d, c.rendered answers = .ok d ∧ (c.after answers).proxy.running = d.compact
  | .error (.rolledBack _ _) =>
    ∃ g r, lastTaken? answers past = some g ∧ g.sent answers = [r] ∧
      (c.after answers).proxy.running = r.body
  | .error (.rollbackFailed _ _) => True
  | .error _ => (c.after answers).proxy.running = c.before.proxy.running

variable {answers} {s : SnapshotDir} {start w : Plant σ} {past cycles : List (Cycle σ)}
  {c : Cycle σ} {es : Entries}

/-- **A rollback restores the last document that was taken.** -/
theorem restored_spec {m : SyncManager} {t t' : FileTree} {d : Document} {n : Nat}
    {marker : Option Nat} {last : Option (Cycle σ)} {p p' : Proxy} {target : Nat}
    (hlkg : m.rollbackTarget = .lastKnownGood)
    (hkeeps : m.snapshots.Keeps t d n t' es marker) (hremembers : Remembers answers es last)
    (hback : RollsBack m n t' p (.ok target) p') :
    ∃ g r, last = some g ∧ g.sent answers = [r] ∧ p'.running = r.body := by
  have hlater := hremembers.of_keeps hkeeps
  have hmarker := hkeeps.markerOf
  cases hback with
  | @restored target d' hseq hload htaken =>
    rw [SyncManager.rollbackSeq, hlkg] at hseq
    simp only at hseq
    rw [on_lastGood hkeeps.proper hkeeps.after.orAbsent, hmarker] at hseq
    cases hseq
    -- there is no marker until a document is taken
    cases last with
    | none =>
      rw [SnapshotDir.markerOf, show List.lookup markerName _ = none from hlater] at hmarker
      cases hmarker
    | some g =>
      obtain ⟨k, dg, hk⟩ := hlater
      obtain ⟨hkt, hksmall⟩ := hk.marker_eq hmarker
      cases hkt
      rw [SnapshotDir.on_load hkeeps.proper hkeeps.after.orAbsent hk.small,
        documentOf_of_lookup hk.readable hk.file] at hload
      cases hload
      exact ⟨g, _, rfl, hk.sent, Proxy.running_after m.client _ htaken⟩

/-- **What the proxy runs after one more cycle.** -/
theorem Follows.transacts (h : Follows answers s start past w c)
    (hlkg : c.manager.rollbackTarget = .lastKnownGood) (htidy : Tidy s w.files es)
    (hremembers : Remembers answers es (lastTaken? answers past)) : Transacts answers past c := by
  obtain ⟨outcome, w', houtcome, hafter, hends⟩ := c.ends answers
  rw [Transacts, houtcome, hafter]
  obtain ⟨-, hdir, -, hfiles, -⟩ := h
  subst hdir
  rw [← hfiles] at htidy
  cases hends with
  | @unrendered e _ hrender hrendering =>
    cases e with
    | store source => rfl
    | compile source => rfl
    | validation source => rfl
    | snapshot source => rfl
    | rolledBack restored source => exact absurd hrendering id
    | rollbackFailed source cause => trivial
  | unsaved hrender hrendering hsave => rfl
  | @taken d _ kept t hrender hrendering hsave hpush =>
    exact ⟨d, by rw [Cycle.rendered, hrender], Proxy.running_after c.manager.client d hpush⟩
  | @untaken d _ kept t e r p hrender hrendering hsave hpush hback =>
    cases r with
    | error cause => trivial
    | ok target =>
      obtain ⟨n, marker, rfl, hkeeps, -⟩ := htidy.keeps_of_on_save hsave
      exact restored_spec hlkg hkeeps hremembers hback

/-- **What the proxy runs after a cycle whose document it did not take**, as long as the rollback
does not fail. -/
theorem Transacts.running_of_untaken (h : Transacts answers past c)
    (huntaken : c.isTaken answers = false)
    (hknown : ∀ e cause, c.outcome answers ≠ .error (.rollbackFailed e cause)) {g : Cycle σ}
    {r : Request} (hlast : lastTaken? answers past = some g) (hsent : g.sent answers = [r])
    (hbefore : c.before.proxy.running = r.body) : (c.after answers).proxy.running = r.body := by
  rw [Transacts] at h
  cases houtcome : c.outcome answers with
  | ok report =>
    rw [Cycle.isTaken, houtcome] at huntaken
    cases huntaken
  | error failure =>
    rw [houtcome] at h
    cases failure with
    | store source => exact h.trans hbefore
    | compile source => exact h.trans hbefore
    | validation source => exact h.trans hbefore
    | snapshot source => exact h.trans hbefore
    | rollbackFailed source cause => exact absurd houtcome (hknown source cause)
    | rolledBack restored source =>
      obtain ⟨g', r', hg', hsent', hrestored⟩ := h
      cases hlast.symm.trans hg'
      cases hsent.symm.trans hsent'
      exact hrestored

/-- Every cycle of a run. -/
theorem IsRun.transacts (hrun : IsRun answers s start cycles w) (htidy : Tidy s start.files [])
    (hlkg : ∀ c ∈ cycles, c.manager.rollbackTarget = .lastKnownGood)
    {later : List (Cycle σ)} (hcycles : cycles = past ++ c :: later) :
    Transacts answers past c := by
  obtain ⟨w₀, hfollows⟩ := hrun.exists_follows hcycles
  obtain ⟨es, hes, hremembers⟩ := hfollows.run.remembers htidy
  exact hfollows.transacts (hlkg c (by simp [hcycles])) hes hremembers

/-- What the proxy runs as long as no rollback failed. -/
theorem IsRun.running (hrun : IsRun answers s start cycles w) (htidy : Tidy s start.files [])
    (hlkg : ∀ c ∈ cycles, c.manager.rollbackTarget = .lastKnownGood)
    {earlier later : List (Cycle σ)} {g : Cycle σ} (hcycles : cycles = earlier ++ g :: later)
    (hg : g.isTaken answers = true)
    (hlater : ∀ c ∈ later, c.isTaken answers = false ∧
      ∀ e cause, c.outcome answers ≠ .error (.rollbackFailed e cause)) :
    ∃ r, g.sent answers = [r] ∧ w.proxy.running = r.body := by
  induction hrun generalizing later with
  | nil => exact absurd hcycles (by simp)
  | @snoc past w c hpast hdir hkeep hfiles hrunning ih =>
    have hfollows : Follows answers s start past w c := ⟨hpast, hdir, hkeep, hfiles, hrunning⟩
    obtain ⟨es, hes, hremembers⟩ := hpast.remembers htidy
    have htransacts := hfollows.transacts (hlkg c (by simp)) hes hremembers
    rcases List.eq_nil_or_concat later with rfl | ⟨rest, x, rfl⟩
    · -- the last cycle is the one whose document was taken
      obtain ⟨-, hc⟩ := List.append_inj' hcycles rfl
      cases hc
      obtain ⟨es', -, hlast⟩ := hfollows.remembers hes hremembers
      rw [lastTaken?_concat, if_pos hg] at hlast
      obtain ⟨n, d, hremembered⟩ := hlast
      obtain ⟨report, hreport, -⟩ := hremembered.outcome
      rw [Transacts, hreport] at htransacts
      obtain ⟨d', hd', htaken⟩ := htransacts
      cases hremembered.rendered.symm.trans hd'
      exact ⟨_, hremembered.sent, htaken⟩
    · -- it came earlier, and the last cycle left what the proxy runs or restored it
      rw [List.concat_eq_append] at hcycles hlater
      rw [← List.cons_append, ← List.append_assoc] at hcycles
      obtain ⟨rfl, hc⟩ := List.append_inj' hcycles rfl
      cases hc
      obtain ⟨r, hsent, hbody⟩ := ih (fun x hx => hlkg x (List.mem_append_left _ hx)) rfl
        fun x hx => hlater x (List.mem_append_left _ hx)
      obtain ⟨huntaken, hknown⟩ := hlater c (by simp)
      have hlast : lastTaken? answers (earlier ++ g :: rest) = some g :=
        lastTaken?_split hg fun x hx => (hlater x (List.mem_append_left _ hx)).1
      exact ⟨r, hsent,
        htransacts.running_of_untaken huntaken hknown hlast hsent (hrunning.trans hbody)⟩

/-- **The proxy runs what was accepted.**  Over a directory that is not there at first and that only
cycles write, each cycle leaves the proxy running its own document, the last one that was taken, or
what it ran before; and as long as no rollback failed, the proxy runs the body of the last cycle
whose document it took. -/
theorem transactional_apply {configDir : String}
    (habsent : (FileTree.answer (.isPresent (SnapshotDir.below configDir).dir) start.files).1 =
      false)
    (hmake : (FileTree.answer (.makeDirs (SnapshotDir.below configDir).dir) start.files).1 = .ok ())
    (hrun : IsRun answers (SnapshotDir.below configDir) start cycles w)
    (hlkg : ∀ c ∈ cycles, c.manager.rollbackTarget = .lastKnownGood) :
    (∀ past c later, cycles = past ++ c :: later → Transacts answers past c) ∧
    ∀ earlier g later, cycles = earlier ++ g :: later → g.isTaken answers = true →
      (∀ c ∈ later, c.isTaken answers = false ∧
        ∀ e cause, c.outcome answers ≠ .error (.rollbackFailed e cause)) →
      ∃ r, g.sent answers = [r] ∧ w.proxy.running = r.body := by
  have htidy := tidy_of_absent (below_dir_ne_empty configDir) habsent hmake
  refine ⟨fun past c later hcycles => hrun.transacts htidy hlkg hcycles, ?_⟩
  intro earlier g later hcycles hg hlater
  exact hrun.running htidy hlkg hcycles hg hlater

theorem transactional_apply_secondCycle :
    Transacts MemoryStore.answer [firstCycle] secondCycle ∧
      ∃ r, firstCycle.sent MemoryStore.answer = [r] ∧
        (firstCycle.after MemoryStore.answer).proxy.running = r.body := by
  have hsecond : ∀ c ∈ [firstCycle, secondCycle], c.manager.rollbackTarget = .lastKnownGood := by
    intro c hc
    rcases List.mem_pair.1 hc with hc | hc
    · rw [hc]
      rfl
    · rw [hc]
      rfl
  have hfirst : ∀ c ∈ [firstCycle], c.manager.rollbackTarget = .lastKnownGood := by
    intro c hc
    rw [List.mem_singleton.1 hc]
    rfl
  have hruns := transactional_apply absent_ofFiles_empty makeDirs_ofFiles_empty isRun_secondCycle
    hsecond
  have hrun := transactional_apply absent_ofFiles_empty makeDirs_ofFiles_empty isRun_firstCycle
    hfirst
  refine ⟨hruns.1 [firstCycle] secondCycle [] rfl, ?_⟩
  refine hrun.2 [] firstCycle [] rfl isTaken_firstCycle fun c hc => ?_
  exact absurd hc List.not_mem_nil

end Transaction
end ProxyPlane
