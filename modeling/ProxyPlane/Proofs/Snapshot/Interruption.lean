import ProxyPlane.Proofs.Interruption
import ProxyPlane.Proofs.Snapshot.Prune

/-!
# Snapshots when a program is stopped

A program on snapshots may be stopped anywhere, also while a file is being written or directories
are being made.  Half a file only ever stands under the name that a file has while it is written.

## What is here

* `FileTree.Torn`, how a tree can look while an operation is going on.
* `SnapshotProgram.Leaves`, the trees that a program leaves when it is stopped; `Leaves.of_bind`.
* `Wrote`, what writing a file can leave; `exists_of_leaves_writeAtomic`, `exists_of_leaves_save`
  and `exists_of_leaves_prune`.
* `Sound`, what holds of the entries whatever was stopped; `Sound.wrote_file`, `Sound.wrote_marker`
  and `Sound.without`.
-/

set_option autoImplicit false
namespace ProxyPlane

/-! ## Operations that are going on -/

/-- How a tree can look while an operation is going on.  Directories are made one after the other
and files are written from their start; a file is renamed or removed in one instant. -/
def FileTree.Torn : {β : Type} → FileOp β → FileTree → FileTree → Prop
  | _, .makeDirs path, t, t' =>
    ∃ names k, names? path = .ok names ∧ t.makeDirs (names.take k) = .ok t'
  | _, .write path contents, t, t' => ∃ k, t.store path (fun _ => contents.take k) = .ok t'
  | _, .append path contents, t, t' =>
    ∃ k, t.store path (fun old => old ++ contents.take k) = .ok t'
  | _, .copy source target, t, t' =>
    ∃ contents k, t.read source = .ok contents ∧
      t.store target (fun _ => contents.take k) = .ok t'
  | _, _, _, _ => False

namespace SnapshotProgram

variable {α β : Type} {t t' : FileTree}

/-- The trees that a program leaves when it is stopped. -/
def Leaves (p : SnapshotProgram α) (t t' : FileTree) : Prop :=
  p.run.Stops FileTree.answer FileTree.Torn (fun _ _ => ([] : List Empty)) t [] t'

theorem leaves_here (p : SnapshotProgram α) (t : FileTree) : p.Leaves t t := .here p.run t

/-- **A program may come to its end.** -/
theorem leaves_on (p : SnapshotProgram α) (t : FileTree) : p.Leaves t (p.on t).2 := by
  have h : p.run.Stops FileTree.answer FileTree.Torn (fun _ _ => ([] : List Empty)) t
    (p.run.trace FileTree.answer (fun _ _ => []) t) (p.on t).2 := Program.stops_run p.run t
  rwa [Subsingleton.elim (Program.trace _ _ _ _) []] at h

theorem Leaves.of_pure {a : α} (h : (pure a : SnapshotProgram α).Leaves t t') : t' = t :=
  (Program.Stops.of_done h).2

/-- **A program and what follows it** are stopped in the program, or in what follows once the
program succeeded. -/
theorem Leaves.of_bind {p : SnapshotProgram α} {f : α → SnapshotProgram β}
    (h : (p >>= f).Leaves t t') :
    p.Leaves t t' ∨ ∃ a t₁, p.on t = (.ok a, t₁) ∧ (f a).Leaves t₁ t' := by
  have hend := leaves_on p t
  rcases Program.Stops.of_bind h with hfirst | ⟨later, hheard, hlater⟩
  · exact .inl hfirst
  · obtain ⟨-, rfl⟩ := List.append_eq_nil_iff.1 hheard.symm
    change Program.Stops _ _ _ (ExceptT.bindCont f (p.on t).1) (p.on t).2 [] t' at hlater
    cases hrun : p.on t with
    | mk r t₁ =>
      rw [hrun] at hlater hend
      cases r with
      | ok a => exact .inr ⟨a, t₁, rfl, hlater⟩
      | error e =>
        obtain ⟨-, rfl⟩ := Program.Stops.of_done hlater
        exact .inl hend

/-- Only the result is changed after the program. -/
theorem Leaves.of_bind_pure {p : SnapshotProgram α} {g : α → β}
    (h : (p >>= fun a => pure (g a)).Leaves t t') : p.Leaves t t' := by
  rcases h.of_bind with hfirst | ⟨a, t₁, hrun, hlater⟩
  · exact hfirst
  · rw [hlater.of_pure]
    have hend := leaves_on p t
    rwa [hrun] at hend

/-- A single operation is not begun, going on, or over. -/
theorem Leaves.of_orFail {path : String} {op : FileOp (Except IoError α)}
    (h : (SnapshotDir.orFail path (.perform op)).Leaves t t') :
    t' = t ∨ FileTree.Torn op t t' ∨ t' = ((SnapshotDir.orFail path (.perform op)).on t).2 := by
  rcases Program.Stops.of_step_done h with ⟨-, hsame | htorn⟩ | ⟨-, hend⟩
  · exact .inl hsame
  · exact .inr (.inl htorn)
  · exact .inr (.inr hend)

/-- Reading changes nothing. -/
theorem Leaves.eq_of_reading {e : FileOp β} {g : β → Except SnapshotError α}
    (h : Leaves (ExceptT.mk (.step e fun b => .done (g b))) t t') (htorn : ¬FileTree.Torn e t t')
    (hend : (FileTree.answer e t).2 = t) : t' = t := by
  rcases Program.Stops.of_step_done h with ⟨-, hsame | hbroken⟩ | ⟨-, hover⟩
  · exact hsame
  · exact absurd hbroken htorn
  · exact hover.trans hend

end SnapshotProgram

namespace SnapshotDir

open SnapshotProgram

variable {s : SnapshotDir} {t t' : FileTree} {es es' : Entries}

/-! ## Reading -/

theorem eq_of_leaves_list (h : s.list.Leaves t t') : t' = t :=
  Leaves.eq_of_reading (e := .list s.dir) h id rfl

theorem eq_of_leaves_lastGood (h : s.lastGood.Leaves t t') : t' = t :=
  Leaves.eq_of_reading (e := .read s.markerPath) h id rfl

/-! ## Making the directory -/

/-- The entries are the same as long as making the directory comes out the same. -/
theorem HoldsOrAbsent.of_makeDirs_eq (h : s.HoldsOrAbsent t es) (hmake : s.CanMake t)
    (heq : t'.makeDirs (Path.segments s.dir) = t.makeDirs (Path.segments s.dir)) :
    s.HoldsOrAbsent t' es ∧ s.CanMake t' := by
  obtain ⟨u, hu⟩ := hmake
  have hu' := heq.trans hu
  obtain ⟨es₁, hfind₁, hbefore₁⟩ := FileTree.find_makeDirs hu
  obtain ⟨es₂, hfind₂, hbefore₂⟩ := FileTree.find_makeDirs hu'
  obtain rfl : es₁ = es₂ := Holds.unique hfind₁ hfind₂
  obtain rfl : es = es₁ := h.unique hbefore₁
  exact ⟨hbefore₂, u, hu'⟩

/-- **The directory may be made in part**, and has the same entries. -/
theorem holdsOrAbsent_of_leaves_makeDirs (hs : s.IsProper) (h : s.HoldsOrAbsent t es)
    (hmake : s.CanMake t) (hleaves : (orFail s.dir (Files.makeDirs s.dir)).Leaves t t') :
    s.HoldsOrAbsent t' es ∧ s.CanMake t' := by
  rcases hleaves.of_orFail with rfl | ⟨names, k, hnames, hmade⟩ | hover
  · exact ⟨h, hmake⟩
  · cases hs.names.symm.trans hnames
    exact h.of_makeDirs_eq hmake (FileTree.makeDirs_take hmade)
  · obtain ⟨t₁, hmade, h₁⟩ := on_makeDirs hs h hmake
    rw [Files.makeDirs] at hmade
    rw [hover, hmade]
    exact ⟨h₁.orAbsent, h₁.canMake⟩

/-! ## Writing -/

/-- What writing a file can leave: nothing, some contents under the name that the file has while it
is written, or the whole file in its place. -/
inductive Wrote (name : String) (contents : Bytes) (es : Entries) : Entries → Prop
  | nothing : Wrote name contents es es
  | part (written : Bytes) :
    Wrote name contents es (FileTree.place (temporaryName name) (some (.file written)) es)
  | whole : Wrote name contents es (replaceFile name contents es)

theorem Wrote.allFiles {name : String} {contents : Bytes} (h : Wrote name contents es es')
    (hfiles : AllFiles es) : AllFiles es' := by
  cases h with
  | nothing => exact hfiles
  | part written =>
    intro j
    rw [FileTree.lookup_place]
    split
    · exact isFree_file written
    · exact hfiles j
  | whole => exact allFiles_replaceFile hfiles name contents

/-- **A file is never seen half written** under its own name. -/
theorem exists_of_leaves_writeAtomic (hs : s.IsProper) (h : s.Holds t es) {name : String}
    (hname : Path.IsName name) (hlength : name.toList.length ≤ 58) (hfree : CanReplace name es)
    {contents : Bytes} (hleaves : (writeAtomic (Path.join s.dir name) contents).Leaves t t') :
    ∃ es', s.Holds t' es' ∧ Wrote name contents es es' := by
  have htemporary := FileTree.leadsTo_withFileName hname hs.noNul (isName_temporaryName hname)
    (not_isTooLong (by rw [length_temporaryName]; omega))
  obtain ⟨t₁, hwrite, h₁⟩ := FileTree.answer_write htemporary h hfree.2 contents
  obtain ⟨t₂, hwhole, h₂⟩ := on_writeAtomic hs h hname hlength hfree contents
  rw [writeAtomic] at hleaves hwhole
  simp only [Path.fileName?_join s.dir hname, Option.getD_some, Files.write, Files.rename]
    at hleaves hwhole
  rcases hleaves.of_bind with hwriting | ⟨u, t₃, hwritten, hrenaming⟩
  · rcases hwriting.of_orFail with rfl | ⟨k, hpart⟩ | hover
    · exact ⟨es, h, .nothing⟩
    · obtain ⟨t₃, hanswer, h₃⟩ := FileTree.answer_write htemporary h hfree.2 (contents.take k)
      rw [FileTree.answer, hpart] at hanswer
      cases hanswer
      exact ⟨_, h₃, .part (contents.take k)⟩
    · rw [hover, on_orFail_ok hwrite]
      exact ⟨_, h₁, .part contents⟩
  · rw [on_bind_ok hwritten] at hwhole
    cases (on_orFail_ok hwrite).symm.trans hwritten
    rcases hrenaming.of_orFail with rfl | hbroken | hover
    · exact ⟨_, h₁, .part contents⟩
    · exact absurd hbroken id
    · rw [hover, hwhole]
      exact ⟨_, h₂, .whole⟩

/-- **A snapshot is kept as a whole or not at all.** -/
theorem exists_of_leaves_save (hs : s.IsProper) (h : s.HoldsOrAbsent t es) (hmake : s.CanMake t)
    (hfiles : AllFiles es) {marker : Option Nat} (hmarker : s.markerOf es = .ok marker)
    (hlimit : nextIn es marker ≤ Nat.pow 2 64) {d : Document}
    (hleaves : (s.save d).Leaves t t') :
    ∃ es', s.HoldsOrAbsent t' es' ∧ s.CanMake t' ∧
      Wrote (fileName (nextIn es marker)) d.pretty es es' := by
  have hlength := length_fileName_le hlimit
  obtain ⟨t₁, hmade, h₁⟩ := on_makeDirs hs h hmake
  rcases hleaves.of_bind with hmaking | ⟨u, t₂, hon, hleaves⟩
  · obtain ⟨hholds, hcan⟩ := holdsOrAbsent_of_leaves_makeDirs hs h hmake hmaking
    exact ⟨es, hholds, hcan, .nothing⟩
  cases hmade.symm.trans hon
  rcases hleaves.of_bind with hlisting | ⟨snapshots, t₂, hon, hleaves⟩
  · rw [eq_of_leaves_list hlisting]
    exact ⟨es, h₁.orAbsent, h₁.canMake, .nothing⟩
  cases (on_list hs h₁.orAbsent).symm.trans hon
  rcases hleaves.of_bind with hreading | ⟨marked, t₂, hon, hleaves⟩
  · rw [eq_of_leaves_lastGood hreading]
    exact ⟨es, h₁.orAbsent, h₁.canMake, .nothing⟩
  rw [on_lastGood hs h₁.orAbsent, hmarker] at hon
  cases hon
  simp only [nextSeq_eq] at hleaves
  obtain ⟨es', h', hwrote⟩ := exists_of_leaves_writeAtomic hs h₁ (isName_fileName _) hlength
    (hfiles.canReplace _) hleaves.of_bind_pure
  exact ⟨es', h'.orAbsent, h'.canMake, hwrote⟩

/-- **A number is marked or it is not.** -/
theorem exists_of_leaves_markGood (hs : s.IsProper) (h : s.Holds t es) (hfiles : AllFiles es)
    {seq : Nat} (hleaves : (s.markGood seq).Leaves t t') :
    ∃ es', s.Holds t' es' ∧ Wrote markerName (Utf8.encode (Numeral.write seq)) es es' :=
  exists_of_leaves_writeAtomic hs h isName_marker (by decide) (hfiles.canReplace _) hleaves

/-! ## Removing -/

/-- **Some of the files are gone**, from the first on. -/
theorem exists_of_leaves_removeAll (hs : s.IsProper) (h : s.Holds t es) (names : List String)
    (hnames : ∀ n ∈ names, Path.IsName n) (gone : List Snapshot)
    (hgone : gone.map (·.path) = names.map (Path.join s.dir))
    (hleaves : (removeAll gone).Leaves t t') :
    ∃ done rest, names = done ++ rest ∧ s.Holds t' (without done es) := by
  -- files go one after the other: wherever it stops, those that are gone come first
  induction names generalizing t es gone with
  | nil =>
    rw [List.map_nil, List.map_eq_nil_iff] at hgone
    subst hgone
    rw [hleaves.of_pure]
    exact ⟨[], [], rfl, by rwa [without_nil]⟩
  | cons name names ih =>
    cases gone with
    | nil => cases hgone
    | cons v gone =>
      obtain ⟨hfirst, hgone⟩ := List.cons.inj hgone
      have hname := hnames name List.mem_cons_self
      have hpath : v.path = Path.join s.dir name := hfirst
      have hleads : FileTree.names? v.path = .ok (Path.segments s.dir ++ [name]) := by
        rw [hpath, FileTree.names?_join hname hs.noNul]
      have hunchanged : ∃ done rest, name :: names = done ++ rest ∧ s.Holds t (without done es) :=
        ⟨[], name :: names, rfl, by rwa [without_nil]⟩
      rw [removeAll, Files.remove] at hleaves
      rcases FileTree.answer_remove_cases hleads h with ⟨t₁, hremove, h₁⟩ | ⟨e, hremove⟩
      · rcases hleaves.of_bind with hremoving | ⟨u, t₂, hon, hleaves⟩
        · rcases hremoving.of_orFail with rfl | hbroken | hover
          · exact hunchanged
          · exact absurd hbroken id
          · rw [hover, on_orFail_ok hremove]
            refine ⟨[name], names, rfl, ?_⟩
            rwa [← without_place_none, without_nil]
        · cases (on_orFail_ok hremove).symm.trans hon
          obtain ⟨done, rest, hsplit, hholds⟩ :=
            ih h₁ (fun n hn => hnames n (List.mem_cons_of_mem _ hn)) gone hgone hleaves
          rw [without_place_none] at hholds
          exact ⟨name :: done, rest, by rw [hsplit]; rfl, hholds⟩
      · rcases hleaves.of_bind with hremoving | ⟨u, t₂, hon, -⟩
        · rcases hremoving.of_orFail with rfl | hbroken | hover
          · exact hunchanged
          · exact absurd hbroken id
          · rw [hover, on_orFail_error hremove]
            exact hunchanged
        · cases (on_orFail_error hremove).symm.trans hon

/-- **Only listed files are removed**, and never the one that the marker names. -/
theorem exists_of_leaves_prune (hs : s.IsProper) (h : s.Holds t es) {marker : Option Nat}
    (hmarker : s.markerOf es = .ok marker) {keep : Nat} (hleaves : (s.prune keep).Leaves t t') :
    ∃ done, s.Holds t' (without done es) ∧
      ∀ name ∈ done, ∃ k, parseName? name = some k ∧ marker ≠ some k := by
  have hunchanged : ∃ done, s.Holds t (without done es) ∧
      ∀ name ∈ done, ∃ k, parseName? name = some k ∧ marker ≠ some k :=
    ⟨[], by rwa [without_nil], fun name hname => absurd hname List.not_mem_nil⟩
  rcases hleaves.of_bind with hlisting | ⟨snapshots, t₁, hon, hleaves⟩
  · rw [eq_of_leaves_list hlisting]
    exact hunchanged
  cases (on_list hs h.orAbsent).symm.trans hon
  by_cases hkeep : (s.snapshotsIn es).length ≤ keep
  · rw [if_pos hkeep] at hleaves
    rw [hleaves.of_pure]
    exact hunchanged
  rw [if_neg hkeep] at hleaves
  rcases hleaves.of_bind with hreading | ⟨marked, t₁, hon, hleaves⟩
  · rw [eq_of_leaves_lastGood hreading]
    exact hunchanged
  rw [on_lastGood hs h.orAbsent, hmarker] at hon
  cases hon
  have hlisted : ∀ v ∈ surplus keep marker (s.snapshotsIn es), v ∈ s.snapshotsIn es :=
    fun v hv => (mem_of_mem_surplus hv).1
  obtain ⟨done, rest, hsplit, hholds⟩ := exists_of_leaves_removeAll hs h _
    (isName_entryName hlisted) _ (map_path_eq hlisted) hleaves.of_bind_pure
  refine ⟨done, hholds, fun name hname => ?_⟩
  obtain ⟨v, hv, rfl⟩ := List.mem_map.1 (hsplit ▸ List.mem_append_left rest hname)
  exact ⟨v.seq, (entryName_spec (hlisted v hv)).2.1, Ne.symm (mem_of_mem_surplus hv).2⟩

end SnapshotDir
end ProxyPlane
