import ProxyPlane.Proofs.Files.Contents
import ProxyPlane.Proofs.Snapshot.Prune

/-!
# Which snapshots remain

Old snapshots are removed from the lowest number on, but the one that the marker names is passed
over.  So the newest remain, or all but one of them and the one that the marker names.

## What is here

* `newest`, the last elements of a list.
* `IsMarked`, that the marker names one of some snapshots, and `survivors`, those that remain.
* `Divides`, how a list of snapshots is divided into those that go and those that remain, and
  `divides_surplus`: it is so divided.
* `snapshotsIn_without`, what is listed once some files are gone.
* `Lacks`, that some files are gone from a tree and nothing else is, and `lacks_of_prune`.
* `prune_divides`: what pruning does to a directory that holds anything.
-/

set_option autoImplicit false
namespace ProxyPlane

/-! ## The newest -/

/-- The last elements of a list, so many of them. -/
def newest {α : Type} (keep : Nat) (l : List α) : List α := l.drop (l.length - keep)

theorem length_newest {α : Type} (keep : Nat) (l : List α) :
    (newest keep l).length = min l.length keep := by
  rw [newest, List.length_drop]
  omega

theorem map_newest {α β : Type} (f : α → β) (keep : Nat) (l : List α) :
    (newest keep l).map f = newest keep (l.map f) := by
  rw [newest, newest, List.map_drop, List.length_map]

theorem mem_newest_concat {α : Type} {keep : Nat} (hkeep : 1 ≤ keep) (l : List α) (a : α) :
    a ∈ newest keep (l ++ [a]) := by
  rw [newest, List.length_append, List.length_singleton,
    List.drop_append_of_le_length (by omega)]
  exact List.mem_append_right _ List.mem_cons_self

namespace SnapshotDir

open SnapshotProgram

/-! ## Dividing snapshots -/

/-- The marker names one of the snapshots. -/
def IsMarked (marker : Option Nat) (vs : List Snapshot) : Prop := ∃ v ∈ vs, some v.seq = marker

instance (marker : Option Nat) (vs : List Snapshot) : Decidable (IsMarked marker vs) :=
  inferInstanceAs (Decidable (∃ v ∈ vs, some v.seq = marker))

/-- The snapshots come in the order of their numbers, which are different. -/
def AreOrdered (vs : List Snapshot) : Prop := vs.Pairwise fun v w => v.seq < w.seq

/-- The snapshots that pruning leaves. -/
def survivors (keep : Nat) (marker : Option Nat) (listed : List Snapshot) : List Snapshot :=
  listed.filter fun v => decide (v ∉ surplus keep marker listed)

/-- How pruning divides the snapshots that are listed into those that go and those that remain. -/
structure Divides (keep : Nat) (marker : Option Nat) (listed gone kept : List Snapshot) :
    Prop where
  whole : (gone ++ kept).Perm listed
  ordered : kept.Sublist listed
  /-- Nothing goes as long as there are not too many. -/
  few : listed.length ≤ keep → gone = []
  /-- As many go as there are too many, but the marked one does not even if none is to be kept. -/
  count : gone.length =
    if keep = 0 ∧ IsMarked marker listed then listed.length - 1 else listed.length - keep
  spared : ¬IsMarked marker gone
  /-- Those that go have lower numbers than those that remain, apart from the marked one. -/
  lowest : ∀ v ∈ gone, ∀ w ∈ kept, some w.seq ≠ marker → v.seq < w.seq
  length : 1 ≤ keep → kept.length = min listed.length keep
  newest : 1 ≤ keep → IsMarked marker (newest keep listed) ∨ ¬IsMarked marker listed →
    kept = newest keep listed
  /-- A marked one that is not among the newest takes the place of the oldest of them. -/
  marked : 1 ≤ keep → IsMarked marker listed → ¬IsMarked marker (ProxyPlane.newest keep listed) →
    ∃ v ∈ listed, some v.seq = marker ∧ kept = v :: ProxyPlane.newest (keep - 1) listed

section Dividing

variable {keep : Nat} {marker : Option Nat} {listed older newer : List Snapshot} {v : Snapshot}

theorem isMarked_append {vs ws : List Snapshot} :
    IsMarked marker (vs ++ ws) ↔ IsMarked marker vs ∨ IsMarked marker ws := by
  simp only [IsMarked, List.mem_append, or_and_right, exists_or]

theorem AreOrdered.nodup (h : AreOrdered listed) : listed.Nodup :=
  List.Pairwise.imp (fun hlt heq => Nat.ne_of_lt hlt (congrArg Snapshot.seq heq)) h

/-- The lowest go if the marked one is not among them. -/
theorem surplus_of_take (h : ¬IsMarked marker (listed.take (listed.length - keep))) :
    surplus keep marker listed = listed.take (listed.length - keep) := by
  have hnames : ∀ w ∈ listed.take (listed.length - keep), (some w.seq != marker) = true :=
    fun w hw => bne_iff_ne.2 fun heq => h ⟨w, hw, heq⟩
  have hlength : (listed.take (listed.length - keep)).length = listed.length - keep := by
    rw [List.length_take]
    omega
  have hfilter : listed.filter (fun w => some w.seq != marker) =
      listed.take (listed.length - keep) ++
        (listed.drop (listed.length - keep)).filter fun w => some w.seq != marker := by
    conv_lhs => rw [← List.take_append_drop (listed.length - keep) listed]
    rw [List.filter_append, List.filter_eq_self.2 hnames]
  rw [surplus, hfilter, List.take_left' hlength]

/-- The marked one is passed over if it is. -/
theorem surplus_of_marked (hordered : AreOrdered (older ++ v :: newer))
    (h : older.length ≤ (older ++ v :: newer).length - keep) :
    surplus keep (some v.seq) (older ++ v :: newer) =
      older ++ newer.take ((older ++ v :: newer).length - keep - older.length) := by
  obtain ⟨-, hnewer, hbefore⟩ := List.pairwise_append.1 hordered
  have holder : ∀ w ∈ older, (some w.seq != some v.seq) = true := fun w hw =>
    bne_iff_ne.2 fun heq => Nat.ne_of_lt (hbefore w hw v List.mem_cons_self) (Option.some.inj heq)
  have hafter : ∀ w ∈ newer, (some w.seq != some v.seq) = true := fun w hw =>
    bne_iff_ne.2 fun heq => Nat.ne_of_gt (List.rel_of_pairwise_cons hnewer hw) (Option.some.inj heq)
  rw [surplus, List.filter_append, List.filter_eq_self.2 holder,
    List.filter_cons_of_neg (by simp), List.filter_eq_self.2 hafter, List.take_append,
    List.take_of_length_le h]

/-- What remains if all that goes comes first. -/
theorem survivors_of_take (hordered : AreOrdered listed)
    (h : ¬IsMarked marker (listed.take (listed.length - keep))) :
    survivors keep marker listed = newest keep listed := by
  have hnodup := hordered.nodup
  rw [← List.take_append_drop (listed.length - keep) listed] at hnodup
  have hrest := filter_not_mem_of_nodup hnodup
  rwa [List.take_append_drop, ← surplus_of_take h] at hrest

theorem filter_around {early late : List Snapshot}
    (h : (older ++ v :: (early ++ late)).Nodup) :
    (older ++ v :: (early ++ late)).filter (fun w => decide (w ∉ older ++ early)) = v :: late := by
  rw [List.nodup_append, List.nodup_cons, List.mem_append, List.nodup_append] at h
  obtain ⟨-, ⟨hv, -, -, hearly⟩, holder⟩ := h
  have hgone : ∀ ws ⊆ older ++ early, ws.filter (fun w => decide (w ∉ older ++ early)) = [] :=
    fun ws hws => List.filter_eq_nil_iff.2 fun w hw h => of_decide_eq_true h (hws hw)
  have hstays : v ∉ older ++ early := by
    rw [List.mem_append, not_or]
    exact ⟨fun hmem => holder v hmem v List.mem_cons_self rfl, fun hmem => hv (.inl hmem)⟩
  have hlate : late.filter (fun w => decide (w ∉ older ++ early)) = late := by
    refine List.filter_eq_self.2 fun w hw => decide_eq_true ?_
    rw [List.mem_append, not_or]
    exact ⟨fun hmem => holder w hmem w (by simp [hw]) rfl, fun hmem => hearly w hmem w hw rfl⟩
  rw [List.filter_append, List.filter_cons, if_pos (decide_eq_true hstays), List.filter_append,
    hgone older (List.subset_append_left _ _), hgone early (List.subset_append_right _ _), hlate,
    List.nil_append, List.nil_append]

/-- What remains if the marked one is passed over. -/
theorem survivors_of_marked (hordered : AreOrdered (older ++ v :: newer))
    (h : older.length ≤ (older ++ v :: newer).length - keep) :
    survivors keep (some v.seq) (older ++ v :: newer) =
      v :: newer.drop ((older ++ v :: newer).length - keep - older.length) := by
  have hnodup := hordered.nodup
  rw [survivors, surplus_of_marked hordered h]
  generalize (older ++ v :: newer).length - keep - older.length = k
  rw [← List.take_append_drop k newer] at hnodup
  have haround := filter_around hnodup
  rwa [List.take_append_drop] at haround

/-- The newest remain unless the marked one is too old to be among them. -/
theorem divides_take (hordered : AreOrdered listed)
    (h : ¬IsMarked marker (listed.take (listed.length - keep))) :
    Divides keep marker listed (listed.take (listed.length - keep)) (newest keep listed) where
  whole := by rw [newest, List.take_append_drop]
  ordered := List.drop_sublist _ _
  few := fun hle => by rw [Nat.sub_eq_zero_of_le hle, List.take_zero]
  count := by
    rw [if_neg, List.length_take]
    · omega
    · rintro ⟨rfl, hmarked⟩
      rw [Nat.sub_zero, List.take_length] at h
      exact h hmarked
  spared := h
  lowest := by
    intro w hw x hx _
    rw [AreOrdered, ← List.take_append_drop (listed.length - keep) listed] at hordered
    exact (List.pairwise_append.1 hordered).2.2 w hw x hx
  length := fun _ => length_newest keep listed
  newest := fun _ _ => rfl
  marked := by
    intro _ hmarked hnot
    rw [← List.take_append_drop (listed.length - keep) listed, isMarked_append] at hmarked
    exact absurd hmarked (not_or.2 ⟨h, hnot⟩)

/-- A marked one that is too old remains beside the newest. -/
theorem divides_marked (hordered : AreOrdered (older ++ v :: newer))
    (h : older.length < (older ++ v :: newer).length - keep) :
    Divides keep (some v.seq) (older ++ v :: newer)
      (older ++ newer.take ((older ++ v :: newer).length - keep - older.length))
      (v :: newer.drop ((older ++ v :: newer).length - keep - older.length)) := by
  obtain ⟨-, hnewer, hbefore⟩ := List.pairwise_append.1 hordered
  have habove : ∀ w ∈ newer, v.seq < w.seq := fun w hw => List.rel_of_pairwise_cons hnewer hw
  have hlisted : IsMarked (some v.seq) (older ++ v :: newer) := ⟨v, by simp, rfl⟩
  have hlength : (older ++ v :: newer).length = older.length + newer.length + 1 := by
    rw [List.length_append, List.length_cons, Nat.add_assoc]
  generalize hk : (older ++ v :: newer).length - keep - older.length = k
  rw [hlength] at h hk
  have hdrop : ∀ j, (older ++ v :: newer).drop (older.length + j + 1) = newer.drop j := by
    intro j
    rw [Nat.add_assoc, List.drop_append, List.drop_of_length_le (by omega), List.nil_append,
      Nat.add_sub_cancel_left, List.drop_succ_cons]
  have hunmarked : ∀ ws : List Snapshot, ws ⊆ newer → ¬IsMarked (some v.seq) ws := by
    rintro ws hsub ⟨w, hw, heq⟩
    exact Nat.ne_of_gt (habove w (hsub hw)) (Option.some.inj heq)
  exact {
    whole := by
      refine List.perm_middle.trans ?_
      rw [List.append_assoc, List.take_append_drop]
      exact List.perm_middle.symm
    ordered := ((List.drop_sublist k newer).cons_cons v).trans (List.sublist_append_right older _)
    few := fun hle => by omega
    count := by
      rw [hlength, List.length_append, List.length_take]
      by_cases hkeep : keep = 0
      · rw [if_pos ⟨hkeep, hlisted⟩]
        omega
      · rw [if_neg fun hboth => hkeep hboth.1]
        omega
    spared := by
      rw [isMarked_append, not_or]
      refine ⟨fun ⟨w, hw, heq⟩ => ?_, hunmarked _ (List.take_subset k newer)⟩
      exact Nat.ne_of_lt (hbefore w hw v List.mem_cons_self) (Option.some.inj heq)
    lowest := by
      intro w hw x hx hother
      have hlate : x ∈ newer.drop k := by
        rcases List.mem_cons.1 hx with rfl | hx
        · exact absurd rfl hother
        · exact hx
      rcases List.mem_append.1 hw with hw | hw
      · exact hbefore w hw x (List.mem_cons_of_mem _ (List.mem_of_mem_drop hlate))
      · rw [← List.take_append_drop k newer] at hnewer
        exact (List.pairwise_append.1 (List.pairwise_cons.1 hnewer).2).2.2 w hw x hlate
    length := by
      intro hkeep
      rw [hlength, List.length_cons, List.length_drop]
      omega
    newest := by
      rintro - (hmarked | hnot)
      · rw [ProxyPlane.newest, hlength,
          show older.length + newer.length + 1 - keep = older.length + (k - 1) + 1 by omega,
          hdrop] at hmarked
        exact absurd hmarked (hunmarked _ (List.drop_subset _ _))
      · exact absurd hlisted hnot
    marked := by
      intro hkeep _ _
      refine ⟨v, by simp, rfl, ?_⟩
      rw [ProxyPlane.newest, hlength,
        show older.length + newer.length + 1 - (keep - 1) = older.length + k + 1 by omega, hdrop] }

/-- **How pruning divides snapshots.** -/
theorem divides_surplus (hordered : AreOrdered listed) (keep : Nat) (marker : Option Nat) :
    Divides keep marker listed (surplus keep marker listed) (survivors keep marker listed) := by
  -- the marker matters only if it names one of those that would go
  by_cases h : IsMarked marker (listed.take (listed.length - keep))
  · obtain ⟨v, hv, rfl⟩ := h
    obtain ⟨older, middle, hsplit⟩ := List.append_of_mem hv
    have hshort := congrArg List.length hsplit
    rw [List.length_take, List.length_append, List.length_cons] at hshort
    obtain ⟨newer, rfl⟩ : ∃ newer, listed = older ++ v :: newer := by
      refine ⟨middle ++ listed.drop (listed.length - keep), ?_⟩
      conv_lhs => rw [← List.take_append_drop (listed.length - keep) listed, hsplit]
      rw [List.append_assoc, List.cons_append]
    have hlate : older.length < (older ++ v :: newer).length - keep := by omega
    rw [surplus_of_marked hordered (Nat.le_of_lt hlate),
      survivors_of_marked hordered (Nat.le_of_lt hlate)]
    exact divides_marked hordered hlate
  · rw [surplus_of_take h, survivors_of_take hordered h]
    exact divides_take hordered h

end Dividing

variable {s : SnapshotDir} {t t' : FileTree} {es : Entries} {marker : Option Nat} {keep : Nat}
  {listed : List Snapshot}

/-! ## What is listed -/

theorem snapshotsIn_nil (s : SnapshotDir) : s.snapshotsIn [] = [] := s.ofNames_nil

theorem map_seq_snapshotsIn (s : SnapshotDir) (es : Entries) :
    (s.snapshotsIn es).map (·.seq) = numbersIn es := map_seq_ofNames s _

theorem seq_mem_numbersIn {v : Snapshot} (hv : v ∈ s.snapshotsIn es) : v.seq ∈ numbersIn es :=
  s.map_seq_snapshotsIn es ▸ List.mem_map_of_mem hv

theorem areOrdered_snapshotsIn (h : ((s.snapshotsIn es).map (·.seq)).Nodup) :
    AreOrdered (s.snapshotsIn es) := by
  have hsorted := pairwise_numbersIn es
  rw [← s.map_seq_snapshotsIn] at hsorted
  exact List.pairwise_map.1 ((hsorted.and h).imp fun hboth => Nat.lt_of_le_of_ne hboth.1 hboth.2)

/-- **What is listed once some files are gone.** -/
theorem snapshotsIn_without (h : ((s.snapshotsIn es).map (·.seq)).Nodup) (names : List String) :
    s.snapshotsIn (without names es) =
      (s.snapshotsIn es).filter fun v => decide (entryName v ∉ names) := by
  have hnames : ((listedNames es).filter fun n => decide (n ∉ names)).filterMap s.snapshotOf? =
      ((listedNames es).filterMap s.snapshotOf?).filter fun v => decide (entryName v ∉ names) := by
    rw [List.filterMap_filter, List.filter_filterMap]
    refine List.filterMap_congr fun name _ => ?_
    rw [snapshotOf?]
    cases hparse : parseName? name with
    | none => split <;> rfl
    | some seq =>
      rw [Option.map_some, Option.filter_some, entryName_join s (isName_of_parseName? hparse)]
  have hperm : (s.snapshotsIn (without names es)).Perm
      ((s.snapshotsIn es).filter fun v => decide (entryName v ∉ names)) := by
    refine (s.perm_snapshotsIn _).trans ?_
    rw [listedNames_without, hnames]
    exact ((s.perm_snapshotsIn es).filter _).symm
  -- both lists are in the order of their numbers: they are equal if one permutes the other
  have hordered := areOrdered_snapshotsIn h
  have hafter : AreOrdered (s.snapshotsIn (without names es)) :=
    areOrdered_snapshotsIn (((hperm.map (·.seq)).nodup_iff).2
      (h.sublist (List.filter_sublist.map _)))
  exact hperm.eq_of_pairwise (fun v w _ _ hlt hgt => absurd hlt (Nat.not_lt_of_gt hgt)) hafter
    (hordered.filter _)

/-- A directory that can be listed is there, or there is none. -/
theorem exists_of_on_list (hne : s.dir ≠ "") (hlist : (s.list.on t).1 = .ok listed) :
    ∃ es, s.IsProper ∧ s.HoldsOrAbsent t es ∧ listed = s.snapshotsIn es := by
  have hholds : ∃ es, s.IsProper ∧ s.HoldsOrAbsent t es := by
    rw [SnapshotProgram.on, list] at hlist
    simp only [ExceptT.run, ExceptT.mk, Files.list, Program.bind_eq, Program.run_bind,
      Program.run_perform, FileTree.answer, FileTree.list, FileTree.at?] at hlist
    by_cases hnul : Char.ofNat 0 ∈ s.dir.toList
    · rw [FileTree.names?, if_neg (by simpa using hne), if_pos (by simpa using hnul)] at hlist
      cases hlist
    have hs : s.IsProper := ⟨hne, hnul⟩
    rw [hs.names] at hlist
    simp only [bind, Except.bind] at hlist
    cases hfind : t.find (Path.segments s.dir) with
    | error e =>
      rw [hfind] at hlist
      cases e with
      | notFound => exact ⟨[], hs, .inr ⟨hfind, rfl⟩⟩
      | _ => cases hlist
    | ok u =>
      rw [hfind] at hlist
      cases u with
      | dir entries => exact ⟨entries, hs, .inl hfind⟩
      | file contents =>
        cases hwants : FileTree.wantsDirectory s.dir with
        | true =>
          rw [hwants] at hlist
          cases hlist
        | false =>
          rw [hwants] at hlist
          cases hlist
  obtain ⟨es, hs, hes⟩ := hholds
  rw [on_list hs hes] at hlist
  exact ⟨es, hs, hes, (Except.ok.inj hlist).symm⟩

/-! ## Files that go -/

/-- Of two trees the second lacks the files of some snapshots, and the rest is the same. -/
structure Lacks (gone : List Snapshot) (t t' : FileTree) : Prop where
  removed : ∀ v ∈ gone, ∀ names, FileTree.names? v.path = .ok names → t'.look names = .nothing
  others : ∀ names, (∀ v ∈ gone, FileTree.names? v.path ≠ .ok names) → t'.look names = t.look names

theorem lacks_nil (t : FileTree) : Lacks [] t t where
  removed := nofun
  others := fun _ _ => rfl

/-- What is lacking already stays so when one file more is removed. -/
theorem Lacks.cons {t₁ : FileTree} {v : Snapshot} {gone : List Snapshot}
    (hfirst : t.remove v.path = .ok t₁) (h : Lacks gone t₁ t') : Lacks (v :: gone) t t' := by
  obtain ⟨target, contents, htarget, -, hlook⟩ := FileTree.look_of_remove hfirst
  refine ⟨List.forall_mem_cons.2 ⟨fun names hnames => ?_, h.removed⟩, fun names hothers => ?_⟩
  · cases htarget.symm.trans hnames
    by_cases hagain : ∃ w ∈ gone, FileTree.names? w.path = .ok target
    · obtain ⟨w, hw, hnames⟩ := hagain
      exact h.removed w hw target hnames
    · rw [h.others target fun w hw hnames => hagain ⟨w, hw, hnames⟩, hlook, if_pos rfl]
  · obtain ⟨hother, hothers⟩ := List.forall_mem_cons.1 hothers
    rw [h.others names hothers, hlook, if_neg]
    rintro rfl
    exact hother htarget

theorem lacks_of_removeAll {gone : List Snapshot} (h : (removeAll gone).on t = (.ok (), t')) :
    Lacks gone t t' := by
  induction gone generalizing t with
  | nil =>
    cases h
    exact lacks_nil _
  | cons v gone ih =>
    rw [removeAll, Files.remove] at h
    cases hremove : t.remove v.path with
    | error e =>
      have hanswer : FileTree.answer (.remove v.path) t = (.error e, t) := by
        rw [FileTree.answer, hremove, FileTree.commit]
      rw [on_bind_error (on_orFail_error hanswer)] at h
      cases congrArg Prod.fst h
    | ok t₁ =>
      have hanswer : FileTree.answer (.remove v.path) t = (.ok (), t₁) := by
        rw [FileTree.answer, hremove, FileTree.commit]
      rw [on_bind_ok (on_orFail_ok hanswer)] at h
      exact (ih h).cons hremove

/-- **Pruning removes the surplus**, and nothing else. -/
theorem lacks_of_prune (hlist : s.list.on t = (.ok listed, t))
    (hmarker : s.lastGood.on t = (.ok marker, t)) {k : Nat}
    (h : (s.prune keep).on t = (.ok k, t')) : Lacks (surplus keep marker listed) t t' := by
  rw [prune, on_bind_ok hlist] at h
  by_cases hkeep : listed.length ≤ keep
  · rw [if_pos hkeep] at h
    cases h
    rw [surplus, Nat.sub_eq_zero_of_le hkeep, List.take_zero]
    exact lacks_nil t
  · rw [if_neg hkeep, on_bind_ok hmarker, on_bind] at h
    split at h
    · rename_i u t₁ hremoved
      cases h
      exact lacks_of_removeAll hremoved
    · cases congrArg Prod.fst h

/-- What can be removed is a file. -/
theorem isRemovable_of_answer (hs : s.IsProper) (hes : s.HoldsOrAbsent t es) {v : Snapshot}
    (hv : v ∈ s.snapshotsIn es) (hremove : (FileTree.answer (.remove v.path) t).1 = .ok ()) :
    IsRemovable es (entryName v) := by
  obtain h | ⟨-, rfl⟩ := hes
  case inr => exact absurd (s.snapshotsIn_nil ▸ hv) List.not_mem_nil
  obtain ⟨-, hparse, hpath⟩ := entryName_spec hv
  have hname := isName_of_parseName? hparse
  have hleads : FileTree.names? v.path = .ok (Path.segments s.dir ++ [entryName v]) := by
    rw [hpath, FileTree.names?_join hname hs.noNul]
  obtain ⟨t', hremoved⟩ : ∃ t', t.remove v.path = .ok t' := by
    cases hremoved : t.remove v.path with
    | ok t' => exact ⟨t', rfl⟩
    | error e =>
      rw [FileTree.answer, hremoved] at hremove
      cases hremove
  have hshort : FileTree.isTooLong (entryName v) = false := by
    rw [Bool.eq_false_iff]
    intro hlong
    rw [FileTree.remove, hleads] at hremoved
    cases (FileTree.alter_of_isTooLong h hlong _).symm.trans hremoved
  obtain ⟨target, contents, htarget, hfile, -⟩ := FileTree.look_of_remove hremoved
  cases hleads.symm.trans htarget
  refine ⟨hshort, contents, ?_⟩
  rw [FileTree.look, FileTree.find_concat h hshort] at hfile
  cases hentry : es.lookup (entryName v) with
  | none =>
    rw [hentry] at hfile
    cases hfile
  | some u =>
    rw [hentry] at hfile
    cases u with
    | file old =>
      cases hfile
      rfl
    | dir entries => cases hfile

/-- Snapshots with different numbers have different names. -/
theorem nodup_listedNames (h : ((s.snapshotsIn es).map (·.seq)).Nodup) :
    (listedNames es).Nodup := by
  refine (perm_entryNames s es).nodup_iff.1 (List.Nodup.of_map parseName? ?_)
  have hnumbers : ((s.snapshotsIn es).map entryName).map parseName? =
      ((s.snapshotsIn es).map (·.seq)).map some := by
    rw [List.map_map, List.map_map]
    exact List.map_congr_left fun v hv => (entryName_spec hv).2.1
  rw [hnumbers]
  exact h.map (Option.some_injective Nat)

/-- A listed snapshot is told by its name. -/
theorem eq_of_entryName {v w : Snapshot} (hv : v ∈ s.snapshotsIn es) (hw : w ∈ s.snapshotsIn es)
    (h : entryName v = entryName w) : v = w := by
  obtain ⟨-, hparse, hpath⟩ := entryName_spec hv
  obtain ⟨-, hparse', hpath'⟩ := entryName_spec hw
  rw [h, ← hpath'] at hpath
  rw [h, hparse', Option.some.injEq] at hparse
  cases v
  cases w
  cases hpath
  cases hparse
  rfl

theorem survivors_eq (h : ((s.snapshotsIn es).map (·.seq)).Nodup) :
    s.snapshotsIn (without ((surplus keep marker (s.snapshotsIn es)).map entryName) es) =
      survivors keep marker (s.snapshotsIn es) := by
  rw [snapshotsIn_without h, survivors]
  refine List.filter_congr fun v hv => decide_eq_decide.2 (not_congr ⟨fun hmem => ?_,
    List.mem_map_of_mem⟩)
  obtain ⟨w, hw, heq⟩ := List.mem_map.1 hmem
  rwa [← eq_of_entryName ((surplus_sublist keep marker _).subset hw) hv heq]

theorem IsCanonical.entryName_eq (hes : IsCanonical es) {v : Snapshot}
    (hv : v ∈ s.snapshotsIn es) : entryName v = fileName v.seq := by
  rw [hes.snapshotsIn_eq] at hv
  obtain ⟨n, -, rfl⟩ := List.mem_map.1 hv
  exact entryName_join s (isName_fileName n) n

/-- The marker is no snapshot, and stays. -/
theorem markerOf_without (numbers : List Nat) :
    s.markerOf (without (numbers.map fileName) es) = s.markerOf es := by
  have hmem : markerName ∉ numbers.map fileName := by
    intro hmem
    obtain ⟨n, -, heq⟩ := List.mem_map.1 hmem
    exact fileName_ne_marker n heq
  rw [markerOf, lookup_without, if_neg hmem, markerOf]

/-! ## Pruning -/

/-- Pruning works also where the directory is missing. -/
theorem exists_on_prune (hs : s.IsProper) (h : s.HoldsOrAbsent t es) (keep : Nat)
    (hmarker : s.markerOf es = .ok marker) (hdistinct : ((s.snapshotsIn es).map (·.seq)).Nodup)
    (hremovable : ∀ v ∈ s.snapshotsIn es, IsRemovable es (entryName v)) :
    ∃ t', (s.prune keep).on t = (.ok (surplus keep marker (s.snapshotsIn es)).length, t') ∧
      s.HoldsOrAbsent t'
        (without ((surplus keep marker (s.snapshotsIn es)).map entryName) es) ∧
      (s.CanMake t → s.CanMake t') := by
  rcases h with h | ⟨habsent, rfl⟩
  · obtain ⟨t', hprune, h'⟩ :=
      on_prune_of_removable hs h keep hmarker (nodup_listedNames hdistinct) hremovable
    exact ⟨t', hprune, h'.orAbsent, fun _ => h'.canMake⟩
  · refine ⟨t, ?_, .inr ⟨habsent, rfl⟩, id⟩
    rw [prune, on_bind_ok (on_list hs (.inr ⟨habsent, rfl⟩)), snapshotsIn_nil, List.length_nil,
      if_pos (Nat.zero_le keep), surplus, List.filter_nil, List.take_nil]
    rfl

/-- **What pruning does**: the lowest go until there are not too many, save that the marked one
stays, and how many went is answered. -/
theorem prune_divides {configDir : String} (keep : Nat)
    (hlist : ((below configDir).list.on t).1 = .ok listed)
    (hdistinct : (listed.map (·.seq)).Nodup)
    (hmarker : ((below configDir).lastGood.on t).1 = .ok marker)
    (hremovable : ∀ v ∈ listed, (FileTree.answer (.remove v.path) t).1 = .ok ()) :
    ∃ gone kept t', ((below configDir).prune keep).on t = (.ok gone.length, t') ∧
      ((below configDir).list.on t').1 = .ok kept ∧ Divides keep marker listed gone kept ∧
      Lacks gone t t' := by
  obtain ⟨es, hs, hes, rfl⟩ := exists_of_on_list (below_dir_ne_empty configDir) hlist
  have hread : (below configDir).lastGood.on t = (.ok marker, t) :=
    Prod.ext hmarker (tree_on_lastGood _ t)
  have hgood := congrArg Prod.fst ((on_lastGood hs hes).symm.trans hread)
  obtain ⟨t', hprune, hes', -⟩ := exists_on_prune hs hes keep hgood hdistinct fun v hv =>
    isRemovable_of_answer hs hes hv (hremovable v hv)
  refine ⟨_, _, t', hprune, ?_, divides_surplus (areOrdered_snapshotsIn hdistinct) keep marker,
    lacks_of_prune (on_list hs hes) hread hprune⟩
  rw [on_list hs hes', survivors_eq hdistinct]

/-- Four snapshots, the second under a name of its own, and the marker on the lowest. -/
def markedEntries : Entries :=
  [(fileName 1, .file []), ("config-02.json", .file []), (fileName 3, .file []),
   (fileName 4, .file []), ("last-good", .file (Utf8.encode (Numeral.write 1)))]

/-- A tree with these entries in the directory of the snapshots. -/
def markedTree : FileTree :=
  .dir [("etc", .dir [("proxy", .dir [("snapshots", .dir markedEntries)])])]

/-- The snapshots that are listed there. -/
def markedSnapshots : List Snapshot :=
  [⟨1, (below "/etc/proxy").pathFor 1⟩, ⟨2, Path.join (below "/etc/proxy").dir "config-02.json"⟩,
   ⟨3, (below "/etc/proxy").pathFor 3⟩, ⟨4, (below "/etc/proxy").pathFor 4⟩]

theorem on_list_markedTree :
    ((below "/etc/proxy").list.on markedTree).1 = .ok markedSnapshots := by
  have hholds : (below "/etc/proxy").Holds markedTree markedEntries := rfl
  rw [on_list (isProper_below (by decide)) hholds.orAbsent, snapshotsIn, ofNames,
    List.mergeSort_of_pairwise]
  · rfl
  · decide

theorem prune_divides_marked :
    ∃ gone kept t', ((below "/etc/proxy").prune 2).on markedTree = (.ok gone.length, t') ∧
      ((below "/etc/proxy").list.on t').1 = .ok kept ∧
      Divides 2 (some 1) markedSnapshots gone kept ∧ Lacks gone markedTree t' := by
  refine prune_divides 2 on_list_markedTree (by decide) rfl ?_
  simp only [markedSnapshots, List.forall_mem_cons]
  exact ⟨rfl, rfl, rfl, rfl, nofun⟩

end SnapshotDir
end ProxyPlane
