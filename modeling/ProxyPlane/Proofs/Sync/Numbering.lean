import ProxyPlane.Proofs.Sync.Retention

/-!
# The numbers that are given

Snapshots are kept, marked and removed in any order.  Numbers increase as long as the newest
snapshot is never removed.  It is removed where only one snapshot is to remain and the marker names
an older one; then the next number is not above those that were given.

## What is here

* `Ledger`, the numbers that were given, and `Ledger.use`, what a use of the directory adds to it.
* `IsReached`, the ledgers that uses lead to; `Use.IsFair` and `Use.IsCareful`, which uses.
* `Accounts`, what the directory says of the ledger, and one lemma for each use.
* `issued_increasing`: numbers increase along careful uses, and after a careless one they do not.
-/

set_option autoImplicit false
namespace ProxyPlane
namespace SnapshotDir

open SnapshotProgram

/-! ## Uses of the directory -/

/-- The numbers that were given so far, in order, and the files after them. -/
structure Ledger where
  issued : List Nat
  files : FileTree

/-- A use of the directory. -/
inductive Use
  | save (d : Document)
  | mark (seq : Nat)
  | prune (keep : Nat)

/-- The ledger after one use more, which may fail. -/
def Ledger.use (s : SnapshotDir) (l : Ledger) : Use → Ledger
  | .save d =>
    match (s.save d).on l.files with
    | (.ok v, t) => ⟨l.issued ++ [v.seq], t⟩
    | (.error _, t) => ⟨l.issued, t⟩
  | .mark seq => ⟨l.issued, ((s.markGood seq).on l.files).2⟩
  | .prune keep => ⟨l.issued, ((s.prune keep).on l.files).2⟩

/-- The marker names one of the snapshots, but not the newest. -/
def Lags (marker : Option Nat) (listed : List Snapshot) : Prop :=
  ∃ v ∈ listed, some v.seq = marker ∧ ∃ w ∈ listed, v.seq < w.seq

/-- The marker of a tree names a snapshot that is listed, but not the newest. -/
def LagsOn (s : SnapshotDir) (t : FileTree) : Prop :=
  ∃ listed marker, (s.list.on t).1 = .ok listed ∧ (s.lastGood.on t).1 = .ok marker ∧
    Lags marker listed

/-- Only numbers that were given are marked, and some snapshot is to remain. -/
def Use.IsFair (l : Ledger) : Use → Prop
  | .save _ => True
  | .mark seq => seq ∈ l.issued
  | .prune keep => 1 ≤ keep

/-- The newest snapshot is to remain beside the one that the marker names. -/
def Use.IsCareful (s : SnapshotDir) (l : Ledger) (u : Use) : Prop :=
  u.IsFair l ∧ (u = .prune 1 → ¬s.LagsOn l.files)

/-- The ledgers that uses of some kind lead to. -/
inductive IsReached (s : SnapshotDir) (start : FileTree) (allowed : Ledger → Use → Prop) :
    Ledger → Prop
  | start : IsReached s start allowed ⟨[], start⟩
  | use {l : Ledger} (h : IsReached s start allowed l) (u : Use) (hu : allowed l u) :
    IsReached s start allowed (l.use s u)

/-! ## The newest snapshot -/

section Newest

variable {keep : Nat} {marker : Option Nat} {listed gone kept older : List Snapshot} {v : Snapshot}

/-- **The newest remains** unless it has to make room for the one that the marker names. -/
theorem Divides.newest_mem (h : Divides keep marker (older ++ [v]) gone kept)
    (hordered : AreOrdered (older ++ [v])) (hkeep : 1 ≤ keep)
    (hlags : keep = 1 → ¬Lags marker (older ++ [v])) : v ∈ kept := by
  by_cases hmarked : IsMarked marker (ProxyPlane.newest keep (older ++ [v])) ∨
      ¬IsMarked marker (older ++ [v])
  · rw [h.newest hkeep hmarked]
    exact mem_newest_concat hkeep older v
  · obtain ⟨hnot, hlisted⟩ := not_or.1 hmarked
    obtain ⟨w, hw, hname, rfl⟩ := h.marked hkeep (not_not.1 hlisted) hnot
    by_cases hone : keep = 1
    · refine absurd ⟨w, hw, hname, v, by simp, ?_⟩ (hlags hone)
      rcases List.mem_append.1 hw with hw | hw
      · exact (List.pairwise_append.1 hordered).2.2 w hw v List.mem_cons_self
      · rw [List.mem_singleton.1 hw] at hname
        exact absurd ⟨v, mem_newest_concat hkeep older v, hname⟩ hnot
    · exact List.mem_cons_of_mem _ (mem_newest_concat (by omega) older v)

/-- **The newest goes** where only the one that the marker names is to remain. -/
theorem Divides.eq_singleton (h : Divides 1 marker (older ++ [v]) gone kept)
    (hordered : AreOrdered (older ++ [v])) (hlags : Lags marker (older ++ [v])) :
    ∃ w, some w.seq = marker ∧ kept = [w] ∧ w.seq < v.seq := by
  obtain ⟨x, hx, hname, y, hy, hlt⟩ := hlags
  have hlast : x.seq < v.seq := by
    rcases List.mem_append.1 hy with hy | hy
    · exact Nat.lt_trans hlt ((List.pairwise_append.1 hordered).2.2 y hy v List.mem_cons_self)
    · rwa [List.mem_singleton.1 hy] at hlt
  have hone : ProxyPlane.newest 1 (older ++ [v]) = [v] := by
    rw [ProxyPlane.newest, List.length_append, List.length_singleton, Nat.add_sub_cancel,
      List.drop_left]
  have hnewest : ¬IsMarked marker (ProxyPlane.newest 1 (older ++ [v])) := by
    rw [hone]
    rintro ⟨w, hw, hname'⟩
    rw [List.mem_singleton.1 hw, ← hname, Option.some.injEq] at hname'
    exact Nat.ne_of_gt hlast hname'
  obtain ⟨w, -, hname', hkept⟩ := h.marked (Nat.le_refl 1) ⟨x, hx, hname⟩ hnewest
  rw [Nat.sub_self, ProxyPlane.newest, Nat.sub_zero, List.drop_length] at hkept
  rw [← hname, Option.some.injEq] at hname'
  exact ⟨w, by rw [hname', hname], hkept, by rwa [hname']⟩

end Newest

variable {s : SnapshotDir} {t start : FileTree} {es : Entries} {marker : Option Nat}
  {issued gone : List Nat} {l : Ledger} {n keep : Nat} {allowed : Ledger → Use → Prop}

/-! ## Each use -/

/-- A document is kept under the number after all that the directory says. -/
theorem issued_use_save (h : Tidy s l.files es) (hmarker : s.markerOf es = .ok marker)
    (d : Document) : (l.use s (.save d)).issued = l.issued ++ [nextIn es marker] := by
  rcases h.on_save d with ⟨e, t', -, -, herror⟩ | ⟨n, t', marker', hsave, hkeeps, -⟩
  · cases hmarker.symm.trans herror
  · cases hmarker.symm.trans hkeeps.marked
    rw [Ledger.use, hsave, hkeeps.seq]

theorem issued_use_mark (l : Ledger) (n : Nat) : (l.use s (.mark n)).issued = l.issued := by
  rw [Ledger.use]

theorem issued_use_prune (l : Ledger) (keep : Nat) :
    (l.use s (.prune keep)).issued = l.issued := by
  rw [Ledger.use]

/-- What the directory says of the numbers that were given. -/
structure Accounts (s : SnapshotDir) (l : Ledger) (es : Entries) (marker : Option Nat) :
    Prop where
  tidy : Tidy s l.files es
  numbered : Numbered es l.issued
  listed : ∀ k ∈ numbersIn es, k ∈ l.issued
  read : s.markerOf es = .ok marker

theorem accounts_start (h : Tidy s start []) : Accounts s ⟨[], start⟩ [] none where
  tidy := h
  numbered := numbered_nil
  listed := by
    rw [numbersIn_nil]
    exact nofun
  read := rfl

/-- **The next number is above all that were given.** -/
theorem Accounts.lt_nextIn (h : Accounts s l es marker) {k : Nat} (hk : k ∈ l.issued) :
    k < nextIn es marker := by
  obtain ⟨j, hj, hle⟩ := h.numbered.covered k hk
  exact Nat.lt_of_le_of_lt hle (SnapshotDir.lt_nextIn hj marker)

theorem Accounts.use_save (h : Accounts s l es marker) (d : Document)
    (hlimit : nextIn es marker < Nat.pow 2 64) :
    ∃ es', Accounts s (l.use s (.save d)) es' marker ∧
      numbersIn es' = numbersIn es ++ [nextIn es marker] := by
  rcases h.tidy.on_save d with ⟨e, t', -, -, herror⟩ | ⟨n, t', marker', hsave, hkeeps, -⟩
  · cases h.read.symm.trans herror
  cases h.read.symm.trans hkeeps.marked
  have hn : n < Nat.pow 2 64 := hkeeps.seq ▸ hlimit
  have huse : l.use s (.save d) = ⟨l.issued ++ [n], t'⟩ := by rw [Ledger.use, hsave]
  have hnumbers := hkeeps.numbersIn_eq hn
  rw [huse]
  refine ⟨_, ⟨hkeeps.tidy h.tidy.files, h.numbered.of_keeps hkeeps hn, fun k hk => ?_,
    hkeeps.markerOf⟩, ?_⟩
  · rw [hnumbers] at hk
    exact (List.mem_append.1 hk).elim (fun hk => List.mem_append_left _ (h.listed k hk))
      fun hk => List.mem_append_right _ hk
  · rw [hnumbers, hkeeps.seq]

theorem Accounts.use_mark (h : Accounts s l es marker) (hn : n ∈ l.issued)
    (hlimit : n < Nat.pow 2 64) :
    ∃ es', Accounts s (l.use s (.mark n)) es' (some n) ∧ numbersIn es' = numbersIn es := by
  have hholds : s.Holds l.files es := by
    rcases h.tidy.entries with hholds | ⟨-, rfl⟩
    · exact hholds
    · obtain ⟨j, hj, -⟩ := h.numbered.covered n hn
      rw [numbersIn_nil] at hj
      exact absurd hj List.not_mem_nil
  obtain ⟨t', hmark, h'⟩ := on_markGood h.tidy.proper hholds (h.tidy.files.canReplace _) n
  have huse : l.use s (.mark n) = ⟨l.issued, t'⟩ := by rw [Ledger.use, hmark]
  rw [huse]
  refine ⟨_, ⟨⟨h.tidy.proper, h'.orAbsent, h'.canMake, allFiles_replaceFile h.tidy.files _ _⟩,
    h.numbered.markedIn n, ?_, markerOf_of_lookup hlimit (lookup_marker_markedIn n es)⟩,
    numbersIn_markedIn n es⟩
  rw [numbersIn_markedIn]
  exact h.listed

/-- **Old snapshots are removed** from a directory that only uses write. -/
theorem on_prune_of_tidy (h : Tidy s t es) (hes : IsCanonical es) (hnodup : (numbersIn es).Nodup)
    (hmarker : s.markerOf es = .ok marker) (keep : Nat) :
    ∃ (t' : FileTree) (gone : List Snapshot), (s.prune keep).on t = (.ok gone.length, t') ∧
      Tidy s t' (without ((gone.map (·.seq)).map fileName) es) ∧
      Divides keep marker (s.snapshotsIn es) gone
        (s.snapshotsIn (without ((gone.map (·.seq)).map fileName) es)) := by
  have hdistinct : ((s.snapshotsIn es).map (·.seq)).Nodup := by rwa [map_seq_snapshotsIn]
  have hnames : (surplus keep marker (s.snapshotsIn es)).map entryName =
      ((surplus keep marker (s.snapshotsIn es)).map (·.seq)).map fileName := by
    rw [List.map_map]
    exact List.map_congr_left fun v hv => hes.entryName_eq ((surplus_sublist _ _ _).subset hv)
  obtain ⟨t', hprune, h', hmake⟩ := exists_on_prune h.proper h.entries keep hmarker hdistinct
    fun v hv => isRemovable_of_allFiles h.files (entryName_spec hv).1
      (hes.not_isTooLong (entryName_spec hv).1)
  refine ⟨t', surplus keep marker (s.snapshotsIn es), hprune, ?_, ?_⟩
  · rw [← hnames]
    exact ⟨h.proper, h', hmake h.canMake, allFiles_without h.files _⟩
  · rw [← hnames, survivors_eq hdistinct]
    exact divides_surplus (areOrdered_snapshotsIn hdistinct) keep marker

/-- The marker of the tree lags if it does among the entries. -/
theorem lagsOn_iff (h : Tidy s t es) (hmarker : s.markerOf es = .ok marker) :
    s.LagsOn t ↔ Lags marker (s.snapshotsIn es) := by
  rw [LagsOn, on_list h.proper h.entries, on_lastGood h.proper h.entries, hmarker]
  refine ⟨?_, fun hlags => ⟨_, _, rfl, rfl, hlags⟩⟩
  rintro ⟨listed, marker', hlisted, hmarker', hlags⟩
  cases hlisted
  cases hmarker'
  exact hlags

/-- The number that was given last is the last that is listed. -/
theorem Accounts.exists_numbersIn (h : Accounts s l es marker)
    (hissued : l.issued = issued ++ [n]) : ∃ older, numbersIn es = older ++ [n] := by
  have hbound : ∀ k ∈ numbersIn es, k ≤ n := by
    intro k hk
    have hincreasing := h.numbered.increasing
    have hmem := h.listed k hk
    rw [hissued] at hincreasing hmem
    rcases List.mem_append.1 hmem with hmem | hmem
    · exact Nat.le_of_lt ((List.pairwise_append.1 hincreasing).2.2 k hmem n List.mem_cons_self)
    · exact Nat.le_of_eq (List.mem_singleton.1 hmem)
  obtain ⟨j, hj, hle⟩ := h.numbered.covered n (by simp [hissued])
  have hlast := le_getLast (pairwise_numbersIn es) hj
  rcases List.eq_nil_or_concat' (numbersIn es) with hnil | ⟨older, last, hlist⟩
  · exact absurd (hnil ▸ hj) List.not_mem_nil
  · rw [hlist, List.getLast?_concat, Option.getD_some] at hlast
    have hge : last ≤ n := hbound last (by simp [hlist])
    obtain rfl : last = n := by omega
    exact ⟨older, hlist⟩

theorem Accounts.exists_snapshotsIn (h : Accounts s l es marker)
    (hissued : l.issued = issued ++ [n]) :
    ∃ older, s.snapshotsIn es = older ++ [⟨n, s.pathFor n⟩] := by
  obtain ⟨older, hnumbers⟩ := h.exists_numbersIn hissued
  refine ⟨older.map fun k => ⟨k, s.pathFor k⟩, ?_⟩
  rw [h.numbered.canonical.snapshotsIn_eq, hnumbers, List.map_append, List.map_singleton]

theorem Accounts.areOrdered (h : Accounts s l es marker) : AreOrdered (s.snapshotsIn es) :=
  areOrdered_snapshotsIn (by rw [map_seq_snapshotsIn]; exact h.numbered.nodup)

/-- Pruning divides what is listed. -/
theorem Accounts.divides (h : Accounts s l es marker) (keep : Nat) :
    ∃ (t' : FileTree) (gone : List Snapshot), l.use s (.prune keep) = ⟨l.issued, t'⟩ ∧
      Tidy s t' (without ((gone.map (·.seq)).map fileName) es) ∧
      Divides keep marker (s.snapshotsIn es) gone
        (s.snapshotsIn (without ((gone.map (·.seq)).map fileName) es)) := by
  obtain ⟨t', gone, hprune, htidy, hdivides⟩ :=
    on_prune_of_tidy h.tidy h.numbered.canonical h.numbered.nodup h.read keep
  exact ⟨t', gone, by rw [Ledger.use, hprune], htidy, hdivides⟩

theorem Accounts.use_prune (h : Accounts s l es marker) (hkeep : 1 ≤ keep)
    (hcareful : keep = 1 → ¬s.LagsOn l.files) :
    ∃ es', Accounts s (l.use s (.prune keep)) es' marker := by
  obtain ⟨t', gone, huse, htidy, hdivides⟩ := h.divides keep
  rw [huse]
  have hnumbered : Numbered (without ((gone.map (·.seq)).map fileName) es) l.issued := by
    -- the last number that was issued has to stay, since the next one is counted from it
    rcases List.eq_nil_or_concat' l.issued with hnil | ⟨issued, n, hissued⟩
    · have hnone : s.snapshotsIn es = [] := by
        refine List.eq_nil_iff_forall_not_mem.2 fun v hv => ?_
        exact absurd (hnil ▸ h.listed _ (seq_mem_numbersIn hv)) List.not_mem_nil
      rw [hdivides.few (by rw [hnone]; exact Nat.zero_le _), List.map_nil, List.map_nil,
        without_nil]
      exact h.numbered
    · obtain ⟨older, hlisted⟩ := h.exists_snapshotsIn hissued
      have hordered := h.areOrdered
      have hlags : keep = 1 → ¬Lags marker (s.snapshotsIn es) := fun hone => by
        rw [← lagsOn_iff h.tidy h.read]
        exact hcareful hone
      rw [hlisted] at hdivides hordered hlags
      have hnewest := hdivides.newest_mem hordered hkeep hlags
      have hnumbered := h.numbered
      rw [hissued] at hnumbered ⊢
      exact hnumbered.without (seq_mem_numbersIn hnewest)
  refine ⟨_, htidy, hnumbered, fun k hk => ?_, by rw [markerOf_without, h.read]⟩
  rw [numbersIn_without h.numbered.canonical] at hk
  exact h.listed k (List.mem_filter.1 hk).1

/-- **The next number is not above those that were given** once the newest snapshot made room for
the one that the marker names. -/
theorem Accounts.issued_of_lags (h : Accounts s l es marker) (hlags : s.LagsOn l.files)
    (d : Document) :
    ∃ m, marker = some m ∧
      ((l.use s (.prune 1)).use s (.save d)).issued = l.issued ++ [m + 1] ∧
      ∃ k ∈ l.issued, m + 1 ≤ k := by
  obtain ⟨t', gone, huse, htidy, hdivides⟩ := h.divides 1
  rw [lagsOn_iff h.tidy h.read] at hlags
  obtain ⟨issued, n, hissued⟩ : ∃ issued n, l.issued = issued ++ [n] := by
    obtain ⟨v, hv, -⟩ := hlags
    refine (List.eq_nil_or_concat' l.issued).resolve_left fun hnil => ?_
    exact absurd (hnil ▸ h.listed _ (seq_mem_numbersIn hv)) List.not_mem_nil
  obtain ⟨older, hlisted⟩ := h.exists_snapshotsIn hissued
  have hordered := h.areOrdered
  have hnumbers := s.map_seq_snapshotsIn (without ((gone.map (·.seq)).map fileName) es)
  rw [hlisted] at hdivides hordered hlags
  obtain ⟨v, rfl, hkept, hlt⟩ := hdivides.eq_singleton hordered hlags
  rw [hkept] at hnumbers
  refine ⟨v.seq, rfl, ?_, n, by simp [hissued], hlt⟩
  rw [huse, issued_use_save htidy ((markerOf_without _).trans h.read), nextIn, ← hnumbers]
  simp

/-! ## All uses -/

/-- **One use more.** -/
theorem Accounts.use (h : Accounts s l es marker) {u : Use} (hu : u.IsCareful s l)
    (hlimit : ∀ k ∈ (l.use s u).issued, k < Nat.pow 2 64) :
    ∃ es' marker', Accounts s (l.use s u) es' marker' := by
  obtain ⟨hfair, hcareful⟩ := hu
  cases u with
  | save d =>
    rw [issued_use_save h.tidy h.read] at hlimit
    obtain ⟨es', h', -⟩ := h.use_save d (hlimit _ (by simp))
    exact ⟨es', marker, h'⟩
  | mark n =>
    rw [issued_use_mark] at hlimit
    obtain ⟨es', h', -⟩ := h.use_mark hfair (hlimit n hfair)
    exact ⟨es', some n, h'⟩
  | prune keep =>
    obtain ⟨es', h'⟩ := h.use_prune hfair fun hone => hcareful (by rw [hone])
    exact ⟨es', marker, h'⟩

/-- No number that was given is forgotten. -/
theorem issued_isPrefix (l : Ledger) (u : Use) : l.issued <+: (l.use s u).issued := by
  cases u with
  | save d =>
    rw [Ledger.use]
    split
    · exact List.prefix_append _ _
    · exact List.prefix_refl _
  | mark n => simp only [issued_use_mark, List.prefix_rfl]
  | prune keep => simp only [issued_use_prune, List.prefix_rfl]

theorem IsReached.accounts (h : IsReached s start (Use.IsCareful s) l) (hstart : Tidy s start [])
    (hlimit : ∀ k ∈ l.issued, k < Nat.pow 2 64) : ∃ es marker, Accounts s l es marker := by
  induction h with
  | start => exact ⟨[], none, accounts_start hstart⟩
  | use h u hu ih =>
    obtain ⟨es, marker, h⟩ := ih fun k hk => hlimit k ((issued_isPrefix _ u).subset hk)
    exact h.use hu hlimit

theorem Accounts.pairwise_use_save (h : Accounts s l es marker) (d : Document) :
    (l.use s (.save d)).issued.Pairwise (· < ·) := by
  rw [issued_use_save h.tidy h.read, List.pairwise_append]
  refine ⟨h.numbered.increasing, List.pairwise_singleton _ _, fun k hk n hn => ?_⟩
  rw [List.mem_singleton.1 hn]
  exact h.lt_nextIn hk

theorem Accounts.pairwise_iff (h : Accounts s l es marker) (d : Document) :
    ((l.use s (.prune 1)).use s (.save d)).issued.Pairwise (· < ·) ↔ ¬s.LagsOn l.files := by
  refine ⟨fun hincreasing hlags => ?_, fun hlags => ?_⟩
  · obtain ⟨m, -, hissued, k, hk, hle⟩ := h.issued_of_lags hlags d
    rw [hissued, List.pairwise_append] at hincreasing
    exact Nat.not_lt_of_ge hle (hincreasing.2.2 k hk _ List.mem_cons_self)
  · obtain ⟨es', h'⟩ := h.use_prune (Nat.le_refl 1) fun _ => hlags
    exact h'.pairwise_use_save d

/-- **Numbers increase along careful uses** of a directory that is not there at first: each new
number is above those that were given.  If then only one snapshot is to remain, the next number is
above them unless the marker lags. -/
theorem issued_increasing {configDir : String}
    (habsent : (FileTree.answer (.isPresent (below configDir).dir) start).1 = false)
    (hmake : (FileTree.answer (.makeDirs (below configDir).dir) start).1 = .ok ())
    (h : IsReached (below configDir) start (Use.IsCareful (below configDir)) l)
    (hlimit : ∀ k ∈ l.issued, k + 1 < Nat.pow 2 64) (d : Document) :
    (∃ n, (l.use (below configDir) (.save d)).issued = l.issued ++ [n]) ∧
    (l.use (below configDir) (.save d)).issued.Pairwise (· < ·) ∧
    (((l.use (below configDir) (.prune 1)).use (below configDir) (.save d)).issued.Pairwise
      (· < ·) ↔ ¬(below configDir).LagsOn l.files) := by
  obtain ⟨es, marker, h⟩ := h.accounts (tidy_of_absent (below_dir_ne_empty configDir) habsent hmake)
    fun k hk => Nat.lt_of_succ_lt (hlimit k hk)
  exact ⟨⟨_, issued_use_save h.tidy h.read d⟩, h.pairwise_use_save d, h.pairwise_iff d⟩

/-- Two snapshots are kept, and the first is marked. -/
def laggingLedger (s : SnapshotDir) : Ledger :=
  (((⟨[], FileTree.empty⟩ : Ledger).use s (.save Document.empty)).use s (.save Document.empty)).use
    s (.mark 1)

theorem accounts_laggingLedger :
    ∃ es, Accounts (below "/etc/proxy") (laggingLedger (below "/etc/proxy")) es (some 1) ∧
      numbersIn es = [1, 2] ∧ (laggingLedger (below "/etc/proxy")).issued = [1, 2] := by
  have h₀ := accounts_start (tidy_of_absent (t := FileTree.empty)
    (below_dir_ne_empty "/etc/proxy") rfl rfl)
  have hone : nextIn [] none = 1 := by rw [nextIn, numbersIn_nil]; rfl
  have hissued₁ := issued_use_save h₀.tidy h₀.read Document.empty
  obtain ⟨es₁, h₁, hnumbers₁⟩ := h₀.use_save Document.empty (by rw [hone]; decide)
  rw [hone] at hissued₁ hnumbers₁
  rw [numbersIn_nil] at hnumbers₁
  have htwo : nextIn es₁ none = 2 := by rw [nextIn, hnumbers₁]; rfl
  have hissued₂ := issued_use_save h₁.tidy h₁.read Document.empty
  obtain ⟨es₂, h₂, hnumbers₂⟩ := h₁.use_save Document.empty (by rw [htwo]; decide)
  rw [htwo, hissued₁] at hissued₂
  rw [htwo, hnumbers₁] at hnumbers₂
  obtain ⟨es₃, h₃, hnumbers₃⟩ := h₂.use_mark (n := 1) (by rw [hissued₂]; decide) (by decide)
  rw [laggingLedger, issued_use_mark]
  exact ⟨es₃, h₃, by rw [hnumbers₃, hnumbers₂]; rfl, hissued₂⟩

theorem isReached_laggingLedger {allowed : Ledger → Use → Prop}
    (hsave : ∀ l d, allowed l (.save d)) (hmark : ∀ l, l.issued = [1, 2] → allowed l (.mark 1)) :
    IsReached (below "/etc/proxy") FileTree.empty allowed
      (laggingLedger (below "/etc/proxy")) := by
  obtain ⟨es, -, -, hissued⟩ := accounts_laggingLedger
  rw [laggingLedger, issued_use_mark] at hissued
  exact ((IsReached.start.use _ (hsave _ _)).use _ (hsave _ _)).use _ (hmark _ hissued)

theorem lagsOn_laggingLedger :
    (below "/etc/proxy").LagsOn (laggingLedger (below "/etc/proxy")).files := by
  obtain ⟨es, h, hnumbers, -⟩ := accounts_laggingLedger
  rw [lagsOn_iff h.tidy h.read, h.numbered.canonical.snapshotsIn_eq, hnumbers]
  exact ⟨_, List.mem_cons_self, rfl, _, List.mem_cons_of_mem _ List.mem_cons_self, by decide⟩

theorem issued_increasing_lagging :
    ∃ l : Ledger, l.issued = [1, 2] ∧
      ((l.use (below "/etc/proxy") (.save Document.empty)).issued.Pairwise (· < ·)) ∧
      ¬((l.use (below "/etc/proxy") (.prune 1)).use (below "/etc/proxy")
        (.save Document.empty)).issued.Pairwise (· < ·) := by
  obtain ⟨-, -, -, hissued⟩ := accounts_laggingLedger
  have hreached : IsReached (below "/etc/proxy") FileTree.empty
      (Use.IsCareful (below "/etc/proxy")) (laggingLedger (below "/etc/proxy")) :=
    isReached_laggingLedger (fun l d => ⟨trivial, nofun⟩)
      fun l hl => ⟨by rw [Use.IsFair, hl]; decide, nofun⟩
  obtain ⟨-, hsave, hprune⟩ := @issued_increasing FileTree.empty _ "/etc/proxy" rfl rfl hreached
    (by rw [hissued]; decide) Document.empty
  exact ⟨_, hissued, hsave, fun h => hprune.1 h lagsOn_laggingLedger⟩

/-- **A number is given twice** where only the snapshot that is marked is to remain. -/
theorem issued_reused :
    ∃ l : Ledger, IsReached (below "/etc/proxy") FileTree.empty (fun l u => u.IsFair l) l ∧
      l.issued = [1, 2, 2] := by
  obtain ⟨es, h, -, hissued⟩ := accounts_laggingLedger
  obtain ⟨m, hm, hreused, -⟩ := h.issued_of_lags lagsOn_laggingLedger Document.empty
  cases hm
  refine ⟨_, ((isReached_laggingLedger (fun l d => trivial) fun l hl => ?_).use (.prune 1)
    (Nat.le_refl 1)).use (.save Document.empty) trivial, ?_⟩
  · rw [Use.IsFair, hl]
    decide
  · rw [hreused, hissued]
    rfl

end SnapshotDir
end ProxyPlane
