import ProxyPlane.Path
import ProxyPlane.Proofs.Text.Pieces

/-!
# Paths below a directory

## What is here

* `pieces_append`: the pieces of two lists with a separator between them.
* `Path.IsName`, a name that can stand for an entry of a directory.
* `Path.segments_join`: a name below a directory leads to the entry of that name.
* `Path.segments_withFileName_join`: another name in its place leads to the entry beside it.
* `Path.segments_parent?` and `Path.segments_withExtension`: the directory of a path is the one that
  its last name is in, and another extension leads to an entry of the same directory.
-/

set_option autoImplicit false
namespace ProxyPlane

/-! ## Pieces -/

section Pieces

variable {α : Type} [BEq α] [LawfulBEq α] {sep : α}

/-- **The pieces of two lists with a separator between them.** -/
theorem pieces_append (xs ys : List α) :
    pieces sep (xs ++ sep :: ys) = pieces sep xs ++ pieces sep ys := by
  induction xs with
  | nil =>
    show (if sep == sep then [] :: pieces sep ys else _) = [[]] ++ pieces sep ys
    rw [beq_self_eq_true, if_pos rfl]
    rfl
  | cons x xs ih =>
    rw [List.cons_append, pieces, pieces, ih]
    split
    · rfl
    · cases hp : pieces sep xs with
      | nil => exact absurd hp (pieces_ne_nil sep xs)
      | cons p ps => rfl

theorem pieces_of_not_mem {xs : List α} (h : sep ∉ xs) : pieces sep xs = [xs] := by
  induction xs with
  | nil => rfl
  | cons x xs ih =>
    rw [List.mem_cons, not_or] at h
    rw [pieces, if_neg (by simpa using Ne.symm h.1), ih h.2]

theorem not_mem_of_mem_pieces {xs p : List α} (h : p ∈ pieces sep xs) : sep ∉ p := by
  induction xs generalizing p with
  | nil =>
    obtain rfl := List.mem_singleton.1 h
    exact List.not_mem_nil
  | cons x xs ih =>
    rw [pieces] at h
    split at h
    · rcases List.mem_cons.1 h with rfl | h
      · exact List.not_mem_nil
      · exact ih h
    · rename_i hx
      have hne : sep ≠ x := fun heq => hx (by simp [heq])
      cases hp : pieces sep xs with
      | nil => exact absurd hp (pieces_ne_nil sep xs)
      | cons q qs =>
        rw [hp] at h ih
        rcases List.mem_cons.1 h with rfl | h
        · rw [List.mem_cons, not_or]
          exact ⟨hne, ih List.mem_cons_self⟩
        · exact ih (List.mem_cons_of_mem _ h)

/-- Lists without the separator are the pieces of what joins them. -/
theorem pieces_intercalate {ps : List (List α)} (hne : ps ≠ []) (h : ∀ p ∈ ps, sep ∉ p) :
    pieces sep ([sep].intercalate ps) = ps := by
  induction ps with
  | nil => exact absurd rfl hne
  | cons p ps ih =>
    have hp := h p List.mem_cons_self
    cases ps with
    | nil => simpa [List.intercalate] using pieces_of_not_mem hp
    | cons q qs =>
      have hrest := ih (by simp) fun r hr => h r (List.mem_cons_of_mem _ hr)
      have hjoin : [sep].intercalate (p :: q :: qs) = p ++ sep :: [sep].intercalate (q :: qs) := by
        simp [List.intercalate]
      rw [hjoin, pieces_append, hrest, pieces_of_not_mem hp]
      rfl

omit [LawfulBEq α] in
theorem mem_of_mem_pieces {xs p : List α} (h : p ∈ pieces sep xs) : ∀ x ∈ p, x ∈ xs := by
  induction xs generalizing p with
  | nil =>
    obtain rfl := List.mem_singleton.1 h
    exact fun x hx => absurd hx List.not_mem_nil
  | cons x xs ih =>
    intro y hy
    rw [pieces] at h
    split at h
    · rcases List.mem_cons.1 h with rfl | h
      · exact absurd hy List.not_mem_nil
      · exact List.mem_cons_of_mem _ (ih h y hy)
    · cases hp : pieces sep xs with
      | nil => exact absurd hp (pieces_ne_nil sep xs)
      | cons q qs =>
        rw [hp] at h ih
        rcases List.mem_cons.1 h with rfl | h
        · rcases List.mem_cons.1 hy with rfl | hy
          · exact List.mem_cons_self
          · exact List.mem_cons_of_mem _ (ih List.mem_cons_self y hy)
        · exact List.mem_cons_of_mem _ (ih (List.mem_cons_of_mem _ h) y hy)

omit [BEq α] [LawfulBEq α] in
theorem mem_intercalate {x : α} {ps : List (List α)} (h : x ∈ [sep].intercalate ps) :
    x = sep ∨ ∃ p ∈ ps, x ∈ p := by
  induction ps with
  | nil => exact absurd h (by simp [List.intercalate])
  | cons p ps ih =>
    cases ps with
    | nil => exact .inr ⟨p, List.mem_cons_self, by simpa [List.intercalate] using h⟩
    | cons q qs =>
      have hjoin : [sep].intercalate (p :: q :: qs) = p ++ sep :: [sep].intercalate (q :: qs) := by
        simp [List.intercalate]
      rw [hjoin, List.mem_append, List.mem_cons] at h
      rcases h with h | h | h
      · exact .inr ⟨p, List.mem_cons_self, h⟩
      · exact .inl h
      · rcases ih h with h | ⟨r, hr, h⟩
        · exact .inl h
        · exact .inr ⟨r, List.mem_cons_of_mem _ hr, h⟩

end Pieces

namespace Path

/-- The names that count when a path is followed. -/
def counts (n : List Char) : Bool := n != [] && n != ['.']

/-- The names along which a path is followed, as lists of characters. -/
def follow (cs : List Char) : List (List Char) := (pieces '/' cs).filter counts

theorem segments_eq (p : String) :
    segments p = ((follow p.toList).map String.ofList).foldl enter [] := rfl

/-- Paths that are followed alike lead to the same place. -/
theorem segments_congr {p q : String} (h : follow p.toList = follow q.toList) :
    segments p = segments q := by
  rw [segments_eq, segments_eq, h]

/-- **A last name leads one step further**, unless it is two dots. -/
theorem segments_of_follow {p : String} {ns : List (List Char)} {name : List Char}
    (h : follow p.toList = ns ++ [name]) (hname : name ≠ ['.', '.']) :
    segments p = (ns.map String.ofList).foldl enter [] ++ [String.ofList name] := by
  have hdots : String.ofList name ≠ ".." := by
    intro heq
    have hlist := congrArg String.toList heq
    rw [String.toList_ofList] at hlist
    exact hname hlist
  rw [segments_eq, h, List.map_append, List.foldl_append, List.map_singleton, List.foldl_cons,
    List.foldl_nil, enter, if_neg hdots]

/-! ## The parts of a path -/

theorem filter_trimNames (names : List (List Char)) :
    (trimNames names).filter counts = names.filter counts := by
  have hdrop : ∀ ns : List (List Char),
      (ns.dropWhile fun n => n == [] || n == ['.']).filter counts = ns.filter counts := by
    intro ns
    induction ns with
    | nil => rfl
    | cons n ns ih =>
      rw [List.dropWhile_cons]
      split
      · rename_i hn
        simp only [Bool.or_eq_true, beq_iff_eq] at hn
        rw [ih, List.filter_cons_of_neg]
        rcases hn with rfl | rfl <;> decide
      · rfl
  rw [trimNames, List.filter_reverse, hdrop, List.filter_reverse, List.reverse_reverse]

theorem trimNames_isPrefix (names : List (List Char)) : trimNames names <+: names := by
  have hsuffix := List.dropWhile_suffix (l := names.reverse) fun n => n == [] || n == ['.']
  have hhead := List.reverse_prefix.2 hsuffix
  rwa [List.reverse_reverse] at hhead

/-- A path is followed along the names of its parts. -/
theorem filter_parts (cs : List Char) :
    (parts cs).2.filter counts = follow cs := by
  show (trimNames (pieces '/' (cs.drop (headLength cs)))).filter counts = _
  rw [filter_trimNames, follow]
  unfold headLength
  split
  · rfl
  · rfl
  · rename_i rest
    rw [List.drop_one, List.tail_cons, show pieces '/' ('.' :: '/' :: rest) =
      ['.'] :: pieces '/' rest from pieces_append ['.'] rest,
      show pieces '/' ('/' :: rest) = [] :: pieces '/' rest from pieces_append [] rest]
    rfl
  · rw [List.drop_zero]

/-- The last name of a path counts. -/
theorem counts_of_parts {cs l : List Char} {ns : List (List Char)}
    (h : (parts cs).2 = ns ++ [l]) : counts l = true := by
  have htrim : trimNames (pieces '/' (cs.drop (headLength cs))) = ns ++ [l] := h
  rw [trimNames, List.reverse_eq_iff, List.reverse_append] at htrim
  have hhead := List.head?_dropWhile_not (fun n => n == [] || n == ['.'])
    (pieces '/' (cs.drop (headLength cs))).reverse
  rw [htrim] at hhead
  simpa [counts] using hhead

/-- What a path starts with: the root, or a dot with a slash behind it, or nothing of the kind. -/
def StartsWith (head : List Char) (names : List (List Char)) : Prop :=
  head = [] ∨ head = ['/'] ∨ head = ['.'] ∧ ∀ n, names.head? = some n → n = []

theorem startsWith_parts (cs : List Char) : StartsWith (parts cs).1 (parts cs).2 := by
  have hhead := trimNames_isPrefix (pieces '/' (cs.drop (headLength cs)))
  show StartsWith (cs.take (headLength cs)) (trimNames (pieces '/' (cs.drop (headLength cs))))
  revert hhead
  unfold headLength
  split
  · intro _
    exact .inr (.inl rfl)
  · intro _
    exact .inr (.inr ⟨rfl, fun n hn => absurd hn nofun⟩)
  -- after a dot and a slash the names start with the empty one between them
  · rename_i rest
    intro hhead
    refine .inr (.inr ⟨rfl, fun n hn => ?_⟩)
    have hpieces : pieces '/' ('/' :: rest) = [] :: pieces '/' rest := pieces_append [] rest
    obtain ⟨more, hmore⟩ := hhead
    rw [List.drop_one, List.tail_cons, hpieces] at hmore
    rw [List.drop_one, List.tail_cons, hpieces] at hn
    cases hnames : trimNames ([] :: pieces '/' rest) with
    | nil =>
      rw [hnames] at hn
      exact absurd hn nofun
    | cons a as =>
      rw [hnames] at hn hmore
      rw [← Option.some.inj hn]
      exact (List.cons.inj hmore).1
  · intro _
    exact .inl rfl

theorem StartsWith.of_isPrefix {head : List Char} {names names' : List (List Char)}
    (h : StartsWith head names) (hhead : names' <+: names) : StartsWith head names' := by
  rcases h with h | h | ⟨h, hnames⟩
  · exact .inl h
  · exact .inr (.inl h)
  · refine .inr (.inr ⟨h, fun n hn => ?_⟩)
    obtain ⟨more, rfl⟩ := hhead
    exact hnames n (by rw [List.head?_append, hn]; rfl)

/-- A last name that counts may be replaced. -/
theorem StartsWith.concat {head last : List Char} {ns : List (List Char)}
    (h : StartsWith head (ns ++ [last])) (hlast : counts last = true) (other : List Char) :
    StartsWith head (ns ++ [other]) := by
  rcases h with h | h | ⟨h, hfirst⟩
  · exact .inl h
  · exact .inr (.inl h)
  · refine .inr (.inr ⟨h, fun n hn => ?_⟩)
    cases ns with
    | nil =>
      rw [hfirst last rfl] at hlast
      exact absurd hlast (by decide)
    | cons m ms => exact hfirst n hn

/-- A path made of parts is followed along their names. -/
theorem follow_ofParts {head : List Char} {names : List (List Char)}
    (hhead : StartsWith head names) (hnames : ∀ n ∈ names, '/' ∉ n) :
    follow (ofParts head names).toList = names.filter counts := by
  rw [ofParts, String.toList_ofList, follow]
  cases names with
  | nil => rcases hhead with rfl | rfl | ⟨rfl, -⟩ <;> decide
  | cons n ns =>
    have hpieces := pieces_intercalate (List.cons_ne_nil n ns) hnames
    rcases hhead with rfl | rfl | ⟨rfl, hn⟩
    · rw [List.nil_append, hpieces]
    · rw [show ['/'] ++ ['/'].intercalate (n :: ns) = [] ++ '/' :: ['/'].intercalate (n :: ns) from
        rfl, pieces_append, hpieces]
      rfl
    · obtain rfl := hn n rfl
      cases ns with
      | nil => decide
      | cons m ms =>
        have hrest := pieces_intercalate (List.cons_ne_nil m ms)
          fun x hx => hnames x (List.mem_cons_of_mem _ hx)
        rw [show ['.'] ++ ['/'].intercalate ([] :: m :: ms) =
          ['.'] ++ '/' :: ['/'].intercalate (m :: ms) by simp [List.intercalate],
          pieces_append, hrest]
        rfl

/-! ## Entries of directories -/

/-- A name that can stand for an entry of a directory. -/
structure IsName (name : String) : Prop where
  counts : counts name.toList = true
  notParent : name.toList ≠ ['.', '.']
  noSlash : '/' ∉ name.toList
  noNul : Char.ofNat 0 ∉ name.toList

theorem IsName.pieces_eq {name : String} (h : IsName name) :
    pieces '/' name.toList = [name.toList] :=
  pieces_of_not_mem h.noSlash

theorem IsName.not_isAbsolute {name : String} (h : IsName name) : isAbsolute name = false := by
  rw [isAbsolute, beq_eq_false_iff_ne]
  intro hhead
  obtain ⟨rest, hrest⟩ := List.head?_eq_some_iff.1 hhead
  exact h.noSlash (hrest ▸ List.mem_cons_self)

/-- The text of a path below another: a slash stands between them unless the other is empty. -/
theorem toList_join (base : String) {name : String} (h : IsName name) :
    (base = "" ∧ (join base name).toList = name.toList) ∨
      ∃ before, (join base name).toList = before ++ '/' :: name.toList ∧
        follow before = follow base.toList ∧ ∀ c ∈ before, c ∈ base.toList := by
  rw [join, h.not_isAbsolute, Bool.false_or]
  by_cases hempty : base.isEmpty = true
  · rw [if_pos hempty]
    exact .inl ⟨String.isEmpty_iff.1 hempty, rfl⟩
  · rw [if_neg hempty]
    right
    split
    · rename_i hlast
      obtain ⟨before, hbefore⟩ := List.getLast?_eq_some_iff.1 (beq_iff_eq.1 hlast)
      refine ⟨before, by simp [String.toList_append, hbefore], ?_, ?_⟩
      · rw [hbefore, follow, follow, pieces_append, List.filter_append]
        exact (List.append_nil _).symm
      · intro c hc
        rw [hbefore]
        exact List.mem_append_left _ hc
    · exact ⟨base.toList, by simp [String.toList_append], rfl, fun c hc => hc⟩

theorem follow_join (base : String) {name : String} (h : IsName name) :
    follow (join base name).toList = follow base.toList ++ [name.toList] := by
  rcases toList_join base h with ⟨rfl, hlist⟩ | ⟨before, hlist, hfollow, -⟩
  · rw [hlist, follow, h.pieces_eq, List.filter_cons_of_pos h.counts]
    rfl
  · rw [hlist, ← hfollow, follow, pieces_append, List.filter_append, h.pieces_eq,
      List.filter_cons_of_pos h.counts]
    rfl

/-- **A name below a directory leads to the entry of that name.** -/
theorem segments_join (base : String) {name : String} (h : IsName name) :
    segments (join base name) = segments base ++ [name] := by
  rw [segments_of_follow (follow_join base h) h.notParent, String.ofList_toList, segments_eq base]

/-- The parts of a path below a directory end with its name. -/
theorem parts_join (base : String) {name : String} (h : IsName name) :
    ∃ ns, (parts (join base name).toList).2 = ns ++ [name.toList] ∧
      ns.filter counts = follow base.toList := by
  have hfilter := filter_parts (join base name).toList
  rw [follow_join base h] at hfilter
  rcases List.eq_nil_or_concat (parts (join base name).toList).2 with hnil | ⟨ns, l, hns⟩
  · rw [hnil] at hfilter
    exact absurd hfilter (by simp)
  · rw [List.concat_eq_append] at hns
    rw [hns, List.filter_append, List.filter_cons_of_pos (counts_of_parts hns)] at hfilter
    obtain ⟨hbefore, hlast⟩ := List.append_inj' hfilter rfl
    obtain rfl : l = name.toList := by simpa using hlast
    exact ⟨ns, hns, hbefore⟩

theorem fileName?_join (base : String) {name : String} (h : IsName name) :
    fileName? (join base name) = some name := by
  obtain ⟨ns, hns, -⟩ := parts_join base h
  rw [fileName?, hns, List.getLast?_concat]
  simp only
  rw [if_neg (by simpa using h.notParent), String.ofList_toList]

/-- The directory of a path below it, as a text, is followed like the directory. -/
theorem parent?_join (base : String) {name : String} (h : IsName name) :
    ∃ dir, parent? (join base name) = some dir ∧ follow dir.toList = follow base.toList ∧
      ∀ c ∈ dir.toList, c = '/' ∨ c ∈ (join base name).toList := by
  obtain ⟨ns, hns, hfilter⟩ := parts_join base h
  have hstart := startsWith_parts (join base name).toList
  rw [hns] at hstart
  have hhead := trimNames_isPrefix ns
  have hmem : ∀ n ∈ trimNames ns, n ∈ pieces '/' ((join base name).toList.drop
      (headLength (join base name).toList)) := by
    intro n hn
    have hparts : n ∈ (parts (join base name).toList).2 :=
      hns ▸ List.mem_append_left _ (hhead.subset hn)
    exact (trimNames_isPrefix _).subset hparts
  refine ⟨ofParts (parts (join base name).toList).1 (trimNames ns), ?_, ?_, ?_⟩
  · rw [parent?]
    simp only [hns, List.dropLast_concat]
    rw [if_neg (by simp)]
  · rw [follow_ofParts (hstart.of_isPrefix (hhead.trans (List.prefix_append _ _)))
      fun n hn => not_mem_of_mem_pieces (hmem n hn), filter_trimNames, hfilter]
  · intro c hc
    rw [ofParts, String.toList_ofList] at hc
    rcases List.mem_append.1 hc with hc | hc
    · exact .inr (List.mem_of_mem_take hc)
    · rcases mem_intercalate hc with hc | ⟨n, hn, hc⟩
      · exact .inl hc
      · exact .inr (List.mem_of_mem_drop (mem_of_mem_pieces (hmem n hn) c hc))

theorem join_ne_empty (base : String) {name : String} (h : IsName name) : join base name ≠ "" := by
  intro hempty
  have hfollow := follow_join base h
  rw [hempty] at hfollow
  exact absurd hfollow (by simp [follow, pieces, Path.counts])

theorem nul_not_mem_join {base name : String} (h : IsName name)
    (hbase : Char.ofNat 0 ∉ base.toList) : Char.ofNat 0 ∉ (join base name).toList := by
  rcases toList_join base h with ⟨-, hlist⟩ | ⟨before, hlist, -, hbefore⟩
  · rw [hlist]
    exact h.noNul
  · rw [hlist, List.mem_append, List.mem_cons]
    rintro (hc | hc | hc)
    · exact hbase (hbefore _ hc)
    · exact absurd hc (by decide)
    · exact h.noNul hc

/-- **Another name in place of that of an entry leads to the entry beside it.** -/
theorem segments_withFileName_join (base : String) {name other : String} (h : IsName name)
    (hother : IsName other) :
    segments (withFileName (join base name) other) = segments base ++ [other] := by
  obtain ⟨dir, hdir, hfollow, -⟩ := parent?_join base h
  rw [withFileName, fileName?_join base h]
  simp only [hdir, Option.getD_some]
  rw [segments_join dir hother, segments_congr hfollow]

/-- The path of the entry beside it is again one below a directory. -/
theorem exists_join_of_withFileName (base : String) {name : String} (other : String)
    (h : IsName name) (hbase : Char.ofNat 0 ∉ base.toList) :
    ∃ dir, withFileName (join base name) other = join dir other ∧ Char.ofNat 0 ∉ dir.toList := by
  obtain ⟨dir, hdir, -, hchars⟩ := parent?_join base h
  refine ⟨dir, ?_, fun hc => ?_⟩
  · rw [withFileName, fileName?_join base h]
    simp only [hdir, Option.getD_some]
  · rcases hchars _ hc with hc | hc
    · exact absurd hc (by decide)
    · exact nul_not_mem_join h hbase hc

/-! ## Directories and extensions -/

theorem not_mem_of_mem_parts {cs n : List Char} (h : n ∈ (parts cs).2) : '/' ∉ n :=
  not_mem_of_mem_pieces ((trimNames_isPrefix _).subset h)

/-- The last name of a path ends its parts. -/
theorem exists_of_fileName? {p name : String} (h : fileName? p = some name) :
    ∃ ns, (parts p.toList).2 = ns ++ [name.toList] := by
  rw [fileName?] at h
  split at h
  · exact absurd h nofun
  · rename_i n hlast
    split at h
    · exact absurd h nofun
    · obtain rfl := Option.some.inj h
      obtain ⟨ns, hns⟩ := List.getLast?_eq_some_iff.1 hlast
      exact ⟨ns, by rw [hns, String.toList_ofList]⟩

/-- The last name of a path is not two dots. -/
theorem ne_dots_of_fileName? {p name : String} (h : fileName? p = some name) :
    name.toList ≠ ['.', '.'] := by
  rw [fileName?] at h
  split at h
  · exact absurd h nofun
  · split at h
    · exact absurd h nofun
    · rename_i hdots
      obtain rfl := Option.some.inj h
      rw [String.toList_ofList]
      simpa using hdots

/-- **The directory of a path is the one that its last name is in.** -/
theorem segments_parent? {p dir name : String} (h : parent? p = some dir)
    (hname : fileName? p = some name) : segments p = segments dir ++ [name] := by
  obtain ⟨ns, hns⟩ := exists_of_fileName? hname
  rw [parent?] at h
  simp only [hns, List.dropLast_concat] at h
  rw [if_neg (by simp)] at h
  obtain rfl := Option.some.inj h
  have hhead := trimNames_isPrefix ns
  have hstart : StartsWith (parts p.toList).1 (trimNames ns) :=
    (hns ▸ startsWith_parts p.toList).of_isPrefix (hhead.trans (List.prefix_append _ _))
  have hslash : ∀ n ∈ trimNames ns, '/' ∉ n := fun n hn =>
    not_mem_of_mem_parts (hns ▸ List.mem_append_left _ (hhead.subset hn))
  have hfollow : follow p.toList =
      follow (ofParts (parts p.toList).1 (trimNames ns)).toList ++ [name.toList] := by
    rw [follow_ofParts hstart hslash, filter_trimNames, ← filter_parts p.toList, hns,
      List.filter_append, List.filter_cons_of_pos (counts_of_parts hns)]
    rfl
  rw [segments_of_follow hfollow (ne_dots_of_fileName? hname), String.ofList_toList,
    ← segments_eq]

/-- A name with another extension. -/
def renamed (name extension : String) : List Char := stem name.toList ++ '.' :: extension.toList

theorem stem_isPrefix (name : List Char) : stem name <+: name := by
  rw [stem]
  split
  · exact List.prefix_refl _
  · rename_i before after _ hcut
    exact ⟨_, (cutLast?_eq_some.1 hcut).1.symm⟩
  · exact List.prefix_refl _

/-- An extension with a dot in it is none that a name can have. -/
theorem renamed_ne (name : String) {extension : String} (h : '.' ∈ extension.toList) :
    renamed name extension ≠ name.toList := by
  have hlonger : name.toList ++ '.' :: extension.toList ≠ name.toList := by simp
  rw [renamed, stem]
  split
  · exact hlonger
  · rename_i before after _ hcut
    obtain ⟨hname, hafter⟩ := cutLast?_eq_some.1 hcut
    rw [hname]
    intro heq
    obtain ⟨-, hext⟩ := List.append_inj heq rfl
    rw [← (List.cons.inj hext).2] at hafter
    exact hafter h
  · exact hlonger

theorem intercalate_concat_append (ns : List (List Char)) (n more : List Char) :
    ['/'].intercalate (ns ++ [n ++ more]) = ['/'].intercalate (ns ++ [n]) ++ more := by
  induction ns with
  | nil => simp [List.intercalate]
  | cons m ms ih =>
    cases hms : ms ++ [n] with
    | nil => exact absurd hms (by simp)
    | cons x xs =>
      cases ms with
      | nil => simp_all [List.intercalate]
      | cons y ys => simp_all [List.intercalate]

/-- The text of a path with another extension is made of the same parts, but for the last. -/
theorem withExtension_eq {p name extension : String} {ns : List (List Char)}
    (hname : fileName? p = some name) (hns : (parts p.toList).2 = ns ++ [name.toList]) :
    withExtension p extension = ofParts (parts p.toList).1 (ns ++ [renamed name extension]) := by
  rw [withExtension, hname]
  simp only [hns, List.dropLast_concat]
  rw [ofParts, ofParts, renamed, intercalate_concat_append, ← List.append_assoc,
    String.append_assoc]
  apply String.toList_injective
  simp

theorem slash_not_mem_renamed {name extension : String} (hname : '/' ∉ name.toList)
    (hextension : '/' ∉ extension.toList) : '/' ∉ renamed name extension := by
  rw [renamed, List.mem_append, List.mem_cons]
  rintro (hc | hc | hc)
  · exact hname ((stem_isPrefix _).subset hc)
  · exact absurd hc (by decide)
  · exact hextension hc

theorem counts_renamed (name : String) {extension : String} (hne : extension ≠ "") :
    counts (renamed name extension) = true := by
  have hlong : 1 < (renamed name extension).length := by
    have hpos := List.length_pos_iff.2 fun h => hne (String.toList_eq_nil_iff.1 h)
    rw [renamed, List.length_append, List.length_cons]
    omega
  simp only [counts, Bool.and_eq_true, bne_iff_ne]
  exact ⟨fun h => by simp [h] at hlong, fun h => by simp [h] at hlong⟩

theorem stem_ne_nil {name : List Char} (h : name ≠ []) : stem name ≠ [] := by
  rw [stem]
  split
  · exact h
  · rename_i before after hshort hcut
    exact hshort
  · exact h

/-- A name with an extension is longer than two dots. -/
theorem renamed_ne_dots {name extension : String} (hname : name.toList ≠ [])
    (hne : extension ≠ "") : renamed name extension ≠ ['.', '.'] := by
  have hstem := List.length_pos_iff.2 (stem_ne_nil hname)
  have hpos := List.length_pos_iff.2 fun h => hne (String.toList_eq_nil_iff.1 h)
  intro hdots
  have hlength := congrArg List.length hdots
  rw [renamed, List.length_append, List.length_cons] at hlength
  simp only [List.length_cons, List.length_nil] at hlength
  omega

/-- **A path with another extension leads to an entry of the same directory.** -/
theorem segments_withExtension {p name extension : String} (hname : fileName? p = some name)
    (hne : extension ≠ "") (hslash : '/' ∉ extension.toList) :
    ∃ dir, segments p = dir ++ [name] ∧
      segments (withExtension p extension) = dir ++ [String.ofList (renamed name extension)] := by
  obtain ⟨ns, hns⟩ := exists_of_fileName? hname
  have hlast := counts_of_parts hns
  have hstart : StartsWith (parts p.toList).1 (ns ++ [renamed name extension]) :=
    (hns ▸ startsWith_parts p.toList).concat hlast _
  have hparts : ∀ n ∈ ns ++ [name.toList], '/' ∉ n := fun n hn =>
    not_mem_of_mem_parts (hns ▸ hn)
  have hnames : ∀ n ∈ ns ++ [renamed name extension], '/' ∉ n := by
    intro n hn
    rcases List.mem_append.1 hn with hn | hn
    · exact hparts n (List.mem_append_left _ hn)
    · obtain rfl := List.mem_singleton.1 hn
      have hfile := hparts name.toList (List.mem_append_right _ List.mem_cons_self)
      exact slash_not_mem_renamed hfile hslash
  have hnonempty : name.toList ≠ [] := fun hnil => absurd (hnil ▸ hlast) (by decide)
  have hfollow : follow p.toList = ns.filter counts ++ [name.toList] := by
    rw [← filter_parts, hns, List.filter_append, List.filter_cons_of_pos hlast]
    rfl
  have hother : follow (withExtension p extension).toList =
      ns.filter counts ++ [renamed name extension] := by
    rw [withExtension_eq hname hns, follow_ofParts hstart hnames, List.filter_append,
      List.filter_cons_of_pos (counts_renamed name hne)]
    rfl
  refine ⟨_, ?_, segments_of_follow hother (renamed_ne_dots hnonempty hne)⟩
  rw [segments_of_follow hfollow (ne_dots_of_fileName? hname), String.ofList_toList]

end Path
end ProxyPlane
