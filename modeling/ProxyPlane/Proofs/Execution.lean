import ProxyPlane.Proofs.Snapshot.Interruption

/-!
# Programs whose requests may fail

A request may be answered in more than one way: a disk may be full, or a directory may be closed to
the program.  Which answers there can be is said by a relation, and a program may then end in more
than one way.

## What is here

* `Program.MayEnd`, the results and states that a program may end with; `mayEnd_bind`: a program and
  what follows it end one after the other, and `mayEnd_via`: replaced requests end like programs.
* `MayEnd.of_asks`, what every request keeps, and `mayEnd_iff_run`, where there is only one way.
* `FileTree.MayAnswer`: an operation on files is answered, or fails for any cause.
-/

set_option autoImplicit false
namespace ProxyPlane
namespace Program

variable {E F : Type → Type} {α β σ : Type}

/-- A program may end with a result and in a state, where `allows` says which answers a request may
have, and which state may be left after each. -/
def MayEnd (allows : {β : Type} → E β → σ → β → σ → Prop) : Program E α → σ → α → σ → Prop
  | done a, s, r, s' => r = a ∧ s' = s
  | step e next, s, r, s' => ∃ b s₁, allows e s b s₁ ∧ (next b).MayEnd allows s₁ r s'

variable {allows : {β : Type} → E β → σ → β → σ → Prop} {s s' : σ} {a : α}

@[simp]
theorem mayEnd_done {r : α} : (done a : Program E α).MayEnd allows s r s' ↔ r = a ∧ s' = s :=
  Iff.rfl

@[simp]
theorem mayEnd_step {e : E β} {next : β → Program E α} :
    (step e next).MayEnd allows s a s' ↔
      ∃ b s₁, allows e s b s₁ ∧ (next b).MayEnd allows s₁ a s' := Iff.rfl

theorem mayEnd_perform {e : E α} : (perform e).MayEnd allows s a s' ↔ allows e s a s' := by
  simp [perform]

/-- **A program and what follows it** end one after the other. -/
theorem mayEnd_bind {p : Program E α} {f : α → Program E β} {b : β} :
    (p.bind f).MayEnd allows s b s' ↔
      ∃ a s₁, p.MayEnd allows s a s₁ ∧ (f a).MayEnd allows s₁ b s' := by
  induction p generalizing s with
  | done a => simp
  | step e next ih =>
    simp only [step_bind, mayEnd_step, ih]
    constructor
    · rintro ⟨c, s₁, hallows, a, s₂, hfirst, hrest⟩
      exact ⟨a, s₂, ⟨c, s₁, hallows, hfirst⟩, hrest⟩
    · rintro ⟨a, s₂, ⟨c, s₁, hallows, hfirst⟩, hrest⟩
      exact ⟨c, s₁, hallows, a, s₂, hfirst, hrest⟩

/-- What follows a program that ends in one way. -/
theorem mayEnd_bind_of_iff {p : Program E α} {f : α → Program E β} {b : β} {ending : α × σ}
    (h : ∀ a s₁, p.MayEnd allows s a s₁ ↔ (a, s₁) = ending) :
    (p.bind f).MayEnd allows s b s' ↔ (f ending.1).MayEnd allows ending.2 b s' := by
  simp only [mayEnd_bind, h]
  constructor
  · rintro ⟨a, s₁, rfl, hrest⟩
    exact hrest
  · exact fun hrest => ⟨_, _, rfl, hrest⟩

/-- **A request that is replaced by a program** is answered in the ways that the program ends. -/
theorem mayEnd_via {f : {β : Type} → F β → Program E β} {p : Program F α} :
    (p.via f).MayEnd allows s a s' ↔
      p.MayEnd (fun e s b s' => (f e).MayEnd allows s b s') s a s' := by
  induction p generalizing s with
  | done a => rfl
  | step e next ih => simp only [via, mayEnd_bind, mayEnd_step, ih]

/-- A program that may fail, and what follows its success: the first fails, or both end one after
the other. -/
theorem mayEnd_exceptBind {ε : Type} {x : ExceptT ε (Program E) α}
    {f : α → ExceptT ε (Program E) β} {r : Except ε β} :
    (x >>= f).run.MayEnd allows s r s' ↔
      (∃ e, x.run.MayEnd allows s (.error e) s' ∧ r = .error e) ∨
        ∃ a s₁, x.run.MayEnd allows s (.ok a) s₁ ∧ (f a).run.MayEnd allows s₁ r s' := by
  show (x.run.bind (ExceptT.bindCont f)).MayEnd allows s r s' ↔ _
  rw [mayEnd_bind]
  constructor
  · rintro ⟨e | a, s₁, hfirst, hrest⟩
    · obtain ⟨rfl, rfl⟩ := hrest
      exact .inl ⟨e, hfirst, rfl⟩
    · exact .inr ⟨a, s₁, hfirst, hrest⟩
  · rintro (⟨e, hfirst, rfl⟩ | ⟨a, s₁, hfirst, hrest⟩)
    · exact ⟨.error e, s', hfirst, rfl, rfl⟩
    · exact ⟨.ok a, s₁, hfirst, hrest⟩

/-- A run is one of the ways to end. -/
theorem mayEnd_run (answer : {β : Type} → E β → σ → β × σ) (p : Program E α) (s : σ) :
    p.MayEnd (fun e s b s' => (b, s') = answer e s) s (p.run answer s).1 (p.run answer s).2 := by
  induction p generalizing s with
  | done a => exact ⟨rfl, rfl⟩
  | step e next ih => exact ⟨_, _, rfl, ih _ _⟩

/-- A run in which nothing is noted goes through answers with which nothing is noted. -/
theorem mayEnd_of_trace_eq_nil {ω : Type} {answer : {β : Type} → E β → σ → β × σ}
    {note : {β : Type} → E β → β → List ω} {p : Program E α}
    (h : p.trace answer note s = []) :
    p.MayEnd (fun e s b s' => (b, s') = answer e s ∧ note e b = []) s (p.run answer s).1
      (p.run answer s).2 := by
  induction p generalizing s with
  | done a => exact ⟨rfl, rfl⟩
  | step e next ih =>
    obtain ⟨hnote, hrest⟩ := List.append_eq_nil_iff.1 h
    exact ⟨_, _, ⟨rfl, hnote⟩, ih _ hrest⟩

/-- More answers allow more ends. -/
theorem MayEnd.mono {p : Program E α} {more : {β : Type} → E β → σ → β → σ → Prop}
    (h : p.MayEnd allows s a s')
    (hmore : ∀ {β : Type} (e : E β) (s : σ) (b : β) (s' : σ), allows e s b s' → more e s b s') :
    p.MayEnd more s a s' := by
  induction p generalizing s with
  | done a => exact h
  | step e next ih =>
    obtain ⟨b, s₁, hallows, hrest⟩ := h
    exact ⟨b, s₁, hmore e s b s₁ hallows, ih b hrest⟩

/-- A program ends alike if each request is replaced by a program that ends as the request may be
answered. -/
theorem mayEnd_via_iff {f : {β : Type} → F β → Program E β} {p : Program F α}
    {may : {β : Type} → F β → σ → β → σ → Prop}
    (h : ∀ {β : Type} (e : F β) (s : σ) (b : β) (s' : σ),
      (f e).MayEnd allows s b s' ↔ may e s b s') :
    (p.via f).MayEnd allows s a s' ↔ p.MayEnd may s a s' := by
  rw [mayEnd_via]
  exact ⟨fun hend => hend.mono fun e s b s' => (h e s b s').1,
    fun hend => hend.mono fun e s b s' => (h e s b s').2⟩

section Asks

variable {allowed : {β : Type} → E β → Prop} {p : Program E α}

/-- **What every request keeps, the program keeps**, however it ends. -/
theorem MayEnd.of_asks (h : p.MayEnd allows s a s') (hp : p.Asks allowed) (inv : σ → Prop)
    (hstep : ∀ {β : Type} (e : E β) (s : σ) (b : β) (s' : σ),
      allowed e → allows e s b s' → inv s → inv s') (hinv : inv s) : inv s' := by
  induction p generalizing s with
  | done a => exact h.2 ▸ hinv
  | step e next ih =>
    obtain ⟨b, s₁, hallows, hrest⟩ := h
    exact ih b hrest (hp.2 b) (hstep e s b s₁ hp.1 hallows hinv)

/-- **A program ends in one way** where each of its requests has one answer. -/
theorem mayEnd_iff_run {answer : {β : Type} → E β → σ → β × σ} (hp : p.Asks allowed)
    (inv : σ → Prop)
    (hone : ∀ {β : Type} (e : E β) (s : σ) (b : β) (s' : σ), allowed e → inv s →
      (allows e s b s' ↔ (b, s') = answer e s))
    (hstep : ∀ {β : Type} (e : E β) (s : σ), allowed e → inv s → inv (answer e s).2)
    (hinv : inv s) : p.MayEnd allows s a s' ↔ (a, s') = p.run answer s := by
  induction p generalizing s with
  | done r => simp
  | step e next ih =>
    rw [mayEnd_step, run_step, ← ih _ (hp.2 _) (hstep e s hp.1 hinv)]
    constructor
    · rintro ⟨b, s₁, hallows, hrest⟩
      rwa [← (hone e s b s₁ hp.1 hinv).1 hallows]
    · exact fun hrest => ⟨_, _, (hone e s _ _ hp.1 hinv).2 rfl, hrest⟩

end Asks

end Program

/-! ## Files -/

/-- The answer to an operation that failed; the question whether something is there cannot fail. -/
def FileOp.failure : {β : Type} → FileOp β → IoError → Option β
  | _, .read _, e => some (.error e)
  | _, .list _, e => some (.error e)
  | _, .isPresent _, _ => none
  | _, .makeDirs _, e => some (.error e)
  | _, .write _ _, e => some (.error e)
  | _, .append _ _, e => some (.error e)
  | _, .rename _ _, e => some (.error e)
  | _, .remove _, e => some (.error e)
  | _, .copy _ _, e => some (.error e)

/-- The failure that an answer to an operation reports, if any. -/
def FileOp.failures : {β : Type} → FileOp β → β → List IoError
  | _, .read _, .error e => [e]
  | _, .list _, .error e => [e]
  | _, .makeDirs _, .error e => [e]
  | _, .write _ _, .error e => [e]
  | _, .append _ _, .error e => [e]
  | _, .rename _ _, .error e => [e]
  | _, .remove _, .error e => [e]
  | _, .copy _ _, .error e => [e]
  | _, _, _ => []

/-- An operation is answered as the tree answers it. -/
def FileTree.Answers {β : Type} (op : FileOp β) (t : FileTree) (b : β) (t' : FileTree) : Prop :=
  (b, t') = FileTree.answer op t

/-- An operation is answered with success. -/
def FileTree.Succeeds {β : Type} (op : FileOp β) (t : FileTree) (b : β) (t' : FileTree) : Prop :=
  FileTree.Answers op t b t' ∧ op.failures b = []

/-- An operation is answered, or it fails for any cause, and then it may be done in part. -/
def FileTree.MayAnswer {β : Type} (op : FileOp β) (t : FileTree) (b : β) (t' : FileTree) : Prop :=
  (b, t') = FileTree.answer op t ∨
    ∃ e, op.failure e = some b ∧ (t' = t ∨ FileTree.Torn op t t')

theorem FileTree.mayAnswer_answer {β : Type} (op : FileOp β) (t : FileTree) :
    FileTree.MayAnswer op t (FileTree.answer op t).1 (FileTree.answer op t).2 :=
  .inl rfl

end ProxyPlane
