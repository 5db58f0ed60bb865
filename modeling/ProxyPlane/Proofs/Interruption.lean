import ProxyPlane.Program

/-!
# Programs that are stopped

Whoever runs a program may stop it: before a request, while a request is being answered, or at its
end.  What a request does halfway is said by a relation, and what was heard until then by a list.

## What is here

* `Program.Stops`, the states in which a program can be stopped, and what was heard until then.
* `Program.trace`, what is heard in a whole run, and `stops_run`: a program may come to its end.
* `Stops.of_bind` and `Stops.bind`: a program and what follows it stop in one or in the other.
* `Program.Asks`, that a program only makes some requests, and `Stops.of_asks`, what it then leaves.
-/

set_option autoImplicit false
namespace ProxyPlane
namespace Program

variable {E : Type → Type} {α β σ ω : Type} (answer : {β : Type} → E β → σ → β × σ)
  (torn : {β : Type} → E β → σ → σ → Prop) (note : {β : Type} → E β → β → List ω)

/-- What is heard in a whole run, where `note` says what is heard with an answer. -/
def trace : Program E α → σ → List ω
  | done _, _ => []
  | step e next, s =>
    note e (answer e s).1 ++ trace (next (answer e s).1) (answer e s).2

/-- The states in which a program can be stopped, and what was heard until then.  While a request
is being answered the state may be any that `torn` allows, and nothing of the answer is heard. -/
inductive Stops : Program E α → σ → List ω → σ → Prop
  /-- Nothing more is asked. -/
  | here (p : Program E α) (s : σ) : Stops p s [] s
  /-- The request is not answered. -/
  | during {β : Type} {e : E β} {next : β → Program E α} {s s' : σ} (h : torn e s s') :
    Stops (step e next) s [] s'
  /-- The request is answered, and the program is stopped later. -/
  | after {β : Type} {e : E β} {next : β → Program E α} {s s' : σ} {heard : List ω}
    (h : Stops (next (answer e s).1) (answer e s).2 heard s') :
    Stops (step e next) s (note e (answer e s).1 ++ heard) s'

variable {answer torn note}

/-- **A program may come to its end.** -/
theorem stops_run (p : Program E α) (s : σ) :
    p.Stops answer torn note s (p.trace answer note s) (p.run answer s).2 := by
  induction p generalizing s with
  | done a => exact .here (done a) s
  | step e next ih => exact .after (ih (answer e s).1 (answer e s).2)

/-- What is heard in a program and then in what follows it. -/
theorem trace_bind (p : Program E α) (f : α → Program E β) (s : σ) :
    (p.bind f).trace answer note s =
      p.trace answer note s ++ (f (p.run answer s).1).trace answer note (p.run answer s).2 := by
  induction p generalizing s with
  | done a => rfl
  | step e next ih => rw [step_bind, trace, ih, trace, run_step, List.append_assoc]

variable {s s' : σ} {heard : List ω}

theorem Stops.of_done {a : α} (h : (done a : Program E α).Stops answer torn note s heard s') :
    heard = [] ∧ s' = s := by
  cases h with
  | here => exact ⟨rfl, rfl⟩

/-- **A program and what follows it** are stopped in the program, or in what follows once the
program came to its end. -/
theorem Stops.of_bind {p : Program E α} {f : α → Program E β}
    (h : (p.bind f).Stops answer torn note s heard s') :
    p.Stops answer torn note s heard s' ∨
      ∃ later, heard = p.trace answer note s ++ later ∧
        (f (p.run answer s).1).Stops answer torn note (p.run answer s).2 later s' := by
  induction p generalizing s heard with
  | done a => exact .inr ⟨heard, rfl, h⟩
  | step e next ih =>
    cases h with
    | here => exact .inl (.here _ _)
    | during htorn => exact .inl (.during htorn)
    | after hrest =>
      rcases ih _ hrest with hfirst | ⟨later, rfl, hlater⟩
      · exact .inl (.after hfirst)
      · exact .inr ⟨later, (List.append_assoc _ _ _).symm, hlater⟩

/-- What follows a program is stopped once the program came to its end. -/
theorem Stops.bind (p : Program E α) {f : α → Program E β} {later : List ω}
    (h : (f (p.run answer s).1).Stops answer torn note (p.run answer s).2 later s') :
    (p.bind f).Stops answer torn note s (p.trace answer note s ++ later) s' := by
  induction p generalizing s with
  | done a => exact h
  | step e next ih =>
    rw [trace, List.append_assoc]
    exact .after (ih (answer e s).1 h)

/-- What follows a program in which nothing is heard. -/
theorem Stops.bind_of_trace_eq_nil {p : Program E α} {f : α → Program E β}
    (hsilent : p.trace answer note s = [])
    (h : (f (p.run answer s).1).Stops answer torn note (p.run answer s).2 heard s') :
    (p.bind f).Stops answer torn note s heard s' := by
  have hlater := Stops.bind p h
  rwa [hsilent, List.nil_append] at hlater

/-- Only the result is changed after the program. -/
theorem Stops.of_bind_done {p : Program E α} {g : α → β}
    (h : (p.bind fun a => done (g a)).Stops answer torn note s heard s') :
    p.Stops answer torn note s heard s' := by
  rcases h.of_bind with hfirst | ⟨later, rfl, hlater⟩
  · exact hfirst
  · obtain ⟨rfl, rfl⟩ := hlater.of_done
    rw [List.append_nil]
    exact stops_run p s

/-- A first request is not begun, broken off or answered. -/
theorem Stops.of_step {e : E β} {next : β → Program E α}
    (h : (step e next).Stops answer torn note s heard s') :
    heard = [] ∧ (s' = s ∨ torn e s s') ∨
      ∃ later, heard = note e (answer e s).1 ++ later ∧
        (next (answer e s).1).Stops answer torn note (answer e s).2 later s' := by
  cases h with
  | here => exact .inl ⟨rfl, .inl rfl⟩
  | during htorn => exact .inl ⟨rfl, .inr htorn⟩
  | after hlater => exact .inr ⟨_, rfl, hlater⟩

/-- A single request is not begun, broken off or answered. -/
theorem Stops.of_step_done {e : E β} {g : β → α}
    (h : (step e fun b => done (g b)).Stops answer torn note s heard s') :
    heard = [] ∧ (s' = s ∨ torn e s s') ∨
      heard = note e (answer e s).1 ∧ s' = (answer e s).2 := by
  rcases h.of_step with hbegun | ⟨later, rfl, hlater⟩
  · exact .inl hbegun
  · obtain ⟨rfl, rfl⟩ := hlater.of_done
    exact .inr ⟨List.append_nil _, rfl⟩

/-! ## Programs that only make some requests -/

/-- All requests of a program are allowed, whatever the answers. -/
def Asks (allowed : {β : Type} → E β → Prop) : Program E α → Prop
  | done _ => True
  | step e next => allowed e ∧ ∀ b, (next b).Asks allowed

variable {allowed : {β : Type} → E β → Prop}

theorem Asks.bind {p : Program E α} {f : α → Program E β} (hp : p.Asks allowed)
    (hf : ∀ a, (f a).Asks allowed) : (p.bind f).Asks allowed := by
  induction p with
  | done a => exact hf a
  | step e next ih => exact ⟨hp.1, fun b => ih b (hp.2 b)⟩

theorem Asks.mono {more : {β : Type} → E β → Prop} {p : Program E α} (hp : p.Asks allowed)
    (hmore : ∀ {β : Type} (e : E β), allowed e → more e) : p.Asks more := by
  induction p with
  | done a => trivial
  | step e next ih => exact ⟨hmore e hp.1, fun b => ih b (hp.2 b)⟩

/-- **What every request leaves, whether it is answered or broken off, the program leaves**,
wherever it is stopped. -/
theorem Stops.of_asks {p : Program E α} (h : p.Stops answer torn note s heard s')
    (hp : p.Asks allowed) (inv : σ → Prop)
    (hanswer : ∀ {β : Type} (e : E β) (s : σ), allowed e → inv s → inv (answer e s).2)
    (htorn : ∀ {β : Type} (e : E β) (s s' : σ), allowed e → torn e s s' → inv s → inv s')
    (hinv : inv s) : inv s' := by
  induction h with
  | here => exact hinv
  | during hbroken => exact htorn _ _ _ hp.1 hbroken hinv
  | after hlater ih => exact ih (hp.2 _) (hanswer _ _ hp.1 hinv)

/-- Nothing is heard where no answer is noted. -/
theorem trace_eq_nil {p : Program E α} (hp : p.Asks allowed)
    (hnote : ∀ {β : Type} (e : E β) (b : β), allowed e → note e b = []) (s : σ) :
    p.trace answer note s = [] := by
  induction p generalizing s with
  | done a => rfl
  | step e next ih => rw [trace, hnote e _ hp.1, ih _ (hp.2 _), List.append_nil]

theorem Stops.heard_eq_nil {p : Program E α} (h : p.Stops answer torn note s heard s')
    (hp : p.Asks allowed)
    (hnote : ∀ {β : Type} (e : E β) (b : β), allowed e → note e b = []) : heard = [] := by
  induction h with
  | here => rfl
  | during hbroken => rfl
  | after hlater ih => rw [hnote _ _ hp.1, ih (hp.2 _), List.append_nil]

end Program
end ProxyPlane
