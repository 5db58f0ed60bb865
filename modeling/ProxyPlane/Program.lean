/-!
# Programs that ask the world

What touches files, the proxy or the clock is written as a program: a tree of requests, each with
what follows every possible answer.  A program is data.  It is run by whoever answers its requests:
a model of the world in pure code, one that fails on purpose, or the world itself.

## What is here

* `Program E α`, programs with requests in `E` and a result in `α`, as a lawful monad.
* `Program.run`, against answers that change a state, and `Program.runIn`, inside a monad;
  `run_bind` and `run_perform` say how a run goes on.
* `Program.via`, a program with each of its requests replaced by a program (`run_via`).
-/

set_option autoImplicit false
namespace ProxyPlane

/-- A program whose requests are in `E`, where a request in `E β` is answered by a `β`. -/
inductive Program (E : Type → Type) (α : Type) : Type 1
  | done (result : α)
  | step {β : Type} (request : E β) (next : β → Program E α)

namespace Program

variable {E F : Type → Type} {α β γ σ : Type}

/-- A program, and then what follows its result. -/
def bind : Program E α → (α → Program E β) → Program E β
  | done a, f => f a
  | step e next, f => step e fun b => (next b).bind f

instance : Monad (Program E) where
  pure := done
  bind := bind

@[simp]
theorem pure_eq (a : α) : (pure a : Program E α) = done a := rfl

@[simp]
theorem bind_eq (p : Program E α) (f : α → Program E β) : p >>= f = p.bind f := rfl

@[simp]
theorem done_bind (a : α) (f : α → Program E β) : (done a).bind f = f a := rfl

@[simp]
theorem step_bind (e : E γ) (next : γ → Program E α) (f : α → Program E β) :
    (step e next).bind f = step e fun c => (next c).bind f := rfl

theorem bind_done (p : Program E α) : p.bind done = p := by
  induction p with
  | done a => rfl
  | step e next ih => rw [step_bind]; congr 1; funext b; exact ih b

theorem bind_assoc (p : Program E α) (f : α → Program E β) (g : β → Program E γ) :
    (p.bind f).bind g = p.bind fun a => (f a).bind g := by
  induction p with
  | done a => rfl
  | step e next ih => rw [step_bind, step_bind, step_bind]; congr 1; funext b; exact ih b

instance : LawfulMonad (Program E) :=
  LawfulMonad.mk' (Program E) (fun p => bind_done p) (fun _ _ => rfl)
    (fun p f g => bind_assoc p f g)

/-- A single request. -/
def perform (e : E α) : Program E α := step e done

/-- The result of a program and the state after it, where `answer` answers a request and changes
the state. -/
def run (answer : {β : Type} → E β → σ → β × σ) : Program E α → σ → α × σ
  | done a, s => (a, s)
  | step e next, s =>
    let r := answer e s
    run answer (next r.1) r.2

@[simp]
theorem run_done (answer : {β : Type} → E β → σ → β × σ) (a : α) (s : σ) :
    (done a).run answer s = (a, s) := rfl

@[simp]
theorem run_step (answer : {β : Type} → E β → σ → β × σ) (e : E β) (next : β → Program E α)
    (s : σ) : (step e next).run answer s = (next (answer e s).1).run answer (answer e s).2 := rfl

/-- **What follows a program runs in the state that the program leaves.** -/
@[simp]
theorem run_bind (answer : {β : Type} → E β → σ → β × σ) (p : Program E α)
    (f : α → Program E β) (s : σ) :
    (p.bind f).run answer s = (f (p.run answer s).1).run answer (p.run answer s).2 := by
  induction p generalizing s with
  | done a => rfl
  | step e next ih => rw [step_bind, run_step, run_step, ih]

@[simp]
theorem run_perform (answer : {β : Type} → E β → σ → β × σ) (e : E α) (s : σ) :
    (perform e).run answer s = answer e s := rfl

/-- A program run inside a monad that answers its requests. -/
def runIn {m : Type → Type} [Monad m] (answer : {β : Type} → E β → m β) : Program E α → m α
  | done a => Pure.pure a
  | step e next => do
    let b ← answer e
    runIn answer (next b)

/-- A program with each request replaced by a program. -/
def via (f : {β : Type} → E β → Program F β) : Program E α → Program F α
  | done a => done a
  | step e next => (f e).bind fun b => (next b).via f

@[simp]
theorem via_done (f : {β : Type} → E β → Program F β) (a : α) : (done a).via f = done a := rfl

@[simp]
theorem via_bind (f : {β : Type} → E β → Program F β) (p : Program E α)
    (g : α → Program E β) : (p.bind g).via f = (p.via f).bind fun a => (g a).via f := by
  induction p with
  | done a => rfl
  | step e next ih =>
    rw [step_bind, via, via, bind_assoc]
    congr 1
    funext b
    exact ih b

/-- **Replacing requests by programs is answering them by running those programs.** -/
theorem run_via (f : {β : Type} → E β → Program F β) (answer : {β : Type} → F β → σ → β × σ)
    (p : Program E α) (s : σ) :
    (p.via f).run answer s = p.run (fun e s => (f e).run answer s) s := by
  induction p generalizing s with
  | done a => rfl
  | step e next ih => rw [via, run_bind, run_step, ih]

end Program
end ProxyPlane
