/-!
# Telling tasks to stop

Tasks that run for long subscribe to a signal.  Only the last signal is kept: who did not receive
one before the next was given learns how many were missed.

## What is here

* `Shutdown`, with `subscribe`, `unsubscribe`, `trigger` and `receive`.
* `Shutdown.Received`, what a subscriber finds.
-/

set_option autoImplicit false
namespace ProxyPlane

/-- The signals given so far, and for each subscriber the number of those it has behind it, unless
it has left. -/
structure Shutdown where
  given : Nat
  subscribers : List (Option Nat)
deriving DecidableEq, Repr, Inhabited

namespace Shutdown

/-- What a subscriber finds. -/
inductive Received
  | signal
  /-- No signal was given since the last one. -/
  | empty
  /-- So many signals were given that were not kept. -/
  | missed (count : Nat)
  /-- Nobody subscribed under the number, or who did has left. -/
  | notSubscribed
deriving DecidableEq, Repr, Inhabited

/-- Nobody has subscribed yet. -/
def start : Shutdown := ⟨0, []⟩

/-- The number of tasks that still listen. -/
def listening (s : Shutdown) : Nat := (s.subscribers.filter Option.isSome).length

/-- A new subscriber's number; signals given before do not reach it. -/
def subscribe (s : Shutdown) : Nat × Shutdown :=
  (s.subscribers.length, { s with subscribers := s.subscribers ++ [some s.given] })

/-- A subscriber leaves. -/
def unsubscribe (id : Nat) (s : Shutdown) : Shutdown :=
  { s with subscribers := s.subscribers.set id none }

/-- A signal; nothing happens if nobody listens. -/
def trigger (s : Shutdown) : Shutdown :=
  if s.listening = 0 then s else { s with given := s.given + 1 }

/-- What a subscriber finds, without waiting. -/
def receive (id : Nat) (s : Shutdown) : Received × Shutdown :=
  match s.subscribers[id]? with
  | none | some none => (.notSubscribed, s)
  | some (some seen) =>
    let at_ (n : Nat) : Shutdown := { s with subscribers := s.subscribers.set id (some n) }
    if s.given ≤ seen then (.empty, s)
    else if s.given = seen + 1 then (.signal, at_ s.given)
    else (.missed (s.given - 1 - seen), at_ (s.given - 1))

end Shutdown
end ProxyPlane
