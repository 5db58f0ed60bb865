import ProxyPlane.Time.Instant

/-!
# Clocks

## What is here

* `ClockOp`, what can be asked of a clock.
-/

set_option autoImplicit false
namespace ProxyPlane

/-- What can be asked of a clock. -/
inductive ClockOp : Type → Type
  | now : ClockOp Instant

end ProxyPlane
