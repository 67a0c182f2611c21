/-!
# Faults

Arithmetic on amounts and instants is bounded.  A step that would leave the bounds has no value at
all: it stops the operation that asked for it.  What the operation had done until then stays done,
such as budget that was reserved or an order that is tracked, and nothing comes after it.  This is
apart from the errors an operation answers with, which are ordinary results.

* `Fault` — which bound was left;
* `Checked` — a value, or the fault that stood in its way.
-/

set_option autoImplicit false

namespace SpotGateway

/-- Which bound a computation left. -/
inductive Fault where
  | decimalOverflow
  | divisionByZero
  | dateOverflow
  deriving DecidableEq, Repr

/-- A value, or the fault that stood in its way. -/
abbrev Checked (α : Type) := Except Fault α

/-- The value, or the given fault where there is none. -/
def Fault.orElse {α : Type} (f : Fault) : Option α → Checked α
  | some a => .ok a
  | none => .error f

@[simp] theorem Fault.orElse_eq_ok {α : Type} {f : Fault} {o : Option α} {a : α} :
    f.orElse o = .ok a ↔ o = some a := by
  cases o <;> simp [Fault.orElse]

end SpotGateway
