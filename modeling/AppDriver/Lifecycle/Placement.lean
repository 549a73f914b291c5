import AppDriver.Lifecycle.Order
import AppDriver.Sorting

/-!
Placing a component's overrides along its protocol. An override takes the slot of the step with its
signature, else of the first step of its name in canonical order; an override that names no step
runs as an active step right before the teardown. No override is dropped.
-/

namespace AppDriver

/-- An override with the phase in which it runs. -/
structure PlacedOverride where
  method : Signature
  phase : Phase
  unmatched : Bool
deriving DecidableEq, Repr

namespace Protocol

/-- The slot of an override in an order of steps. -/
def slot? (order : List LifecycleStep) (m : Signature) : Option Nat :=
  (order.findIdx? (·.method.same m)).or (order.findIdx? (·.method.name == m.name))

/-- The position of the first teardown step of an order, or its end. -/
def teardownStart (order : List LifecycleStep) : Nat :=
  order.findIdx (·.phase == .teardown)

/-- An override with its place: slot `i` is place `2 * i + 1`, and the place right before it
`2 * i`. -/
def placeOne (order : List LifecycleStep) (m : Signature) : Nat × PlacedOverride :=
  match (slot? order m).bind fun i => (order[i]?).map fun s => (i, s.phase) with
  | some (i, phase) => (2 * i + 1, ⟨m, phase, false⟩)
  | none => (2 * teardownStart order, ⟨m, .active, true⟩)

/-- The overrides along the canonical order; those at one place keep their order. -/
def place (p : Protocol) (overrides : List Signature) : List PlacedOverride :=
  let order := p.canonicalOrder
  (sorted (fun a b => a.1 ≤ b.1) (overrides.map (placeOne order))).map (·.2)

end Protocol
end AppDriver
