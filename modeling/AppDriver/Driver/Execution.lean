import AppDriver.Driver.Procedure

/-!
Running a procedure through a dispatcher. Every step is isolated: a fault or a panic in one call is
recorded, and the run goes on with the next step.
-/

namespace AppDriver

/-- The fault of one call: the callee threw, or the dispatcher gave up. -/
inductive DispatchFault where
  | thrown (message : String)
  | panicked (message : String)
deriving DecidableEq, Repr

def DispatchFault.display : DispatchFault → String
  | .thrown m => "call threw: " ++ m
  | .panicked m => "dispatcher panicked: " ++ m

/-- How the dispatch of a step ends. A panic carries a text, or something that is none. -/
inductive Outcome where
  | completed
  | fault (fault : DispatchFault)
  | panic (payload : Option String)
deriving DecidableEq, Repr

/-- The fault that an outcome counts as. -/
def Outcome.fault? : Outcome → Option DispatchFault
  | .completed => none
  | .fault f => some f
  | .panic payload => some (.panicked (payload.getD "non-string panic payload"))

/-- A dispatcher performs one call; it can keep a state of its own. -/
abbrev Dispatcher (σ : Type) := CallStep → Registry → σ → Outcome × σ

/-- What a run did: the steps in the order of their dispatch, an unordered step once per pass, and
the faults in the same order. -/
structure ExecutionTrace where
  invoked : List StepId
  faults : List (StepId × DispatchFault)
deriving DecidableEq, Repr

/-- A run on its way: what it has done so far, and the state of its dispatcher. -/
structure Walk (σ : Type) where
  trace : ExecutionTrace
  state : σ

namespace Walk

/-- A walk that has done nothing. -/
def start (s : σ) : Walk σ := ⟨⟨[], []⟩, s⟩

/-- Dispatches one step. The step counts as invoked before it is answered; what its dispatch ends
with is recorded if it is a fault, and the walk goes on in any case. -/
def dispatch (d : Dispatcher σ) (r : Registry) (w : Walk σ) (step : CallStep) : Walk σ :=
  let invoked := w.trace.invoked ++ [step.id]
  let answer := d step r w.state
  match answer.1.fault? with
  | none => ⟨{ w.trace with invoked }, answer.2⟩
  | some fault => ⟨{ invoked, faults := w.trace.faults ++ [(step.id, fault)] }, answer.2⟩

/-- One pass over steps. -/
def pass (d : Dispatcher σ) (r : Registry) (steps : List CallStep) (w : Walk σ) : Walk σ :=
  steps.foldl (dispatch d r) w

/-- All passes over the steps of a section. -/
def runSection (d : Dispatcher σ) (r : Registry) (w : Walk σ) (s : Section) : Walk σ :=
  Nat.repeat (pass d r s.steps) s.passes w

end Walk

namespace Procedure

/-- Runs a procedure, section after section. -/
def run (p : Procedure) (d : Dispatcher σ) (s : σ) : ExecutionTrace :=
  (p.sections.foldl (Walk.runSection d p.registry) (.start s)).trace

end Procedure

namespace ExecutionTrace

/-- The number of dispatches without a fault. -/
def completed (t : ExecutionTrace) : Nat := t.invoked.length - t.faults.length

/-- Whether some dispatch of a step faulted. -/
def faulted (t : ExecutionTrace) (id : StepId) : Bool := t.faults.any (·.1 == id)

/-- The distinct callees of the dispatched steps that never faulted, in order. -/
def completedTargets (t : ExecutionTrace) (p : Procedure) : List Target :=
  let steps := p.steps.filter fun s => t.invoked.contains s.id && !t.faulted s.id
  sorted Target.precedes (Target.distinct (steps.map fun s => (s.component, s.method)))

end ExecutionTrace
end AppDriver
