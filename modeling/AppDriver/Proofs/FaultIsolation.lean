import AppDriver.Driver.Execution
import AppDriver.Threading
import Mathlib.Data.List.Basic

/-!
Fault isolation. What a run of a procedure does is read off two things: the agenda of the procedure,
which no dispatcher has a part in, and what a dispatcher answers when it is handed the steps of the
agenda one after the other.
-/

namespace AppDriver

/-- The steps of a section, over all of its passes. -/
def Section.agenda (s : Section) : List CallStep := (List.replicate s.passes s.steps).flatten

/-- The steps of a procedure in the order of their dispatch. -/
def Procedure.agenda (p : Procedure) : List CallStep := p.sections.flatMap Section.agenda

/-- A step together with how its dispatch ended. -/
structure Dispatch where
  step : CallStep
  outcome : Outcome

/-- The fault of a dispatch that did not complete, under the step it belongs to. -/
def Dispatch.fault? (a : Dispatch) : Option (StepId × DispatchFault) :=
  a.outcome.fault?.map (a.step.id, ·)

/-- Hands a step to a dispatcher. -/
def Dispatcher.perform (d : Dispatcher σ) (r : Registry) (step : CallStep) (s : σ) : Dispatch × σ :=
  (⟨step, (d step r s).1⟩, (d step r s).2)

/-- Every dispatch of the agenda, each at the state that the one before it left. -/
def Procedure.dispatches (p : Procedure) (d : Dispatcher σ) (s : σ) : List Dispatch :=
  (threadMap (d.perform p.registry) p.agenda s).1

theorem Outcome.fault?_eq_none_iff (o : Outcome) : o.fault? = none ↔ o = .completed := by
  cases o <;> simp [Outcome.fault?]

theorem Dispatch.fault?_eq_none_iff (a : Dispatch) : a.fault? = none ↔ a.outcome = .completed := by
  rw [Dispatch.fault?, Option.map_eq_none_iff, Outcome.fault?_eq_none_iff]

/-- Dispatches that fault and dispatches that complete are all the dispatches. -/
theorem length_filterMap_fault? (as : List Dispatch) :
    (as.filterMap Dispatch.fault?).length + as.countP (·.outcome = .completed) = as.length := by
  induction as with
  | nil => rfl
  | cons a as ih =>
      rw [List.filterMap_cons, List.countP_cons, List.length_cons]
      cases hfault : a.fault? with
      | none =>
          have hdone : a.outcome = .completed := a.fault?_eq_none_iff.1 hfault
          simp only [hdone, decide_true, if_true]
          omega
      | some fault =>
          have hdone : a.outcome ≠ .completed := fun h => by
            simp [a.fault?_eq_none_iff.2 h] at hfault
          simp only [hdone, decide_false, Bool.false_eq_true, if_false, List.length_cons]
          omega

theorem map_step_threadMap_perform (d : Dispatcher σ) (r : Registry) (steps : List CallStep)
    (s : σ) : (threadMap (d.perform r) steps s).1.map Dispatch.step = steps := by
  induction steps generalizing s with
  | nil => rfl
  | cons step steps ih => exact congrArg (step :: ·) (ih _)

namespace Walk

variable (d : Dispatcher σ) (r : Registry)

/-- What has been done after some more dispatches. -/
def after (w : Walk σ) (as : List Dispatch) (s : σ) : Walk σ :=
  ⟨⟨w.trace.invoked ++ as.map (·.step.id), w.trace.faults ++ as.filterMap Dispatch.fault?⟩, s⟩

theorem after_nil (w : Walk σ) : w.after [] w.state = w := by
  simp [after]

theorem after_cons (w : Walk σ) (a : Dispatch) (as : List Dispatch) (s t : σ) :
    (w.after [a] s).after as t = w.after (a :: as) t := by
  cases h : a.fault? <;> simp [after, h]

/-- One step does one dispatch, whichever way it ends. -/
theorem dispatch_eq (w : Walk σ) (step : CallStep) :
    w.dispatch d r step = w.after [(d.perform r step w.state).1] (d.perform r step w.state).2 := by
  cases h : (d step r w.state).1.fault? <;>
    simp [dispatch, after, Dispatcher.perform, Dispatch.fault?, h]

/-- A pass dispatches all of its steps, each at the state the one before it left. -/
theorem pass_eq (w : Walk σ) (steps : List CallStep) :
    pass d r steps w = w.after (threadMap (d.perform r) steps w.state).1
      (threadMap (d.perform r) steps w.state).2 := by
  induction steps generalizing w with
  | nil => exact w.after_nil.symm
  | cons step steps ih =>
      calc pass d r (step :: steps) w
          = pass d r steps (w.dispatch d r step) := rfl
        _ = _ := by rw [dispatch_eq, ih, after_cons]; rfl

theorem pass_append (first later : List CallStep) (w : Walk σ) :
    pass d r (first ++ later) w = pass d r later (pass d r first w) :=
  List.foldl_append

/-- Passing over the same steps several times is one pass over them written out that often. -/
theorem repeat_pass (steps : List CallStep) (n : Nat) (w : Walk σ) :
    Nat.repeat (pass d r steps) n w = pass d r (List.replicate n steps).flatten w := by
  induction n with
  | zero => rfl
  | succ n ih =>
      rw [Nat.repeat, ih, ← pass_append, List.replicate_succ', List.flatten_append,
        List.flatten_singleton]

theorem foldl_runSection (sections : List Section) (w : Walk σ) :
    sections.foldl (runSection d r) w = pass d r (sections.flatMap Section.agenda) w := by
  induction sections generalizing w with
  | nil => rfl
  | cons s sections ih =>
      have hsection : runSection d r w s = pass d r s.agenda w := repeat_pass d r s.steps s.passes w
      rw [List.foldl_cons, ih, hsection, ← pass_append, List.flatMap_cons]

end Walk

namespace Procedure

/-- The trace of a run lists its dispatches, and the faults among them. -/
theorem run_eq (p : Procedure) (d : Dispatcher σ) (s : σ) :
    p.run d s = ⟨(p.dispatches d s).map (·.step.id), (p.dispatches d s).filterMap Dispatch.fault?⟩ := by
  rw [run, Walk.foldl_runSection, Walk.pass_eq]
  simp only [Walk.after, Walk.start, List.nil_append]
  rfl

theorem map_step_dispatches (p : Procedure) (d : Dispatcher σ) (s : σ) :
    (p.dispatches d s).map Dispatch.step = p.agenda :=
  map_step_threadMap_perform d p.registry p.agenda s

theorem invoked_run (p : Procedure) (d : Dispatcher σ) (s : σ) :
    (p.run d s).invoked = p.agenda.map CallStep.id := by
  rw [run_eq, ← p.map_step_dispatches d s, List.map_map]
  rfl

theorem map_id_agenda (p : Procedure) :
    p.agenda.map CallStep.id =
      p.sections.flatMap fun s => (List.replicate s.passes (s.steps.map CallStep.id)).flatten := by
  simp only [agenda, Section.agenda, List.map_flatMap, List.map_flatten, List.map_replicate]

/-- Faults are isolated. Whatever a dispatcher answers, every section is gone through in full and in
order, as often as it has passes, so no dispatcher changes what is dispatched. The faults are those
dispatches that did not complete, in order, and every other dispatch counts as completed. -/
theorem faults_isolated (p : Procedure) (d : Dispatcher σ) (s : σ) :
    (p.run d s).invoked =
      p.sections.flatMap (fun x => (List.replicate x.passes (x.steps.map CallStep.id)).flatten) ∧
    (∀ {τ : Type} (d' : Dispatcher τ) (s' : τ), (p.run d' s').invoked = (p.run d s).invoked) ∧
    (p.dispatches d s).map (·.step.id) = (p.run d s).invoked ∧
    (p.run d s).faults = (p.dispatches d s).filterMap Dispatch.fault? ∧
    (p.run d s).faults.length ≤ (p.run d s).invoked.length ∧
    (p.run d s).completed = (p.dispatches d s).countP (·.outcome = .completed) := by
  have hcount := length_filterMap_fault? (p.dispatches d s)
  have hlength : (p.run d s).invoked.length = (p.dispatches d s).length := by
    rw [run_eq, List.length_map]
  have hfaults : (p.run d s).faults = (p.dispatches d s).filterMap Dispatch.fault? := by rw [run_eq]
  refine ⟨(p.invoked_run d s).trans p.map_id_agenda, fun d' s' => ?_, ?_, hfaults, ?_, ?_⟩
  · rw [invoked_run, invoked_run]
  · rw [run_eq]
  · rw [hfaults, hlength]
    omega
  · rw [ExecutionTrace.completed, hfaults, hlength]
    omega

end Procedure
end AppDriver
