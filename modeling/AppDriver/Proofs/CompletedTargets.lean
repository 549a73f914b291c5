import AppDriver.Proofs.ClosedProcedures
import AppDriver.Proofs.Coverage
import AppDriver.Proofs.FaultIsolation
import AppDriver.Proofs.LifecycleOrder
import Mathlib.Data.List.Flatten

/-! The callees that a run reports as completed. A fault is recorded under the step it belongs to
and not under the pass in which it came, so a callee is reported exactly if some step that calls it
was dispatched and completed whenever it was. That is the same as some dispatch having completed as
long as no step is dispatched twice. Where one is, a dispatcher that lets only the first call of every
step fault has every callee of a repeated section completed and none reported. -/

namespace AppDriver

/-- Whether a step calls a method on a component class. -/
def CallStep.Calls (x : CallStep) (t : Target) : Prop :=
  x.component = t.1 ∧ x.method.same t.2 = true

/-- The dispatcher that lets the first call of every step fault; its state is the steps that it has
been handed so far. -/
def Dispatcher.stumbling : Dispatcher (List StepId) := fun step _ handed =>
  (if handed.contains step.id then .completed else .fault (.thrown "not ready"), step.id :: handed)

namespace Procedure

variable (p : Procedure) (d : Dispatcher σ) (s : σ) (t : Target)

/-- Whether some dispatch of a step that calls a target completes. -/
def Completes : Prop := ∃ a ∈ p.dispatches d s, a.step.Calls t ∧ a.outcome = .completed

/-- Whether the trace of a run reports a target as completed. -/
def ReportsCompleted : Prop := ∃ u ∈ (p.run d s).completedTargets p, u.same t = true

/-- Whether a step is dispatched, and completes whenever it is. -/
def AlwaysCompletes (x : CallStep) : Prop :=
  (∃ a ∈ p.dispatches d s, a.step.id = x.id) ∧
    ∀ a ∈ p.dispatches d s, a.step.id = x.id → a.outcome = .completed

variable {p d s t}

/-! ### What is reported -/

theorem mem_faults_run {id : StepId} :
    (p.run d s).faulted id = true ↔
      ∃ a ∈ p.dispatches d s, a.step.id = id ∧ a.outcome ≠ .completed := by
  rw [ExecutionTrace.faulted, run_eq, List.any_eq_true]
  constructor
  · rintro ⟨fault, hfault, hid⟩
    obtain ⟨a, ha, hrecorded⟩ := List.mem_filterMap.1 hfault
    obtain ⟨f, hf, rfl⟩ := Option.map_eq_some_iff.1 hrecorded
    refine ⟨a, ha, beq_iff_eq.1 hid, fun hdone => ?_⟩
    rw [(Outcome.fault?_eq_none_iff _).2 hdone] at hf
    cases hf
  · rintro ⟨a, ha, rfl, hfault⟩
    obtain ⟨f, hf⟩ :=
      Option.ne_none_iff_exists'.1 (mt (Outcome.fault?_eq_none_iff a.outcome).1 hfault)
    exact ⟨(a.step.id, f), List.mem_filterMap.2 ⟨a, ha, by rw [Dispatch.fault?, hf]; rfl⟩,
      beq_self_eq_true _⟩

/-- A target is reported exactly if some step that calls it always completes. -/
theorem reportsCompleted_iff :
    p.ReportsCompleted d s t ↔ ∃ x ∈ p.steps, x.Calls t ∧ p.AlwaysCompletes d s x := by
  have hkept : ∀ x : CallStep, ((p.run d s).invoked.contains x.id && !(p.run d s).faulted x.id) =
      true ↔ p.AlwaysCompletes d s x := by
    intro x
    rw [Bool.and_eq_true, Bool.not_eq_true', Bool.eq_false_iff, Ne, mem_faults_run,
      List.contains_iff_mem, run_eq, List.mem_map]
    simp only [not_exists, not_and, not_not]
    rfl
  unfold ReportsCompleted ExecutionTrace.completedTargets
  constructor
  · rintro ⟨u, hu, hut⟩
    have hmem := Target.mem_of_mem_distinct ((sorted_perm _ _).mem_iff.1 hu)
    obtain ⟨x, hx, rfl⟩ := List.mem_map.1 hmem
    obtain ⟨hx, hfilter⟩ := List.mem_filter.1 hx
    exact ⟨x, hx, Target.same_iff.1 hut, (hkept x).1 hfilter⟩
  · rintro ⟨x, hx, hcalls, halways⟩
    have hmem : x ∈ p.steps.filter
        fun x => (p.run d s).invoked.contains x.id && !(p.run d s).faulted x.id :=
      List.mem_filter.2 ⟨hx, (hkept x).2 halways⟩
    obtain ⟨u, hu, hux⟩ := Target.exists_mem_distinct (List.mem_map.2 ⟨x, hmem, rfl⟩)
    obtain ⟨hname, hmethod⟩ := Target.same_iff.1 hux
    exact ⟨u, (sorted_perm _ _).mem_iff.2 hu,
      Target.same_iff.2 ⟨hname.trans hcalls.1, Signature.same_trans hmethod hcalls.2⟩⟩

/-! ### Steps that are dispatched once -/

theorem mem_steps_of_dispatch {a : Dispatch} (ha : a ∈ p.dispatches d s) : a.step ∈ p.steps := by
  have hstep : a.step ∈ p.agenda := p.map_step_dispatches d s ▸ List.mem_map_of_mem ha
  obtain ⟨x, hx, hmem⟩ := List.mem_flatMap.1 hstep
  obtain ⟨steps, hsteps, hmem⟩ := List.mem_flatten.1 hmem
  rw [List.eq_of_mem_replicate hsteps] at hmem
  exact List.mem_flatMap.2 ⟨x, hx, hmem⟩

/-- Where no section with a step is repeated, no step is dispatched more often than it is listed. -/
theorem agenda_sublist (h : ∀ x ∈ p.sections, 2 ≤ x.passes → x.steps = []) :
    p.agenda.Sublist p.steps := by
  refine List.Sublist.flatMap_right p.sections fun x hx => ?_
  rw [Section.agenda]
  rcases Nat.lt_or_ge x.passes 2 with hfew | hmany
  · rcases (by omega : x.passes = 0 ∨ x.passes = 1) with hnone | honce
    · simp [hnone]
    · simp [honce]
  · simp [h x hx hmany]

variable (hids : (p.steps.map CallStep.id).Nodup)

include hids in
theorem step_eq_of_id {x x' : CallStep} (hx : x ∈ p.steps) (hx' : x' ∈ p.steps)
    (hid : x.id = x'.id) : x = x' :=
  List.inj_on_of_nodup_map hids hx hx' hid

include hids in
/-- Nothing is reported that did not complete. -/
theorem completes_of_reported (h : p.ReportsCompleted d s t) : p.Completes d s t := by
  obtain ⟨x, hx, hcalls, ⟨a, ha, hid⟩, hdone⟩ := reportsCompleted_iff.1 h
  rw [← step_eq_of_id hids (mem_steps_of_dispatch ha) hx hid] at hcalls
  exact ⟨a, ha, hcalls, hdone a ha hid⟩

include hids in
/-- What completed is reported where no step is dispatched twice. -/
theorem reported_of_completes (honce : ∀ x ∈ p.sections, 2 ≤ x.passes → x.steps = [])
    (h : p.Completes d s t) : p.ReportsCompleted d s t := by
  obtain ⟨a, ha, hcalls, hdone⟩ := h
  have hnodup : ((p.dispatches d s).map (·.step.id)).Nodup := by
    rw [show (p.dispatches d s).map (·.step.id) = p.agenda.map CallStep.id by
      rw [← p.map_step_dispatches d s, List.map_map]; rfl]
    exact hids.sublist ((agenda_sublist honce).map _)
  refine reportsCompleted_iff.2 ⟨a.step, mem_steps_of_dispatch ha, hcalls, ⟨a, ha, rfl⟩, ?_⟩
  intro a' ha' hid
  rw [List.inj_on_of_nodup_map hnodup ha' ha hid]
  exact hdone

/-! ### Steps that are dispatched again -/

section Stumbling

variable (r : Registry) {x : CallStep} {steps : List CallStep} (handed : List StepId)

/-- A step that has been handed over before completes. -/
theorem stumbling_completes (hx : x ∈ steps) (hhanded : x.id ∈ handed) :
    ∃ a ∈ (threadMap (Dispatcher.stumbling.perform r) steps handed).1,
      a.step = x ∧ a.outcome = .completed := by
  induction steps generalizing handed with
  | nil => cases hx
  | cons y steps ih =>
      rcases List.mem_cons.1 hx with rfl | hx
      · refine ⟨_, List.mem_cons_self, rfl, ?_⟩
        exact if_pos (List.contains_iff_mem.2 hhanded)
      · obtain ⟨a, ha, hdone⟩ := ih _ hx (List.mem_cons_of_mem y.id hhanded)
        exact ⟨a, List.mem_cons_of_mem _ ha, hdone⟩

/-- A step that has not been handed over before faults. -/
theorem stumbling_faults (hx : x ∈ steps) (hnew : x.id ∉ handed) :
    ∃ a ∈ (threadMap (Dispatcher.stumbling.perform r) steps handed).1,
      a.step.id = x.id ∧ a.outcome ≠ .completed := by
  induction steps generalizing handed with
  | nil => cases hx
  | cons y steps ih =>
      by_cases hid : y.id = x.id
      · refine ⟨_, List.mem_cons_self, hid, ?_⟩
        simp [Dispatcher.perform, Dispatcher.stumbling, hid, hnew]
      · have hrest : x ∈ steps := (List.mem_cons.1 hx).resolve_left fun heq => hid (heq ▸ rfl)
        obtain ⟨a, ha, hfault⟩ := ih _ hrest
          (fun hmem => (List.mem_cons.1 hmem).elim (fun heq => hid heq.symm) hnew)
        exact ⟨a, List.mem_cons_of_mem _ ha, hfault⟩

/-- A step that is listed twice completes the second time. -/
theorem stumbling_completes_again (hx : [x, x].Sublist steps) :
    ∃ a ∈ (threadMap (Dispatcher.stumbling.perform r) steps handed).1,
      a.step = x ∧ a.outcome = .completed := by
  induction steps generalizing handed with
  | nil => cases hx
  | cons y steps ih =>
      cases hx with
      | cons _ hrest =>
          obtain ⟨a, ha, hdone⟩ := ih (y.id :: handed) hrest
          exact ⟨a, List.mem_cons_of_mem _ ha, hdone⟩
      | cons_cons _ hrest =>
          obtain ⟨a, ha, hdone⟩ := stumbling_completes r (x.id :: handed)
            (List.singleton_sublist.1 hrest) List.mem_cons_self
          exact ⟨a, List.mem_cons_of_mem _ ha, hdone⟩

end Stumbling

theorem twice_sublist_agenda {x : Section} (hx : x ∈ p.sections) (hpasses : 2 ≤ x.passes)
    {step : CallStep} (hstep : step ∈ x.steps) : [step, step].Sublist p.agenda := by
  obtain ⟨n, hn⟩ := Nat.exists_eq_add_of_le' hpasses
  have honce : [step].Sublist x.steps := List.singleton_sublist.2 hstep
  have hagenda : x.agenda = x.steps ++ (x.steps ++ (List.replicate n x.steps).flatten) := by
    rw [Section.agenda, hn]
    rfl
  have htwice : [step, step].Sublist x.agenda := by
    rw [hagenda]
    exact honce.append (honce.trans (List.sublist_append_left _ _))
  exact htwice.trans (List.sublist_flatten_of_mem (List.mem_map_of_mem hx))

/-- The first call of every step faults, so nothing is reported. -/
theorem stumbling_not_reported : ¬p.ReportsCompleted .stumbling [] t := by
  intro h
  obtain ⟨x, -, -, ⟨a, ha, hid⟩, hdone⟩ := reportsCompleted_iff.1 h
  have hstep : a.step ∈ p.agenda := p.map_step_dispatches .stumbling [] ▸ List.mem_map_of_mem ha
  obtain ⟨a', ha', hid', hfault⟩ := stumbling_faults p.registry [] hstep List.not_mem_nil
  exact hfault (hdone a' ha' (hid'.trans hid))

/-- A step of a section that is repeated completes when it is called again. -/
theorem stumbling_completes_repeated {x : Section} (hx : x ∈ p.sections) (hpasses : 2 ≤ x.passes)
    {step : CallStep} (hstep : step ∈ x.steps) (hcalls : step.Calls t) :
    p.Completes .stumbling [] t := by
  obtain ⟨a, ha, hsame, hdone⟩ := stumbling_completes_again p.registry []
    (twice_sublist_agenda hx hpasses hstep)
  rw [← hsame] at hcalls
  exact ⟨a, ha, hcalls, hdone⟩

include hids in
/-- The runs report all that completed exactly if no section with a step is repeated: where one is,
the dispatcher that stumbles has a step of it completed and nothing reported. -/
theorem reports_all_iff :
    (∀ {σ : Type} (d : Dispatcher σ) (s : σ) (t : Target),
      p.ReportsCompleted d s t ↔ p.Completes d s t) ↔
      ∀ x ∈ p.sections, 2 ≤ x.passes → x.steps = [] := by
  constructor
  · intro hexact x hx hpasses
    refine List.eq_nil_iff_forall_not_mem.2 fun step hstep => ?_
    have hcompletes : p.Completes .stumbling [] (step.component, step.method) :=
      stumbling_completes_repeated hx hpasses hstep ⟨rfl, step.method.same_refl⟩
    exact stumbling_not_reported ((hexact .stumbling [] _).2 hcompletes)
  · exact fun honce σ d s t => ⟨completes_of_reported hids, reported_of_completes hids honce⟩

/-- **Completed targets.** A run reports a target exactly if some step that calls it was dispatched
and completed in every pass. If steps have numbers of their own, everything reported has completed
in some dispatch, and the runs of a procedure report all that has, for every dispatcher, exactly if
no section with a step is gone through more than once. -/
theorem completedTargets_exact_iff (p : Procedure) :
    (∀ {σ : Type} (d : Dispatcher σ) (s : σ) (t : Target), p.ReportsCompleted d s t ↔
      ∃ x ∈ p.steps, x.Calls t ∧ p.AlwaysCompletes d s x) ∧
    ((p.steps.map CallStep.id).Nodup →
      (∀ {σ : Type} (d : Dispatcher σ) (s : σ) (t : Target),
        p.ReportsCompleted d s t → p.Completes d s t) ∧
      ((∀ {σ : Type} (d : Dispatcher σ) (s : σ) (t : Target),
          p.ReportsCompleted d s t ↔ p.Completes d s t) ↔
        ∀ x ∈ p.sections, 2 ≤ x.passes → x.steps = [])) := by
  refine ⟨fun d s t => reportsCompleted_iff, fun hids => ?_⟩
  exact ⟨fun d s t => completes_of_reported hids, reports_all_iff hids⟩

/-- An activity that listens to clicks. -/
def clickedActivity : Component :=
  { name := ⟨"app.Main"⟩, kind := .activity
    listeners := [{ interface := ⟨"android.view.View.OnClickListener"⟩ }] }

/-- The driver of the activity, with so many passes over its click out of order. -/
def clicked (passes : Nat) : Procedure :=
  Synthesizer.synthesize { config := { interleaving := ⟨passes, false⟩ } } [clickedActivity] []
    (Registry.new .android)

/-- The click of the activity. -/
def click : Target :=
  (⟨"app.Main"⟩, { name := "onClick", params := [TypeName.view] })

/-- With one pass, a click is reported exactly if one completed, whatever the dispatcher does. -/
theorem singlePass_exact : ((clicked 1).steps.map CallStep.id).Nodup ∧
    ∀ {σ : Type} (d : Dispatcher σ) (s : σ),
      (clicked 1).ReportsCompleted d s click ↔ (clicked 1).Completes d s click := by
  have hids : ((clicked 1).steps.map CallStep.id).Nodup := by decide +kernel
  have honce : ∀ x ∈ (clicked 1).sections, 2 ≤ x.passes → x.steps = [] := by decide +kernel
  exact ⟨hids, fun d s => (((completedTargets_exact_iff (clicked 1)).2 hids).2.2 honce) d s click⟩

/-- With two passes, the click that faults in order and in the first pass completes in the second
one, and is not reported. -/
theorem secondPass_not_reported : (clicked 2).Completes .stumbling [] click ∧
    ¬(clicked 2).ReportsCompleted .stumbling [] click := by
  have hclick : ∃ x ∈ (clicked 2).sections, 2 ≤ x.passes ∧ ∃ step ∈ x.steps,
      step.component = click.1 ∧ step.method.same click.2 = true := by decide +kernel
  obtain ⟨x, hx, hpasses, step, hstep, hcalls⟩ := hclick
  exact ⟨stumbling_completes_repeated hx hpasses hstep hcalls, stumbling_not_reported⟩

end Procedure

namespace Synthesizer

variable (y : Synthesizer) (handlers : List HandlerBinding) (components : List Component)
  (registry : Registry) (findings : List Finding)

/-! ### Synthesized procedures -/

theorem passes_of_isUnordered {x : Section}
    (hx : x ∈ (y.procedure components handlers registry findings).sections)
    (hunordered : x.isUnordered = true) : x.passes = y.config.interleaving.unorderedPasses := by
  rcases List.mem_append.1 hx with hordered | hlast
  · have hfalse := y.isUnordered_of_mem_orderedPart handlers components registry findings hordered
    rw [hunordered] at hfalse
    cases hfalse
  · obtain ⟨steps, rfl⟩ := eq_callbacks_of_mem hlast
    rfl

/-- The one section that is repeated is that of the calls out of order. -/
theorem repeats_nothing_iff :
    (∀ x ∈ (y.procedure components handlers registry findings).sections,
      2 ≤ x.passes → x.steps = []) ↔
      y.config.interleaving.unorderedPasses < 2 ∨
        (y.procedure components handlers registry findings).unorderedSteps = [] := by
  rw [Procedure.unorderedSteps, List.flatMap_eq_nil_iff]
  constructor
  · intro hnothing
    refine (Nat.lt_or_ge _ 2).imp_right fun hmany x hx => ?_
    obtain ⟨hx, hunordered⟩ := List.mem_filter.1 hx
    have hpasses := y.passes_of_isUnordered handlers components registry findings hx hunordered
    exact hnothing x hx (hpasses ▸ hmany)
  · intro hfew x hx hmany
    have hunordered : x.isUnordered = true := by
      cases hkind : x.kind with
      | ordered => simp [Section.passes, hkind] at hmany
      | unordered passes => simp [Section.isUnordered, hkind]
    have hpasses := y.passes_of_isUnordered handlers components registry findings hx hunordered
    rcases hfew with hfew | hnone
    · omega
    · exact hnone x (List.mem_filter.2 ⟨hx, hunordered⟩)

/-- Of a synthesized procedure, whose steps are numbered, everything that is reported has completed,
and all that has is reported, whatever the dispatcher does, exactly if calls are made out of order in
one pass at most or not at all. -/
theorem procedure_reports_all_iff :
    (∀ {σ : Type} (d : Dispatcher σ) (s : σ) (t : Target),
      (y.procedure components handlers registry findings).ReportsCompleted d s t →
        (y.procedure components handlers registry findings).Completes d s t) ∧
    ((∀ {σ : Type} (d : Dispatcher σ) (s : σ) (t : Target),
      (y.procedure components handlers registry findings).ReportsCompleted d s t ↔
        (y.procedure components handlers registry findings).Completes d s t) ↔
      y.config.interleaving.unorderedPasses < 2 ∨
        (y.procedure components handlers registry findings).unorderedSteps = []) := by
  have hids := y.procedure_ids_nodup handlers components registry findings
  refine ⟨fun d s t => Procedure.completes_of_reported hids, ?_⟩
  exact (Procedure.reports_all_iff hids).trans
    (y.repeats_nothing_iff handlers components registry findings)

end Synthesizer
end AppDriver
