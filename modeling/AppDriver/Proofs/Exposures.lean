import AppDriver.Proofs.ComponentInstances
import AppDriver.Proofs.LifecycleOrder

/-! Exposures of a callback. A callback target is exposed several times: among the lifecycle calls of
its component, and once more in the unordered section. Its arguments are made anew at each exposure,
at registries that grow in between. All of them are nevertheless the arguments that the final
registry gives, so all exposures of a target are the same calls, and making the arguments once more
makes no stand-in. -/

namespace AppDriver

open CallbackTarget (Later)

/-! ### How often a callback is scheduled -/

namespace Component

section Count

variable {c : Component} {placed : List PlacedOverride} {callbacks : List CallbackTarget}
  (hcallbacks : ∀ t ∈ callbacks, t.origin.isLifecycle = false) {t : CallbackTarget}
  (ht : t ∈ callbacks)

include hcallbacks ht in
theorem lifecycleTarget_ne (o : PlacedOverride) : c.lifecycleTarget o ≠ t := by
  rintro rfl
  have hnot := hcallbacks _ ht
  cases hnot

include hcallbacks ht in
theorem count_map_lifecycleTarget (os : List PlacedOverride) :
    (os.map c.lifecycleTarget).count t = 0 := by
  apply List.count_eq_zero.2
  intro hmem
  obtain ⟨o, -, ho⟩ := List.mem_map.1 hmem
  exact lifecycleTarget_ne hcallbacks ht o ho

variable (hnodup : callbacks.Nodup)

include hcallbacks ht hnodup in
theorem count_scheduleOnce : (c.scheduleOnce placed callbacks).count t = 1 := by
  have hnone := count_map_lifecycleTarget (c := c) hcallbacks ht
  have hone : callbacks.count t = 1 := List.count_eq_one_of_mem hnodup ht
  simp only [scheduleOnce, List.count_append, hnone, hone]

include hcallbacks ht hnodup in
/-- Repeated callbacks stand once for every override outside the teardown. -/
theorem count_scheduleRepeated :
    (c.scheduleRepeated placed callbacks).count t = placed.countP (·.phase != .teardown) := by
  have hone : callbacks.count t = 1 := List.count_eq_one_of_mem hnodup ht
  unfold scheduleRepeated
  induction placed with
  | nil => rfl
  | cons o placed ih =>
      have hne := lifecycleTarget_ne (c := c) hcallbacks ht o
      rw [List.flatMap_cons, List.count_append, ih, List.count_cons_of_ne hne]
      by_cases hphase : o.phase = .teardown
      · simp [hphase]
      · simp [hphase, hone]
        omega

include hcallbacks ht hnodup in
/-- A callback is scheduled once before the teardown, or after every step outside it, of which there
may be none. -/
theorem count_schedule (placement : CallbackPlacement) :
    (c.schedule placement placed callbacks).count t =
      match placement with
      | .beforeTeardown => 1
      | .afterEachStep => max 1 (placed.countP (·.phase != .teardown)) := by
  rcases c.schedule_cases placement placed callbacks with ⟨heq, hwhy⟩ | ⟨heq, rfl, o, ho, hphase⟩
  · rw [heq, count_scheduleOnce hcallbacks ht hnodup]
    rcases hwhy with rfl | hteardown
    · rfl
    · have hzero : placed.countP (·.phase != .teardown) = 0 := by
        apply List.countP_eq_zero.2
        intro o ho
        simp [hteardown o ho]
      cases placement with
      | beforeTeardown => rfl
      | afterEachStep => simp [hzero]
  · rw [heq, count_scheduleRepeated hcallbacks ht hnodup]
    have hpos : 0 < placed.countP (·.phase != .teardown) := by
      apply List.countP_pos_iff.2
      exact ⟨o, ho, by simpa using hphase⟩
    simp only
    omega

end Count

end Component

/-! ### The calls of an exposure -/

/-- What a step does, apart from its number. -/
structure Call where
  component : TypeName
  receiver : StandInRef
  method : Signature
  args : List ArgBinding
  origin : CallOrigin
deriving DecidableEq, Repr

def CallStep.call (x : CallStep) : Call := ⟨x.component, x.receiver, x.method, x.args, x.origin⟩

namespace Synthesizer

variable (y : Synthesizer)

/-- The calls that expose a target of a driven component, with the arguments that a registry gives
for it. -/
def exposure (r : Registry) (d : Component × StandInRef) (t : CallbackTarget) : List Call :=
  (t.tuples y.config.fabrication.maxArgumentFanout { registry := r }).1.map fun args =>
    ⟨d.1.name, d.2, t.method, args, t.origin⟩

theorem map_call_calls (c : Component) (receiver : StandInRef) (t : CallbackTarget)
    (s : Progress) :
    (y.calls c receiver t s).1.map CallStep.call =
      (t.tuples y.config.fabrication.maxArgumentFanout s).1.map fun args =>
        ⟨c.name, receiver, t.method, args, t.origin⟩ := by
  have hfst := List.zipIdx_map_fst s.steps
    (t.tuples y.config.fabrication.maxArgumentFanout s).1
  simp only [calls, List.map_map]
  conv_rhs => rw [← hfst]
  rw [List.map_map]
  rfl

variable {y} {handlers : List HandlerBinding} {components : List Component} {registry : Registry}
  (hr : registry.store.Sound) {findings : List Finding}

include hr in
/-- The calls made for a target during a synthesis are those of the final registry. -/
theorem exposure_of_madeFor {d : Component × StandInRef} {t : CallbackTarget}
    {block : List CallStep}
    (h : y.MadeFor handlers components registry findings Later d t block) :
    block.map CallStep.call =
      y.exposure (y.procedure components handlers registry findings).registry d t := by
  obtain ⟨s, hsound, rfl, hlate⟩ := settled_of_madeFor hr h
  have hfinal : (t.tuples y.config.fabrication.maxArgumentFanout s).2.registry.Settles
      ({ registry := (y.procedure components handlers registry findings).registry } :
        Progress).registry := hlate
  rw [map_call_calls, exposure, (t.tuples_settled hsound hfinal).1]

include hr in
/-- Making the arguments of a target once more makes no stand-in. -/
theorem registry_of_madeFor {d : Component × StandInRef} {t : CallbackTarget}
    {block : List CallStep}
    (h : y.MadeFor handlers components registry findings Later d t block) :
    (t.tuples y.config.fabrication.maxArgumentFanout
        { registry := (y.procedure components handlers registry findings).registry }).2.registry =
      (y.procedure components handlers registry findings).registry := by
  obtain ⟨s, hsound, -, hlate⟩ := settled_of_madeFor hr h
  have hfinal : (t.tuples y.config.fabrication.maxArgumentFanout s).2.registry.Settles
      ({ registry := (y.procedure components handlers registry findings).registry } :
        Progress).registry := hlate
  exact (t.tuples_settled hsound hfinal).2

include hr in
theorem exposures_of_madeFor {d : Component × StandInRef} {ts : List CallbackTarget}
    {blocks : List (List CallStep)}
    (h : List.Forall₂ (y.MadeFor handlers components registry findings Later d) ts blocks) :
    blocks.flatten.map CallStep.call =
      ts.flatMap (y.exposure (y.procedure components handlers registry findings).registry d) := by
  induction h with
  | nil => rfl
  | cons hblock _ ih =>
      rw [List.flatten_cons, List.map_append, List.flatMap_cons, ih, exposure_of_madeFor hr hblock]

/-! ### The ordered sections -/

include hr in
/-- The section of a component makes the calls of its scheduled targets, each with the arguments of
the final registry. -/
theorem ordered_calls :
    List.Forall₂ (fun d sec => sec.steps.map CallStep.call =
        (y.scheduled handlers d.1).flatMap
          (y.exposure (y.procedure components handlers registry findings).registry d))
      (y.instances components registry)
      ((y.procedure components handlers registry findings).sections.filter (!·.isUnordered)) := by
  rw [ordered_sections]
  refine (orderedPart_sections handlers y.kept_later components registry findings).imp ?_
  rintro d sec ⟨-, blocks, hsteps, hblocks⟩
  rw [hsteps]
  exact exposures_of_madeFor hr hblocks

theorem exists_orderedStep {p : Procedure} {ds : List (Component × StandInRef)}
    (hordered : List.Forall₂ (fun d sec => sec.steps.map CallStep.call =
      (y.scheduled handlers d.1).flatMap (y.exposure p.registry d)) ds
      (p.sections.filter (!·.isUnordered)))
    {d : Component × StandInRef} (hd : d ∈ ds) {t : CallbackTarget}
    (ht : t ∈ y.scheduled handlers d.1) {x : Call} (hx : x ∈ y.exposure p.registry d t) :
    ∃ step ∈ p.orderedSteps, step.call = x := by
  obtain ⟨sec, hsec, hcalls⟩ := forall₂_left hordered hd
  have hmem : x ∈ sec.steps.map CallStep.call := by
    rw [hcalls]
    exact List.mem_flatMap.2 ⟨t, ht, hx⟩
  obtain ⟨step, hstep, rfl⟩ := List.mem_map.1 hmem
  exact ⟨step, List.mem_flatMap.2 ⟨sec, hsec, hstep⟩, rfl⟩

/-! ### The unordered section -/

/-- The steps of the unordered section, of which there are none if there is no such section. -/
theorem unorderedSteps_eq (y : Synthesizer) (handlers : List HandlerBinding)
    (components : List Component) (registry : Registry) (findings : List Finding) :
    (y.procedure components handlers registry findings).unorderedSteps =
      (threadFlatMap (fun e : Reentry => threadFlatMap (y.calls e.component e.receiver) e.targets)
        ((y.instances components registry).map (y.reentry handlers))
        (y.orderedPart handlers components registry findings).2).1 := by
  have hordered : (y.orderedPart handlers components registry findings).1.filter
      (·.isUnordered) = [] := by
    apply List.filter_eq_nil_iff.2
    intro sec hsec
    rw [isUnordered_of_mem_orderedPart y handlers components registry findings hsec]
    simp
  change List.flatMap _ (List.filter _ ((y.orderedPart handlers components registry findings).1 ++
    (y.unorderedSection handlers (y.instances components registry)
      (y.orderedPart handlers components registry findings).2).1.toList)) = _
  rw [List.filter_append, hordered, List.nil_append, unorderedSection]
  dsimp only
  split
  · rename_i hempty
    exact (List.isEmpty_iff.1 hempty).symm
  · simp [Section.isUnordered]

include hr in
theorem repeated_calls {d : Component × StandInRef} {s : Progress}
    (hs : Later (y.opening handlers components registry findings) s)
    (hlast : Later
      (threadFlatMap (y.calls d.1 d.2) (y.reentry handlers d).targets s).2
      (y.closing handlers components registry findings)) :
    (threadFlatMap (y.calls d.1 d.2) (y.reentry handlers d).targets s).1.map CallStep.call =
      (y.reentry handlers d).targets.flatMap
        (y.exposure (y.procedure components handlers registry findings).registry d) := by
  apply exposures_of_madeFor hr
  refine (threadMap_answers Later.refl Later.trans (fun t => y.kept_later.calls d.1 d.2 t)
    (y.reentry handlers d).targets s).imp ?_
  rintro t block ⟨u, hu, rfl, hnext⟩
  exact ⟨u, hs.trans hu, rfl, hnext.trans hlast⟩

include hr in
/-- The unordered section repeats the calls of the ordered sections, with the same arguments. -/
theorem unordered_calls :
    (y.procedure components handlers registry findings).unorderedSteps.map CallStep.call =
      (y.instances components registry).flatMap fun d =>
        (y.reentry handlers d).targets.flatMap
          (y.exposure (y.procedure components handlers registry findings).registry d) := by
  have hopening := y.opening_later_ordered handlers components registry findings
  have hanswers := threadMap_answers Later.refl Later.trans
    (fun (e : Reentry) => y.kept_later.targets e.component e.receiver e.targets)
    ((y.instances components registry).map (y.reentry handlers))
    (y.orderedPart handlers components registry findings).2
  rw [List.forall₂_map_left_iff] at hanswers
  have hcalls : List.Forall₂ (fun d block => block.map CallStep.call =
      (y.reentry handlers d).targets.flatMap
        (y.exposure (y.procedure components handlers registry findings).registry d))
      (y.instances components registry)
      (threadMap (fun e : Reentry => threadFlatMap (y.calls e.component e.receiver) e.targets)
        ((y.instances components registry).map (y.reentry handlers))
        (y.orderedPart handlers components registry findings).2).1 := by
    refine hanswers.imp ?_
    rintro d block ⟨s, hs, rfl, hlast⟩
    exact repeated_calls hr (hopening.trans hs) hlast
  rw [unorderedSteps_eq, threadFlatMap]
  dsimp only
  rw [List.map_flatten, flatten_of_forall₂ hcalls]

theorem count_reentry {d : Component × StandInRef} {t : CallbackTarget}
    (ht : t ∈ y.callbacks handlers d.1) : (y.reentry handlers d).targets.count t = 1 := by
  have hone : (y.callbacks handlers d.1).count t = 1 :=
    List.count_eq_one_of_mem Component.callbackTargets_nodup ht
  have hcallbacks : ∀ t ∈ y.callbacks handlers d.1, t.origin.isLifecycle = false :=
    callbacks_not_lifecycle
  have hnone := Component.count_map_lifecycleTarget (c := d.1) hcallbacks ht
    ((y.placed d.1).filter (·.phase == .active))
  rw [reentry]
  dsimp only
  rw [List.count_append, hone]
  split
  · rw [hnone]
  · rfl

/-! ### All exposures together -/

/-- All exposures of a callback are the same calls. `exposure` gives the calls of a target with the
arguments that the registry left behind gives for it: the sections make just these calls, each
callback stands in its section as often as the placement asks for, what is run out of order was run
in order, and making arguments again changes nothing. -/
structure SameExposures (y : Synthesizer) (handlers : List HandlerBinding)
    (ds : List (Component × StandInRef)) (p : Procedure) : Prop where
  ordered : List.Forall₂ (fun d sec => sec.steps.map CallStep.call =
      (y.scheduled handlers d.1).flatMap (y.exposure p.registry d)) ds
    (p.sections.filter (!·.isUnordered))
  count : ∀ d ∈ ds, ∀ t ∈ y.callbacks handlers d.1, (y.scheduled handlers d.1).count t =
    match y.config.ordering.callbackPlacement with
    | .beforeTeardown => 1
    | .afterEachStep => max 1 ((y.placed d.1).countP (·.phase != .teardown))
  unordered : p.unorderedSteps.map CallStep.call = ds.flatMap fun d =>
    (y.reentry handlers d).targets.flatMap (y.exposure p.registry d)
  again : ∀ d ∈ ds, ∀ t ∈ y.callbacks handlers d.1, (y.reentry handlers d).targets.count t = 1
  repeats : ∀ x ∈ p.unorderedSteps, ∃ x' ∈ p.orderedSteps, x'.call = x.call
  settled : ∀ d ∈ ds, ∀ t ∈ y.scheduled handlers d.1,
    (t.tuples y.config.fabrication.maxArgumentFanout { registry := p.registry }).2.registry =
      p.registry

/-- **Exposures of a callback.** For components and handlers over a registry that any run of
operations has left, all exposures of a callback are the same calls. -/
theorem exposures_same (y : Synthesizer) (components : List Component)
    (handlers : List HandlerBinding) {registry : Registry} (hr : Registry.Reachable registry) :
    y.SameExposures handlers (y.instances components registry)
      (y.synthesize components handlers registry) where
  ordered := ordered_calls hr.sound
  count d _ t ht := Component.count_schedule callbacks_not_lifecycle ht
    Component.callbackTargets_nodup _
  unordered := unordered_calls hr.sound
  again _ _ _ ht := count_reentry ht
  repeats x hx := by
    have hcall := List.mem_map_of_mem (f := CallStep.call) hx
    rw [synthesize, unordered_calls hr.sound] at hcall
    obtain ⟨d, hd, hcall⟩ := List.mem_flatMap.1 hcall
    obtain ⟨t, ht, hcall⟩ := List.mem_flatMap.1 hcall
    exact exists_orderedStep (ordered_calls hr.sound) hd (y.mem_scheduled_of_reentry handlers ht)
      hcall
  settled d hd t ht := by
    obtain ⟨block, hmade, -⟩ :=
      block_subset_steps handlers y.kept_later components registry [] hd ht
    exact registry_of_madeFor hr.sound hmade

/-- An activity that is created and resumed and listens to clicks. -/
def clickActivity : Component :=
  { name := ⟨"app.Main"⟩, kind := .activity
    lifecycle := [{ name := "onCreate", params := [⟨"android.os.Bundle"⟩] }, { name := "onResume" }]
    listeners := [{ interface := ⟨"android.view.View.OnClickListener"⟩ }] }

/-- The clicks of an activity are the same calls after its creation, after it is resumed and out of
order, over the registry in which nothing has been asked for yet. -/
theorem clicks_same :
    SameExposures {} [] (instances {} [clickActivity] (Registry.new .android))
      (synthesize {} [clickActivity] [] (Registry.new .android)) :=
  exposures_same {} [clickActivity] [] (.new .android 1)

end Synthesizer
end AppDriver
