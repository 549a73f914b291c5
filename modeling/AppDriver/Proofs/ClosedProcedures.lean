import AppDriver.Proofs.CheckedSynthesis
import AppDriver.Proofs.ConstructorWiring
import AppDriver.Proofs.Degradations
import AppDriver.Proofs.ServiceAliases

/-! Closed procedures. Synthesis changes the registry by admissible operations alone, so whatever
holds of reachable registries holds of the one it leaves. Its calls are numbered by the steps made
so far, which all sections count together. -/

namespace AppDriver

open Registry (Reachable)
open CallbackTarget (Later)

/-! ### Reachable states -/

theorem ArgumentSource.bound_reachable {r : Registry} (h : Reachable r) (source : ArgumentSource)
    (param : TypeName) : Reachable (source.bound param r).2 := by
  cases source with
  | identifier id => exact h.step (.resolveDeclared id param) rfl
  | accessor id chain =>
      have hview := Registry.resolveDeclared_gives h.sound id TypeName.view
      refine (h.step (.resolveDeclared id TypeName.view) rfl).step
        (.deriveChain (r.resolveDeclared id TypeName.view).1 chain) ?_
      exact Registry.Operation.isAdmissible_deriveChain.2 (Or.inr hview.has)
  | component name =>
      rw [bound]
      split
      · exact h
      · exact h.step (.ambient name) rfl

namespace CallbackTarget

variable (t : CallbackTarget) {s : Progress}

theorem candidatesByType_reachable (h : Reachable s.registry) (fanout index : Nat)
    (param : TypeName) : Reachable (t.candidatesByType fanout index param s).2.registry := by
  rw [candidatesByType]
  split
  · exact h.step (.value param) rfl
  · dsimp only
    split
    · exact h.step (.ambient param) rfl
    · split <;> exact h

theorem candidates_reachable (h : Reachable s.registry) (fanout : Nat) (slot : TypeName × Nat) :
    Reachable (t.candidates fanout slot s).2.registry := by
  rw [candidates]
  dsimp only
  split
  · exact ArgumentSource.bound_reachable h _ _
  · split
    · exact t.candidatesByType_reachable h _ _ _
    · rename_i id _
      have hview : Reachable (s.registry.resolveDeclared id slot.1).2 :=
        h.step (.resolveDeclared id slot.1) rfl
      split
      · exact hview
      · exact t.candidatesByType_reachable hview _ _ _

theorem tuples_reachable (h : Reachable s.registry) (fanout : Nat) :
    Reachable (t.tuples fanout s).2.registry := by
  rw [tuples_registry]
  exact threadMap_invariant (P := fun s : Progress => Reachable s.registry)
    (fun slot _ h => t.candidates_reachable h _ slot) _ h

end CallbackTarget

namespace Synthesizer

variable (y : Synthesizer) (handlers : List HandlerBinding) (components : List Component)
  {registry : Registry} (findings : List Finding)

theorem kept_reachable : y.Kept fun s s' => Reachable s.registry → Reachable s'.registry where
  refl _ h := h
  trans h h' hs := h' (h hs)
  calls _ _ t _ h := t.tuples_reachable h y.config.fabrication.maxArgumentFanout
  report _ _ h := h

theorem opening_reachable (h : Reachable registry) :
    Reachable (y.opening handlers components registry findings).registry := by
  have hregistered := h.step (.registerComponents (y.driven components)) rfl
  have hviews := threadMap_invariant (P := Reachable)
    (f := fun id r => r.resolveDeclared id TypeName.view)
    (fun id _ h => h.step (.resolveDeclared id TypeName.view) rfl)
    (registry.registerComponents (y.driven components)).2.declaredIdentifiers hregistered
  exact hviews.step (.unresolved TypeName.view) rfl

/-- The registry that a synthesis leaves is reached by operations. -/
theorem procedure_reachable (h : Reachable registry) :
    Reachable (y.procedure components handlers registry findings).registry := by
  have hordered := threadMap_invariant (P := fun s : Progress => Reachable s.registry)
    (fun d s h => y.kept_reachable.orderedSection handlers d s h) (y.instances components registry)
    (y.opening_reachable handlers components findings h)
  exact y.kept_reachable.unorderedSection handlers (y.instances components registry) _ hordered

theorem registryFor_reachable (identifiers : List IdentifierBinding) :
    Reachable (y.registryFor identifiers) := by
  let n := y.config.fabrication.arrayLength
  have hdeclare : ∀ (r : Registry) (b : IdentifierBinding),
      (r.declare b).2.withArrayLength n = ((r.withArrayLength n).declare b).2 := by
    intro r b
    have hsame : (r.withArrayLength n).store = r.store := rfl
    rw [Registry.declare, Registry.declare, hsame]
    split <;> rfl
  have hfold : ∀ (bs : List IdentifierBinding) (r : Registry), Reachable (r.withArrayLength n) →
      Reachable ((bs.foldl (fun r b => (r.declare b).2) r).withArrayLength n) := by
    intro bs
    induction bs with
    | nil => exact fun _ hr => hr
    | cons b bs ih =>
        intro r hr
        refine ih _ ?_
        rw [hdeclare]
        exact hr.step (.declare b) rfl
  exact hfold identifiers (Registry.new y.catalog) (.new y.catalog n)

theorem servicesRegistry_reachable (d : Facts) : Reachable (y.servicesRegistry d) :=
  threadMap_invariant (P := Reachable) (f := fun name (r : Registry) => r.systemService name)
    (fun name _ h => h.step (.systemService name) rfl) d.services
    (y.registryFor_reachable d.identifiers)

end Synthesizer

/-! ### Arguments -/

theorem Registry.deriveChain_has (chain : List AccessorStep) {start : StandInRef} {r : Registry}
    (hr : r.store.Sound) (hstart : r.store.Has start) :
    (r.deriveChain start chain).2.store.Has (r.deriveChain start chain).1 := by
  induction chain generalizing start r with
  | nil => exact hstart
  | cons step chain ih =>
      have hnext := Registry.derived_gives hr start step
      exact ih hnext.sound hnext.has

theorem ArgumentSource.bound_has {r : Registry} (hr : r.store.Sound) (source : ArgumentSource)
    (param : TypeName) : (source.bound param r).2.store.Has (source.bound param r).1 := by
  cases source with
  | identifier id => exact (Registry.resolveDeclared_gives hr id param).has
  | accessor id chain =>
      have hview := Registry.resolveDeclared_gives hr id TypeName.view
      exact Registry.deriveChain_has chain hview.sound hview.has
  | component name =>
      rw [bound]
      split
      · rename_i x hx
        exact hr.has_component hx
      · exact (Registry.ambient_gives hr name).has

namespace CallbackTarget

variable (t : CallbackTarget) {s : Progress} (hs : s.registry.store.Sound) {fanout : Nat}

include hs in
theorem candidatesByType_has (index : Nat) (param : TypeName) :
    (t.candidatesByType fanout index param s).2.registry.store.HasAll
      (t.candidatesByType fanout index param s).1 := by
  have hcomponents : ∀ x ∈ s.registry.assignableTo param, s.registry.store.Has x := by
    intro x hx
    obtain ⟨e, he, rfl⟩ := List.mem_map.1 hx
    exact hs.components e (List.mem_filter.1 he).1
  rw [candidatesByType]
  split
  · intro x hx
    rw [List.mem_singleton.1 hx]
    exact (Registry.value_gives hs param).has
  · dsimp only
    split
    · intro x hx
      rw [List.mem_singleton.1 hx]
      exact (Registry.ambient_gives hs param).has
    · split
      · exact fun x hx => hcomponents x (List.mem_of_mem_take hx)
      · exact hcomponents

include hs in
/-- Every value of a parameter exists. -/
theorem candidates_has (slot : TypeName × Nat) :
    (t.candidates fanout slot s).2.registry.store.HasAll (t.candidates fanout slot s).1 := by
  rw [candidates]
  dsimp only
  split
  · intro x hx
    rw [List.mem_singleton.1 hx]
    exact ArgumentSource.bound_has hs _ _
  · split
    · exact t.candidatesByType_has hs _ _
    · rename_i id _
      have hview := Registry.resolveDeclared_gives hs id slot.1
      split
      · intro x hx
        rw [List.mem_singleton.1 hx]
        exact hview.has
      · exact t.candidatesByType_has hview.sound _ _

include hs in
theorem has_of_mem_tuples {args : List ArgBinding} (hargs : args ∈ (t.tuples fanout s).1)
    {a : ArgBinding} (ha : a ∈ args) : (t.tuples fanout s).2.registry.store.Has a.value := by
  obtain ⟨slot, hslot, -, hvalue⟩ := forall₂_left (t.slots_of_mem_tuples hargs).flip ha
  obtain ⟨slot', -, u, hu, hvalues, hlast⟩ :=
    forall₂_left (t.slotValues_answers fanout s).flip (List.of_mem_zip hslot).2
  have hsound := (hu hs).sound
  rw [hvalues] at hvalue
  rw [tuples_registry]
  have hlater := hlast (t.candidates_settles hsound _ slot').sound
  exact hlater.grows.has (t.candidates_has hsound slot' _ hvalue)

/-- The arguments record the types of the parameters in order. -/
theorem params_of_mem_tuples {args : List ArgBinding} (hargs : args ∈ (t.tuples fanout s).1) :
    args.map (·.param) = t.method.params := by
  have hparams : List.Forall₂ Eq ((t.method.params.zip (t.slotValues fanout s).1).map (·.1))
      (args.map (·.param)) := by
    rw [List.forall₂_map_left_iff, List.forall₂_map_right_iff]
    exact (t.slots_of_mem_tuples hargs).imp fun _ _ h => h.1.symm
  rw [List.forall₂_eq_eq_eq] at hparams
  rw [← hparams, List.map_fst_zip]
  rw [slotValues, length_threadMap, List.length_zipIdx]

end CallbackTarget

/-! ### Numbering -/

/-- Whether calls are numbered on from the steps of one state, and counted by those of another. -/
structure Numbered (s : Progress) (steps : List CallStep) (late : Progress) : Prop where
  ids : steps.map (·.id.index) = List.range' s.steps steps.length
  count : late.steps = s.steps + steps.length

theorem Numbered.append {s middle late : Progress} {steps more : List CallStep}
    (h : Numbered s steps middle) (h' : Numbered middle more late) :
    Numbered s (steps ++ more) late := by
  constructor
  · rw [List.map_append, h.ids, h'.ids, h.count, List.length_append, List.range'_append_1]
  · rw [h'.count, h.count, List.length_append, Nat.add_assoc]

/-- The calls of all answers are numbered if those of every answer are. -/
theorem numbered_threadMap {f : α → Progress → β × Progress} {g : β → List CallStep}
    (h : ∀ a s, Numbered s (g (f a s).1) (f a s).2) (as : List α) (s : Progress) :
    Numbered s ((threadMap f as s).1.flatMap g) (threadMap f as s).2 := by
  induction as generalizing s with
  | nil => exact ⟨rfl, rfl⟩
  | cons a as ih => exact (h a s).append (ih (f a s).2)

theorem numbered_threadFlatMap {f : α → Progress → List CallStep × Progress}
    (h : ∀ a s, Numbered s (f a s).1 (f a s).2) (as : List α) (s : Progress) :
    Numbered s (threadFlatMap f as s).1 (threadFlatMap f as s).2 := by
  have hall := numbered_threadMap (g := id) h as s
  rwa [List.flatMap_id] at hall

namespace Synthesizer

variable (y : Synthesizer) (handlers : List HandlerBinding)

theorem calls_numbered (c : Component) (receiver : StandInRef) (t : CallbackTarget)
    (s : Progress) : Numbered s (y.calls c receiver t s).1 (y.calls c receiver t s).2 := by
  rw [calls]
  constructor
  · rw [List.map_map, List.length_map, List.length_zipIdx]
    exact List.zipIdx_map_snd _ _
  · rw [List.length_map, List.length_zipIdx]

theorem orderedSection_numbered (d : Component × StandInRef) (s : Progress) :
    Numbered s (y.orderedSection handlers d s).1.steps (y.orderedSection handlers d s).2 := by
  have hall := numbered_threadFlatMap (y.calls_numbered d.1 d.2) (y.scheduled handlers d.1)
    (s.reportAll (d.1.unknownListeners y.config.handlers y.listeners ++ y.unmatched d.1))
  exact ⟨hall.ids, hall.count⟩

theorem unorderedSection_numbered (ds : List (Component × StandInRef)) (s : Progress) :
    Numbered s ((y.unorderedSection handlers ds s).1.toList.flatMap (·.steps))
      (y.unorderedSection handlers ds s).2 := by
  have hall := numbered_threadFlatMap (fun (e : Reentry) s =>
    numbered_threadFlatMap (y.calls_numbered e.component e.receiver) e.targets s)
    (ds.map (y.reentry handlers)) s
  rw [unorderedSection]
  dsimp only
  split
  · rename_i hnone
    rw [List.isEmpty_iff.1 hnone] at hall
    exact hall
  · simpa using hall

/-- All steps of a procedure are numbered, beginning with no step. -/
theorem procedure_numbered (components : List Component) (registry : Registry)
    (findings : List Finding) :
    Numbered (y.opening handlers components registry findings)
      (y.procedure components handlers registry findings).steps
      (y.closing handlers components registry findings) := by
  have hordered := numbered_threadMap (g := Section.steps) (y.orderedSection_numbered handlers)
    (y.instances components registry) (y.opening handlers components registry findings)
  have hunordered := y.unorderedSection_numbered handlers (y.instances components registry)
    (y.orderedPart handlers components registry findings).2
  have hall := hordered.append hunordered
  rw [← List.flatMap_append] at hall
  exact hall

/-- No two steps of a procedure have the same number. -/
theorem procedure_ids_nodup (components : List Component) (registry : Registry)
    (findings : List Finding) :
    ((y.procedure components handlers registry findings).steps.map CallStep.id).Nodup := by
  have hids := (y.procedure_numbered handlers components registry findings).ids
  have hindices : ((y.procedure components handlers registry findings).steps.map
      (·.id.index)).Nodup := hids ▸ List.nodup_range'
  exact (List.map_map (g := StepId.index) ▸ hindices).of_map StepId.index

end Synthesizer

/-! ### Closed procedures -/

namespace Procedure

/-- Whether a reference denotes one of the stand-ins of a procedure. -/
def Refers (p : Procedure) (x : StandInRef) : Prop :=
  ∃ y, p.allocations[x.index]? = some y ∧ y.id = x

/-- Whether the steps of a procedure are numbered by their positions and fit their methods, and
whether nothing in it refers to a stand-in that does not exist. -/
structure Closed (p : Procedure) : Prop where
  numbered : ∀ i x, p.steps[i]? = some x → x.id = ⟨i⟩ ∧ p.position? x.id = some i
  params : ∀ x ∈ p.steps, x.args.map (·.param) = x.method.params
  arguments : ∀ x ∈ p.steps, ∀ a ∈ x.args, p.Refers a.value
  receivers : ∀ x ∈ p.steps, p.Refers x.receiver ∧
    ∀ z, p.registry.IsInstance x.component z ↔ z = x.receiver
  identifiers : ∀ e ∈ p.registry.identifiers, p.Refers e.2
  degradations : ∀ d ∈ p.degradations, p.Refers d.standIn
  constructions : ∀ y ∈ p.allocations, ∀ d ∈ y.construction.dependencies, p.Refers d

variable {p : Procedure}

theorem refers_of_has (h : Reachable p.registry) {x : StandInRef} (hx : p.registry.store.Has x) :
    p.Refers x := by
  obtain ⟨y, hy, -⟩ := Registry.exists_get? hx
  exact ⟨y, hy, (h.orderly.placed x y hy).id⟩

/-- In a numbered procedure each step is found at its number. -/
theorem numbered_at (hids : p.steps.map (·.id.index) = List.range p.steps.length) {i : Nat}
    {x : CallStep} (hx : p.steps[i]? = some x) : x.id = ⟨i⟩ ∧ p.position? x.id = some i := by
  have hid : ∀ j (hj : j < p.steps.length), p.steps[j].id = ⟨j⟩ := by
    intro j hj
    have hmap : (p.steps.map (·.id.index))[j]? = (List.range p.steps.length)[j]? := by rw [hids]
    rw [List.getElem?_map, List.getElem?_range hj, List.getElem?_eq_getElem hj] at hmap
    exact congrArg StepId.mk (Option.some.inj hmap)
  obtain ⟨hi, rfl⟩ := List.getElem?_eq_some_iff.1 hx
  refine ⟨hid i hi, ?_⟩
  rw [position?, List.findIdx?_eq_some_iff_getElem]
  refine ⟨hi, beq_self_eq_true _, fun j hj => ?_⟩
  rw [hid i hi, hid j (hj.trans hi)]
  simpa using Nat.ne_of_lt hj

end Procedure

namespace Synthesizer

variable (y : Synthesizer) (handlers : List HandlerBinding) (components : List Component)
  {registry : Registry} {findings : List Finding}

theorem receiver_of_mem_calls {c : Component} {receiver : StandInRef} {t : CallbackTarget}
    {s : Progress} {x : CallStep} (hx : x ∈ (y.calls c receiver t s).1) : x.receiver = receiver := by
  obtain ⟨_, -, rfl⟩ := List.mem_map.1 hx
  rfl

/-- Every step is made on the instance of its component; its arguments are for the parameters of its
method and exist. -/
theorem step_closed (hr : registry.store.Sound) {x : CallStep}
    (hx : x ∈ (y.procedure components handlers registry findings).steps) :
    (y.procedure components handlers registry findings).registry.component? x.component =
        some x.receiver ∧
      x.args.map (·.param) = x.method.params ∧
      ∀ a ∈ x.args,
        (y.procedure components handlers registry findings).registry.store.Has a.value := by
  obtain ⟨d, hd, t, -, _, ⟨s, hs, rfl, hlast⟩, hmem⟩ :=
    mem_steps handlers y.kept_later components registry findings hx
  obtain ⟨hcomponent, hmethod, -, hargs⟩ := y.mem_calls hmem
  have hsound := (hs (y.opening_sound handlers components hr findings)).sound
  have hlater := hlast (y.kept_later.calls d.1 d.2 t s hsound).sound
  refine ⟨?_, ?_, fun a ha => hlater.grows.has (t.has_of_mem_tuples hsound hargs ha)⟩
  · rw [hcomponent, y.receiver_of_mem_calls hmem]
    exact component?_of_instance hr hd
  · rw [hmethod]
    exact t.params_of_mem_tuples hargs

/-- **Closed procedures.** Over every registry that operations reach, everything that synthesis reads
exists. In the procedure the steps are numbered by their positions, each has one argument for each
parameter of its method and of its type, the receiver of each is the one component instance of its
class, and all references are to stand-ins of the procedure. References and numbers are unbounded
here, so this does not end at any number of stand-ins or steps. -/
theorem synthesize_closed (h : Reachable registry) :
    y.synthesize? components handlers registry =
        some (y.synthesize components handlers registry) ∧
      (y.synthesize components handlers registry).Closed := by
  refine ⟨y.synthesize?_eq handlers components h.sound, ?_⟩
  have hreached : Reachable (y.synthesize components handlers registry).registry :=
    y.procedure_reachable handlers components [] h
  have hrefers := fun x => Procedure.refers_of_has (x := x) hreached
  have hids := (y.procedure_numbered handlers components registry []).ids
  refine
    { numbered := fun i x hx => Procedure.numbered_at ?_ hx
      params := fun x hx => (y.step_closed handlers components h.sound hx).2.1
      arguments := fun x hx a ha =>
        hrefers _ ((y.step_closed handlers components h.sound hx).2.2 a ha)
      receivers := fun x hx => ?_
      identifiers := fun e he => hrefers _ ?_
      degradations := fun d hd => hrefers _ (hreached.recorded d hd)
      constructions := fun z hz d hd => hrefers _ ?_ }
  · rw [List.range_eq_range']
    exact hids
  · have hinstance := (y.step_closed handlers components h.sound hx).1
    refine ⟨hrefers _ (hreached.sound.has_component hinstance), fun z => ?_⟩
    rw [hreached.isInstance_iff]
    constructor
    · intro hz
      exact Option.some.inj (hz.symm.trans hinstance)
    · rintro rfl
      exact hinstance
  · exact hreached.sound.byIdentifier e ((sorted_perm _ _).mem_iff.1 he)
  · obtain ⟨i, hi⟩ := List.mem_iff_getElem?.1 hz
    have hbefore := (hreached.orderly.placed ⟨i⟩ z hi).reads d hd
    have hlt := (List.getElem?_eq_some_iff.1 hi).1
    exact hbefore.trans hlt

/-- An activity that overrides a method with a parameter. -/
def restoringActivity : Component :=
  { name := ⟨"app.Main"⟩, kind := .activity,
    lifecycle := [{ name := "onCreate", params := [⟨"android.os.Bundle"⟩] }, { name := "onPause" }] }

/-- Driven over a registry in which a cycle was cut, its two steps are on the fourth stand-in. -/
theorem restoring_closed : Reachable Registry.knotRegistry ∧
    (synthesize {} [restoringActivity] [] Registry.knotRegistry).Closed ∧
    (synthesize {} [restoringActivity] [] Registry.knotRegistry).steps.map (·.receiver) =
      [⟨3⟩, ⟨3⟩] ∧
    (synthesize {} [restoringActivity] [] Registry.knotRegistry).degradations ≠ [] :=
  ⟨Registry.knotRegistry_reachable,
    (synthesize_closed {} [] [restoringActivity] Registry.knotRegistry_reachable).2,
    by decide +kernel, by decide +kernel⟩

end Synthesizer
end AppDriver
