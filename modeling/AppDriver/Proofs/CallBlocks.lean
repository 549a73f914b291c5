import AppDriver.Driver.Synthesis
import AppDriver.Proofs.Threading

/-! The steps of a procedure as blocks of calls: each target that synthesis comes to contributes the
calls for its argument tuples at the state of that moment, one call at least. The state between two
moments is described by a relation that calls and reports keep; with the relation that always holds,
only the blocks themselves remain. -/

namespace AppDriver

namespace CallbackTarget

/-! ### Argument tuples -/

theorem candidatesByType_ne_nil (t : CallbackTarget) {fanout : Nat} (hfanout : 0 < fanout)
    (index : Nat) (param : TypeName) (s : Progress) :
    (t.candidatesByType fanout index param s).1 ≠ [] := by
  unfold candidatesByType
  split
  · exact List.cons_ne_nil _ _
  · dsimp only
    split
    · exact List.cons_ne_nil _ _
    · rename_i hcomponents
      have hne : s.registry.assignableTo param ≠ [] := by simpa using hcomponents
      split
      · simpa [List.take_eq_nil_iff, Nat.ne_of_gt hfanout] using hne
      · exact hne

/-- Every parameter has a value. -/
theorem candidates_ne_nil (t : CallbackTarget) {fanout : Nat} (hfanout : 0 < fanout)
    (slot : TypeName × Nat) (s : Progress) : (t.candidates fanout slot s).1 ≠ [] := by
  unfold candidates
  dsimp only
  split
  · exact List.cons_ne_nil _ _
  · split
    · exact t.candidatesByType_ne_nil hfanout _ _ _
    · split
      · exact List.cons_ne_nil _ _
      · exact t.candidatesByType_ne_nil hfanout _ _ _

theorem extend_ne_nil {tuples : List (List ArgBinding)} {values : List StandInRef}
    (htuples : tuples ≠ []) (hvalues : values ≠ []) (param : TypeName) :
    extend tuples param values ≠ [] := by
  obtain ⟨tuple, rest, rfl⟩ := List.exists_cons_of_ne_nil htuples
  obtain ⟨value, more, rfl⟩ := List.exists_cons_of_ne_nil hvalues
  simp [extend]

theorem product_ne_nil {fanout : Nat} (hfanout : 0 < fanout)
    {slots : List (TypeName × List StandInRef)} (hslots : ∀ slot ∈ slots, slot.2 ≠ [])
    {tuples : List (List ArgBinding) × Bool} (htuples : tuples.1 ≠ []) :
    (product fanout slots tuples).1 ≠ [] := by
  induction slots generalizing tuples with
  | nil => exact htuples
  | cons slot slots ih =>
      obtain ⟨param, values⟩ := slot
      obtain ⟨prefixes, cut⟩ := tuples
      rw [product]
      apply ih fun other hother => hslots other (List.mem_cons_of_mem _ hother)
      have hall := extend_ne_nil htuples (hslots _ List.mem_cons_self) param
      simpa [List.take_eq_nil_iff, Nat.ne_of_gt hfanout] using hall

/-- Every target has an argument tuple, so no target is lost for want of arguments. -/
theorem tuples_ne_nil (t : CallbackTarget) (fanout : Nat) (s : Progress) :
    (t.tuples fanout s).1 ≠ [] := by
  have hfanout : 0 < max fanout 1 := by omega
  have hvalues := threadMap_forall₂ (P := fun _ values => values ≠ [])
    (t.candidates_ne_nil hfanout) t.method.params.zipIdx s
  apply product_ne_nil hfanout _ (List.cons_ne_nil _ _)
  intro slot hslot
  have hmem : slot.2 ∈ (threadMap (t.candidates (max fanout 1)) t.method.params.zipIdx s).1 :=
    (List.of_mem_zip hslot).2
  obtain ⟨a, -, ha⟩ := forall₂_left hvalues.flip hmem
  exact ha

end CallbackTarget

/-! ### Blocks of calls -/

/-- The calls that a target contributes: one at least, all on the component and with the method and
the origin of the target. -/
structure CallBlock (c : Component) (t : CallbackTarget) (block : List CallStep) : Prop where
  nonempty : block ≠ []
  component : ∀ x ∈ block, x.component = c.name
  method : ∀ x ∈ block, x.method = t.method
  origin : ∀ x ∈ block, x.origin = t.origin

namespace Synthesizer

variable (y : Synthesizer)

theorem mem_calls {c : Component} {receiver : StandInRef} {t : CallbackTarget} {s : Progress}
    {x : CallStep} (hx : x ∈ (y.calls c receiver t s).1) :
    x.component = c.name ∧ x.method = t.method ∧ x.origin = t.origin ∧
      x.args ∈ (t.tuples y.config.fabrication.maxArgumentFanout s).1 := by
  obtain ⟨⟨args, i⟩, hargs, rfl⟩ := List.mem_map.1 hx
  obtain ⟨-, -, htuple⟩ := List.mem_zipIdx hargs
  exact ⟨rfl, rfl, rfl, htuple ▸ List.getElem_mem _⟩

/-- Every argument tuple of a target is that of a call. -/
theorem exists_call (c : Component) (receiver : StandInRef) {t : CallbackTarget} {s : Progress}
    {args : List ArgBinding}
    (hargs : args ∈ (t.tuples y.config.fabrication.maxArgumentFanout s).1) :
    ∃ x ∈ (y.calls c receiver t s).1, x.args = args := by
  obtain ⟨i, hi, rfl⟩ := List.mem_iff_getElem.1 hargs
  refine ⟨_, List.mem_map.2 ⟨(_, s.steps + i), ?_, rfl⟩, rfl⟩
  rw [List.mem_iff_getElem]
  refine ⟨i, by simpa using hi, ?_⟩
  rw [List.getElem_zipIdx]

theorem calls_block (c : Component) (receiver : StandInRef) (t : CallbackTarget) (s : Progress) :
    CallBlock c t (y.calls c receiver t s).1 where
  nonempty := by
    obtain ⟨args, rest, htuples⟩ := List.exists_cons_of_ne_nil
      (t.tuples_ne_nil y.config.fabrication.maxArgumentFanout s)
    have hargs : args ∈ (t.tuples y.config.fabrication.maxArgumentFanout s).1 := by
      rw [htuples]
      exact List.mem_cons_self
    obtain ⟨x, hx, -⟩ := y.exists_call c receiver hargs
    exact List.ne_nil_of_mem hx
  component x hx := (y.mem_calls hx).1
  method x hx := (y.mem_calls hx).2.1
  origin x hx := (y.mem_calls hx).2.2.1

end Synthesizer

/-! ### The targets that synthesis comes to -/

namespace Component

/-- The schedule in which the callbacks stand once, before the teardown. -/
def scheduleOnce (c : Component) (placed : List PlacedOverride)
    (callbacks : List CallbackTarget) : List CallbackTarget :=
  (placed.takeWhile (·.phase != .teardown)).map c.lifecycleTarget ++ callbacks ++
    (placed.dropWhile (·.phase != .teardown)).map c.lifecycleTarget

/-- The schedule in which the callbacks follow every override outside the teardown. -/
def scheduleRepeated (c : Component) (placed : List PlacedOverride)
    (callbacks : List CallbackTarget) : List CallbackTarget :=
  placed.flatMap fun p =>
    c.lifecycleTarget p :: if p.phase = .teardown then [] else callbacks

theorem schedule_cases (c : Component) (placement : CallbackPlacement)
    (placed : List PlacedOverride) (callbacks : List CallbackTarget) :
    (c.schedule placement placed callbacks = c.scheduleOnce placed callbacks ∧
      (placement = .beforeTeardown ∨ ∀ p ∈ placed, p.phase = .teardown)) ∨
    (c.schedule placement placed callbacks = c.scheduleRepeated placed callbacks ∧
      placement = .afterEachStep ∧ ∃ p ∈ placed, p.phase ≠ .teardown) := by
  cases placement with
  | beforeTeardown => exact Or.inl ⟨rfl, Or.inl rfl⟩
  | afterEachStep =>
      rw [schedule]
      split
      · rename_i hany
        exact Or.inr ⟨rfl, rfl, by simpa using hany⟩
      · rename_i hnone
        exact Or.inl ⟨rfl, Or.inr (by simpa using hnone)⟩

/-- A schedule holds the overrides and the callbacks and nothing else. -/
theorem mem_schedule {c : Component} {placement : CallbackPlacement}
    {placed : List PlacedOverride} {callbacks : List CallbackTarget} {t : CallbackTarget} :
    t ∈ c.schedule placement placed callbacks ↔
      (∃ p ∈ placed, t = c.lifecycleTarget p) ∨ t ∈ callbacks := by
  rcases c.schedule_cases placement placed callbacks with ⟨heq, -⟩ | ⟨heq, -, q, hq, hphase⟩ <;>
    rw [heq]
  · have hsplit : (∃ p ∈ placed, t = c.lifecycleTarget p) ↔
        ∃ p ∈ placed.takeWhile (·.phase != .teardown) ++
          placed.dropWhile (·.phase != .teardown), t = c.lifecycleTarget p := by
      rw [List.takeWhile_append_dropWhile]
    rw [hsplit, scheduleOnce]
    simp only [List.mem_append, List.mem_map, or_and_right, exists_or, eq_comm (a := t)]
    exact or_right_comm
  · rw [scheduleRepeated, List.mem_flatMap]
    constructor
    · rintro ⟨p, hp, ht⟩
      rcases List.mem_cons.1 ht with rfl | ht
      · exact Or.inl ⟨p, hp, rfl⟩
      · split at ht
        · cases ht
        · exact Or.inr ht
    · rintro (⟨p, hp, rfl⟩ | ht)
      · exact ⟨p, hp, List.mem_cons_self⟩
      · refine ⟨q, hq, List.mem_cons_of_mem _ ?_⟩
        rw [if_neg hphase]
        exact ht

end Component

namespace Synthesizer

variable (y : Synthesizer) (handlers : List HandlerBinding)

/-- The components that are driven, in order. -/
def driven (components : List Component) : List Component :=
  driveOrder y.config.ordering.instanceOrder (acceptComponents [] components).1

/-- The driven components with their instances. -/
def instances (components : List Component) (registry : Registry) :
    List (Component × StandInRef) :=
  (y.driven components).zip (registry.registerComponents (y.driven components)).1

/-- The state in which the first section is begun. -/
def opening (components : List Component) (registry : Registry) (findings : List Finding) :
    Progress where
  registry := allocateViews (registry.registerComponents (y.driven components)).2
  findings := findings ++ (acceptComponents [] components).2 ++
    y.unreachedHandlers handlers (y.driven components)

/-- The targets of a component's section in order. -/
def scheduled (c : Component) : List CallbackTarget :=
  c.schedule y.config.ordering.callbackPlacement (y.placed c) (y.callbacks handlers c)

theorem map_fst_instances (components : List Component) (registry : Registry) :
    (y.instances components registry).map (·.1) = y.driven components := by
  apply List.map_fst_zip
  apply Nat.le_of_eq
  rw [Registry.registerComponents, Registry.withStore, length_threadMap]

theorem mem_driven_iff {components : List Component} (registry : Registry) {c : Component} :
    c ∈ y.driven components ↔ ∃ d ∈ y.instances components registry, d.1 = c := by
  rw [← y.map_fst_instances components registry]
  exact List.mem_map

/-- What the unordered section repeats was scheduled in the ordered one. -/
theorem mem_scheduled_of_reentry {d : Component × StandInRef} {t : CallbackTarget}
    (ht : t ∈ (y.reentry handlers d).targets) : t ∈ y.scheduled handlers d.1 := by
  rw [scheduled, Component.mem_schedule]
  rcases List.mem_append.1 ht with ht | ht
  · exact Or.inr ht
  · split at ht
    · obtain ⟨p, hp, rfl⟩ := List.mem_map.1 ht
      exact Or.inl ⟨p, (List.mem_filter.1 hp).1, rfl⟩
    · cases ht

/-- What holds between two states of a synthesis if a call, a report and nothing may come between
them. -/
structure Kept (R : Progress → Progress → Prop) : Prop where
  refl : ∀ s, R s s
  trans : ∀ {a b c}, R a b → R b c → R a c
  calls : ∀ c receiver t s, R s (y.calls c receiver t s).2
  report : ∀ s fs, R s (s.reportAll fs)

theorem kept_true : y.Kept fun _ _ => True :=
  ⟨fun _ => trivial, fun _ _ => trivial, fun _ _ _ _ => trivial, fun _ _ => trivial⟩

variable {y} {R : Progress → Progress → Prop} (h : y.Kept R)

include h in
theorem Kept.targets (c : Component) (receiver : StandInRef) (ts : List CallbackTarget)
    (s : Progress) : R s (threadFlatMap (y.calls c receiver) ts s).2 :=
  threadMap_rel h.refl h.trans ts (fun t _ s => h.calls c receiver t s) s

include h in
theorem Kept.orderedSection (d : Component × StandInRef) (s : Progress) :
    R s (y.orderedSection handlers d s).2 :=
  h.trans (h.report s _) (h.targets d.1 d.2 _ _)

include h in
theorem Kept.unorderedSection (ds : List (Component × StandInRef)) (s : Progress) :
    R s (y.unorderedSection handlers ds s).2 :=
  threadMap_rel h.refl h.trans
    (f := fun (e : Reentry) => threadFlatMap (y.calls e.component e.receiver) e.targets) _
    (fun e _ s => h.targets e.component e.receiver e.targets s) s

variable (y) (components : List Component) (registry : Registry) (findings : List Finding)

/-- The ordered sections and the state that they leave. -/
def orderedPart : List Section × Progress :=
  threadMap (y.orderedSection handlers) (y.instances components registry)
    (y.opening handlers components registry findings)

/-- The state that a synthesis leaves. -/
def closing : Progress :=
  (y.unorderedSection handlers (y.instances components registry)
    (y.orderedPart handlers components registry findings).2).2

/-- The calls of a target in a synthesis: they are made at a state between the first and the last. -/
def MadeFor (R : Progress → Progress → Prop) (d : Component × StandInRef) (t : CallbackTarget)
    (block : List CallStep) : Prop :=
  ∃ s, R (y.opening handlers components registry findings) s ∧
    block = (y.calls d.1 d.2 t s).1 ∧
    R (y.calls d.1 d.2 t s).2 (y.closing handlers components registry findings)

variable {y} in
theorem MadeFor.block {d : Component × StandInRef} {t : CallbackTarget} {block : List CallStep}
    (h : y.MadeFor handlers components registry findings R d t block) : CallBlock d.1 t block := by
  obtain ⟨s, -, rfl, -⟩ := h
  exact y.calls_block d.1 d.2 t s

variable {y} in
include h in
/-- The ordered sections, one for each instance, hold the calls of its scheduled targets in order. -/
theorem orderedPart_sections :
    List.Forall₂ (fun d sec => sec.isUnordered = false ∧ ∃ blocks : List (List CallStep),
        sec.steps = blocks.flatten ∧
        List.Forall₂ (y.MadeFor handlers components registry findings R d)
          (y.scheduled handlers d.1) blocks)
      (y.instances components registry)
      (y.orderedPart handlers components registry findings).1 := by
  have hsections := threadMap_answers h.refl h.trans (h.orderedSection handlers)
    (y.instances components registry) (y.opening handlers components registry findings)
  refine hsections.imp fun d sec answer => ?_
  obtain ⟨s, hs, rfl, hlast⟩ := answer
  have hreported := h.trans hs (h.report s
    (d.1.unknownListeners y.config.handlers y.listeners ++ y.unmatched d.1))
  refine ⟨rfl, _, rfl, (threadMap_answers h.refl h.trans (fun t s => h.calls d.1 d.2 t s)
    (y.scheduled handlers d.1) _).imp fun t block made => ?_⟩
  obtain ⟨t', ht', rfl, hblock⟩ := made
  exact ⟨t', h.trans hreported ht', rfl,
    h.trans hblock (h.trans hlast (h.unorderedSection handlers _ _))⟩

variable {y handlers} in
/-- The unordered section is that of the callbacks, gone through as often as is configured. -/
theorem eq_callbacks_of_mem {ds : List (Component × StandInRef)} {s : Progress} {sec : Section}
    (hsec : sec ∈ (y.unorderedSection handlers ds s).1.toList) :
    ∃ steps, sec = ⟨"callbacks", .unordered y.config.interleaving.unorderedPasses, steps⟩ := by
  have hsome := Option.mem_toList.1 hsec
  rw [unorderedSection] at hsome
  dsimp only at hsome
  split at hsome
  · cases hsome
  · exact ⟨_, (Option.some.inj hsome).symm⟩

variable {y} in
include h in
/-- Every step of the unordered section is a call of a target that it repeats. -/
theorem mem_unorderedSection {ds : List (Component × StandInRef)} {s : Progress} {sec : Section}
    (hsec : (y.unorderedSection handlers ds s).1 = some sec) {x : CallStep} (hx : x ∈ sec.steps) :
    ∃ d ∈ ds, ∃ t ∈ (y.reentry handlers d).targets, ∃ s', R s s' ∧ x ∈ (y.calls d.1 d.2 t s').1 ∧
      R (y.calls d.1 d.2 t s').2 (y.unorderedSection handlers ds s).2 := by
  unfold unorderedSection at hsec ⊢
  dsimp only at hsec ⊢
  split at hsec
  · cases hsec
  · obtain rfl := Option.some.inj hsec
    obtain ⟨e, he, s', hs', hxe, hlast⟩ := mem_threadFlatMap h.refl h.trans
      (fun (e : Reentry) s => h.targets e.component e.receiver e.targets s) hx
    obtain ⟨d, hd, rfl⟩ := List.mem_map.1 he
    obtain ⟨t, ht, s'', hs'', hxt, hnext⟩ := mem_threadFlatMap h.refl h.trans
      (fun t s => h.calls _ _ t s) hxe
    exact ⟨d, hd, t, ht, s'', h.trans hs' hs'', hxt, h.trans hnext hlast⟩

variable {y} in
include h in
/-- Every step is a call of a target that is scheduled for a driven component. -/
theorem mem_steps {x : CallStep}
    (hx : x ∈ (y.procedure components handlers registry findings).steps) :
    ∃ d ∈ y.instances components registry, ∃ t ∈ y.scheduled handlers d.1, ∃ block,
      y.MadeFor handlers components registry findings R d t block ∧ x ∈ block := by
  obtain ⟨sec, hsec, hxsec⟩ := List.mem_flatMap.1 hx
  rcases List.mem_append.1 hsec with hsec | hsec
  · obtain ⟨d, hd, -, blocks, hsteps, hblocks⟩ := forall₂_left
      (orderedPart_sections handlers h components registry findings).flip hsec
    rw [hsteps] at hxsec
    obtain ⟨block, hblock, hxblock⟩ := List.mem_flatten.1 hxsec
    obtain ⟨t, ht, hmade⟩ := forall₂_left hblocks.flip hblock
    exact ⟨d, hd, t, ht, block, hmade, hxblock⟩
  · obtain ⟨d, hd, t, ht, s, hs, hxs, hlast⟩ :=
      mem_unorderedSection handlers h (Option.mem_toList.1 hsec) hxsec
    have hordered := threadMap_rel h.refl h.trans (y.instances components registry)
      (fun d _ => h.orderedSection handlers d)
      (y.opening handlers components registry findings)
    exact ⟨d, hd, t, y.mem_scheduled_of_reentry handlers ht, _,
      ⟨s, h.trans hordered hs, rfl, hlast⟩, hxs⟩

variable {y} in
include h in
/-- Every target that is scheduled for a driven component has its calls among the steps. -/
theorem block_subset_steps {d : Component × StandInRef} (hd : d ∈ y.instances components registry)
    {t : CallbackTarget} (ht : t ∈ y.scheduled handlers d.1) :
    ∃ block, y.MadeFor handlers components registry findings R d t block ∧
      block ⊆ (y.procedure components handlers registry findings).steps := by
  obtain ⟨sec, hsec, -, blocks, hsteps, hblocks⟩ := forall₂_left
    (orderedPart_sections handlers h components registry findings) hd
  obtain ⟨block, hblock, hmade⟩ := forall₂_left hblocks ht
  refine ⟨block, hmade, fun x hx => ?_⟩
  apply List.mem_flatMap.2 ⟨sec, List.mem_append_left _ hsec, _⟩
  rw [hsteps]
  exact List.mem_flatten.2 ⟨block, hblock, hx⟩

end Synthesizer
end AppDriver
