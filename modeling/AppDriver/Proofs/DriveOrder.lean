import AppDriver.Proofs.AcceptedDocuments
import AppDriver.Proofs.ClosedProcedures
import AppDriver.Proofs.ComponentInstances
import AppDriver.Proofs.Findings
import AppDriver.Proofs.TypeSpellings

/-! The sections of the procedure for an accepted document: one for each component, in the order in
which components are driven, and one at the end for all that is repeated, if anything is. As an
accepted document declares no component twice, none is left out and none is reported. -/

namespace AppDriver

/-- Whether a list of components stands in the order in which components are driven: as declared, or
sorted by the rank of their kinds, components of one rank standing as declared. -/
def InstanceOrder.Arranges (cs order : List Component) : InstanceOrder → Prop
  | .declared => order = cs
  | .kindRank => order.Perm cs ∧ order.Pairwise (fun a b => a.kind.rank ≤ b.kind.rank) ∧
      ∀ n, order.filter (·.kind.rank == n) = cs.filter (·.kind.rank == n)

theorem driveOrder_arranges (cs : List Component) (order : InstanceOrder) :
    order.Arranges cs (driveOrder order cs) := by
  cases order with
  | declared => exact rfl
  | kindRank =>
      refine ⟨sorted_perm _ cs, ?_, fun n => filter_sorted fun a _ b _ ha hb => ?_⟩
      · have hsorted : (driveOrder .kindRank cs).Pairwise
            fun a b => decide (a.kind.rank ≤ b.kind.rank) = true :=
          sorted_pairwise (fun a b => by simpa using Nat.le_total a.kind.rank b.kind.rank)
            (fun a b c hab hbc => by simp only [decide_eq_true_eq] at hab hbc ⊢; omega) cs
        exact hsorted.imp of_decide_eq_true
      · have hab : a.kind.rank = b.kind.rank := (beq_iff_eq.1 ha).trans (beq_iff_eq.1 hb).symm
        exact decide_eq_true hab.le

/-- Components with different names are all accepted, and none is reported. -/
theorem acceptComponents_of_nodup {seen : List TypeName} {cs : List Component}
    (hnodup : (cs.map (·.name)).Nodup) (hnew : ∀ c ∈ cs, c.name ∉ seen) :
    acceptComponents seen cs = (cs, []) := by
  induction cs generalizing seen with
  | nil => rfl
  | cons c cs ih =>
      obtain ⟨hother, hnodup⟩ := List.nodup_cons.1 hnodup
      have hrest : acceptComponents (c.name :: seen) cs = (cs, []) := by
        refine ih hnodup fun c' hc' hmem => ?_
        rcases List.mem_cons.1 hmem with heq | hold
        · exact hother (List.mem_map.2 ⟨c', hc', heq⟩)
        · exact hnew c' (List.mem_cons_of_mem _ hc') hold
      rw [acceptComponents, if_neg (by simpa using hnew c List.mem_cons_self), hrest]

/-- A run has no answers at all exactly if no element has one. -/
theorem threadFlatMap_eq_nil {f : α → σ → List β × σ} {P : α → Prop}
    (h : ∀ a s, (f a s).1 = [] ↔ P a) {as : List α} {s : σ} :
    (threadFlatMap f as s).1 = [] ↔ ∀ a ∈ as, P a := by
  rw [threadFlatMap, List.flatten_eq_nil_iff]
  have hanswers := threadMap_forall₂ (P := fun a answer => answer = [] ↔ P a) h as s
  constructor
  · intro hnone a ha
    obtain ⟨answer, hanswer, hiff⟩ := forall₂_left hanswers ha
    exact hiff.1 (hnone answer hanswer)
  · intro hall answer hanswer
    obtain ⟨a, ha, hiff⟩ := forall₂_left hanswers.flip hanswer
    exact hiff.2 (hall a ha)

/-- The label of a stand-in stays. -/
theorem Registry.Evolves.label {r r' : Registry} (h : r.Evolves r') {x : StandInRef}
    (hx : r.store.Has x) : r'.label x = r.label x := by
  rw [Registry.label, Store.label, h.grows.get? hx]
  rfl

/-- Whether a section is the ordered one of a component: it has the label of the component's
instance, and all its calls are made on this instance. -/
structure Procedure.IsSectionOf (p : Procedure) (c : Component) (sec : Section) : Prop where
  ordered : sec.kind = .ordered
  receiver : ∃ x, p.registry.component? c.name = some x ∧ sec.label = p.registry.label x ∧
    ∀ s ∈ sec.steps, s.component = c.name ∧ s.receiver = x

namespace Synthesizer

open CallbackTarget (Later)

variable (y : Synthesizer) (handlers : List HandlerBinding) (components : List Component)
  {registry : Registry} (findings : List Finding)

/-! ### Ordered sections -/

/-- The instance of a driven component exists from the first section on. -/
theorem has_of_instance (hr : registry.store.Sound) {d : Component × StandInRef}
    (hd : d ∈ y.instances components registry) :
    (y.opening handlers components registry findings).registry.store.Has d.2 := by
  have hsound := (Registry.registerComponents_evolves hr (y.driven components)).sound
  have hanswers := Registry.registerComponents_answers hr (y.driven components)
  have hinstance := (List.forall₂_iff_zip.1 hanswers).2 hd
  exact (allocateViews_settles hsound).grows.has (hsound.has_component hinstance)

theorem orderedPart_isSectionOf (hr : registry.store.Sound) :
    List.Forall₂ (y.procedure components handlers registry findings).IsSectionOf
      (y.driven components) (y.orderedPart handlers components registry findings).1 := by
  rw [← y.map_fst_instances components registry, List.forall₂_map_left_iff]
  have hsections := threadMap_answers Later.refl Later.trans (y.kept_later.orderedSection handlers)
    (y.instances components registry) (y.opening handlers components registry findings)
  refine List.forall₂_iff_zip.2 ⟨hsections.length_eq, fun {d sec} hmem => ?_⟩
  obtain ⟨s, hs, rfl, hlast⟩ := (List.forall₂_iff_zip.1 hsections).2 hmem
  have hd : d ∈ y.instances components registry := (List.of_mem_zip hmem).1
  refine ⟨rfl, d.2, component?_of_instance hr hd, ?_, fun x hx => ?_⟩
  · have hmade := hs.trans (y.kept_later.orderedSection handlers d s)
      (y.opening_sound handlers components hr findings)
    have hend : Later (y.orderedSection handlers d s).2
        (y.closing handlers components registry findings) :=
      hlast.trans (y.kept_later.unorderedSection handlers _ _)
    have hhas := hmade.grows.has (y.has_of_instance handlers components findings hr hd)
    exact ((hend hmade.sound).toEvolves.label hhas).symm
  · obtain ⟨t, -, s', -, hx, -⟩ := mem_threadFlatMap Later.refl Later.trans
      (fun t s => y.kept_later.calls d.1 d.2 t s) hx
    exact ⟨(y.mem_calls hx).1, y.receiver_of_mem_calls hx⟩

/-! ### The unordered section -/

theorem targets_eq_nil (c : Component) (receiver : StandInRef) (ts : List CallbackTarget)
    (s : Progress) : (threadFlatMap (y.calls c receiver) ts s).1 = [] ↔ ts = [] := by
  rw [threadFlatMap_eq_nil (P := fun _ => False) fun t s =>
    iff_of_false (y.calls_block c receiver t s).nonempty id]
  exact List.eq_nil_iff_forall_not_mem.symm

/-- Whether the unordered section repeats something of a component: a callback, or, if the
configuration says so, an override that is placed in the active phase. -/
def Repeats (c : Component) : Prop :=
  y.callbacks handlers c ≠ [] ∨ y.config.interleaving.includeActiveLifecycle = true ∧
    ∃ o ∈ y.placed c, o.phase = .active

theorem reentry_eq_nil (d : Component × StandInRef) :
    (y.reentry handlers d).targets = [] ↔ ¬ y.Repeats handlers d.1 := by
  have hactive : ((y.placed d.1).filter (·.phase == .active)).map d.1.lifecycleTarget = [] ↔
      ¬ ∃ o ∈ y.placed d.1, o.phase = .active := by
    rw [List.map_eq_nil_iff, List.filter_eq_nil_iff]
    simp
  rw [reentry, Repeats, not_or, not_not, not_and]
  dsimp only
  rw [List.append_eq_nil_iff]
  refine and_congr_right fun _ => ?_
  split
  · rename_i hincluded
    rw [hactive]
    exact ⟨fun h _ => h, fun h => h hincluded⟩
  · rename_i hincluded
    exact iff_of_true rfl fun h => (hincluded h).elim

/-- The unordered section is there exactly if something is repeated, and has the passes that are
configured. -/
theorem unorderedSection_spec (registry : Registry) (s : Progress) :
    ((y.unorderedSection handlers (y.instances components registry) s).1.isSome ↔
      ∃ c ∈ y.driven components, y.Repeats handlers c) ∧
    ∀ sec ∈ (y.unorderedSection handlers (y.instances components registry) s).1,
      sec.kind = .unordered y.config.interleaving.unorderedPasses ∧ sec.steps ≠ [] := by
  have hempty : (threadFlatMap
      (fun e : Reentry => threadFlatMap (y.calls e.component e.receiver) e.targets)
      ((y.instances components registry).map (y.reentry handlers)) s).1 = [] ↔
      ¬ ∃ c ∈ y.driven components, y.Repeats handlers c := by
    refine (threadFlatMap_eq_nil fun (e : Reentry) s =>
      y.targets_eq_nil e.component e.receiver e.targets s).trans ?_
    simp only [y.reentry_eq_nil, ← y.map_fst_instances components registry, List.mem_map,
      not_exists, not_and, forall_exists_index, and_imp, forall_apply_eq_imp_iff₂]
  rw [unorderedSection]
  dsimp only
  split
  · rename_i hnone
    have hnothing := hempty.1 (List.isEmpty_iff.1 hnone)
    exact ⟨iff_of_false Bool.false_ne_true hnothing, fun sec hsec => by cases hsec⟩
  · rename_i hsome
    have hne := fun heq => hsome (List.isEmpty_iff.2 heq)
    refine ⟨iff_of_true rfl (not_not.1 fun hnothing => hne (hempty.2 hnothing)), ?_⟩
    rintro sec ⟨⟩
    exact ⟨rfl, hne⟩

/-- No component of an accepted document is reported as declared twice. -/
theorem duplicateComponent_not_mem {d : Facts} (hd : d.validate = .ok ()) {name : TypeName} :
    .duplicateComponent name ∉ (y.synthesizeFacts d).findings := by
  obtain ⟨more, hfindings, hcalls⟩ := y.closing_findings d.handlers d.components
    (y.servicesRegistry d) ((identifierConflicts d.identifiers).map .redeclaredIdentifier)
  rw [acceptComponents_of_nodup (Facts.names_nodup hd) fun _ _ => List.not_mem_nil,
    List.append_nil] at hfindings
  have hall : (y.synthesizeFacts d).findings =
      (y.closing d.handlers d.components (y.servicesRegistry d)
        ((identifierConflicts d.identifiers).map .redeclaredIdentifier)).findings ++
      (y.synthesizeFacts d).degradations.map .degraded := rfl
  rw [hall, hfindings]
  intro hmem
  rcases List.mem_append.1 hmem with hmem | hdegraded
  · rcases List.mem_append.1 hmem with hmem | hcall
    · rcases List.mem_append.1 hmem with hconflict | hunreached
      · obtain ⟨_, -, heq⟩ := List.mem_map.1 hconflict
        cases heq
      · obtain ⟨_, -, heq⟩ := List.mem_map.1 hunreached
        cases heq
    · cases hcalls _ hcall
  · obtain ⟨_, -, heq⟩ := List.mem_map.1 hdegraded
    cases heq

/-- The sections of a procedure for a document: an ordered one for each component, in the order in
which components are driven, then the one that repeats, if anything is repeated. -/
structure HasSections (d : Facts) (p : Procedure) : Prop where
  sections : ∃ (order : List Component) (ordered : List Section) (repeated : Option Section),
    y.config.ordering.instanceOrder.Arranges d.components order ∧
    p.sections = ordered ++ repeated.toList ∧
    List.Forall₂ p.IsSectionOf order ordered ∧
    (∀ sec ∈ repeated, sec.kind = .unordered y.config.interleaving.unorderedPasses) ∧
    (repeated.isSome ↔ ∃ c ∈ d.components, y.Repeats d.handlers c)
  unreported : ∀ name, .duplicateComponent name ∉ p.findings

/-- **Sections of a document.** A document is accepted exactly if it is of version 1, its
components, methods, handlers and services have names, and no two components have the same one. The
procedure for an accepted document has one ordered section for each component, in the order in which
components are driven, and at the end one that repeats callbacks and active overrides, if there are
any. No component is reported as declared twice. -/
theorem document_sections (y : Synthesizer) (d : Facts) :
    (d.validate = .ok () ↔ d.Acceptable) ∧
      (d.validate = .ok () → y.HasSections d (y.synthesizeFacts d)) := by
  refine ⟨Facts.acceptable_iff.symm, fun hd => ?_⟩
  have haccepted : acceptComponents [] d.components = (d.components, []) :=
    acceptComponents_of_nodup (Facts.names_nodup hd) fun _ _ => List.not_mem_nil
  have hdriven : y.driven d.components =
      driveOrder y.config.ordering.instanceOrder d.components := by
    rw [driven, haccepted]
  obtain ⟨hpresent, hpasses⟩ := y.unorderedSection_spec d.handlers d.components
    (y.servicesRegistry d) (y.orderedPart d.handlers d.components (y.servicesRegistry d)
      ((identifierConflicts d.identifiers).map .redeclaredIdentifier)).2
  constructor
  · refine ⟨y.driven d.components, _, _, ?_, rfl,
      y.orderedPart_isSectionOf d.handlers d.components _ (y.services_sound d),
      fun sec hsec => (hpasses sec hsec).1, ?_⟩
    · rw [hdriven]
      exact driveOrder_arranges _ _
    · refine hpresent.trans (exists_congr fun c => and_congr_left fun _ => ?_)
      exact mem_driven_of_accepted hd
  · exact fun name => y.duplicateComponent_not_mem hd

/-- A service that is declared before the activity that starts it. The activity listens to
clicks. -/
def syncDocument : Facts where
  components := [{ name := ⟨"app.Sync"⟩, kind := .service },
    { name := ⟨"app.Main"⟩, kind := .activity
      listeners := [{ interface := ⟨"android.view.View.OnClickListener"⟩ }] }]

/-- The activity is driven first, and its callback is repeated at the end. -/
theorem sync_sections : syncDocument.validate = .ok () ∧
    HasSections {} syncDocument (synthesizeFacts {} syncDocument) ∧
    (synthesizeFacts {} syncDocument).sections.map (fun sec => (sec.label, sec.kind)) =
      [("main", .ordered), ("sync", .ordered), ("callbacks", .unordered 1)] := by
  have haccepted : syncDocument.validate = .ok () := by decide +kernel
  exact ⟨haccepted, (document_sections {} syncDocument).2 haccepted, by decide +kernel⟩

end Synthesizer
end AppDriver
