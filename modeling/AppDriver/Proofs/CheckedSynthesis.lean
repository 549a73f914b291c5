import AppDriver.Proofs.CheckedFabrication
import AppDriver.Proofs.ComponentInstances
import AppDriver.Proofs.LinearExtensions

/-! Synthesis with checked reads: besides the shared objects that fabrication reads, the parent of a
derived stand-in, the stand-in of a view that is passed, the instance that labels a section, and the
steps of a protocol by their position. From a sound registry the checked synthesis never stops. -/

namespace AppDriver

/-! ### Protocols -/

namespace Protocol

/-- Reads the steps at the positions of the canonical order. -/
def canonicalOrder? (p : Protocol) : Option (List LifecycleStep) :=
  p.canonicalIndices.mapM (p.steps[·]?)

/-- Reads the step in whose slot the override is placed. -/
def placeOne? (order : List LifecycleStep) (m : Signature) : Option (Nat × PlacedOverride) :=
  match slot? order m with
  | some i => (order[i]?).map fun s => (2 * i + 1, ⟨m, s.phase, false⟩)
  | none => some (2 * teardownStart order, ⟨m, .active, true⟩)

def place? (p : Protocol) (overrides : List Signature) : Option (List PlacedOverride) :=
  p.canonicalOrder?.bind fun order =>
    (overrides.mapM (placeOne? order)).map fun placed =>
      (sorted (fun a b => a.1 ≤ b.1) placed).map (·.2)

theorem mapM_eq_filterMap {f : α → Option β} {as : List α} (h : ∀ a ∈ as, (f a).isSome = true) :
    as.mapM f = some (as.filterMap f) := by
  induction as with
  | nil => rfl
  | cons a as ih =>
      obtain ⟨b, hb⟩ := Option.isSome_iff_exists.1 (h a List.mem_cons_self)
      rw [List.mapM_cons, hb, ih fun a' ha' => h a' (List.mem_cons_of_mem _ ha'),
        List.filterMap_cons_some hb]
      rfl

theorem canonicalOrder?_eq (p : Protocol) : p.canonicalOrder? = some p.canonicalOrder := by
  refine mapM_eq_filterMap fun i hi => ?_
  simpa using p.canonicalIndices_perm.mem_iff.1 hi

theorem placeOne?_eq (order : List LifecycleStep) :
    placeOne? order = fun m => some (placeOne order m) := by
  funext m
  rw [placeOne?, placeOne]
  cases hslot : slot? order m with
  | none => rfl
  | some i =>
      have hi : i < order.length := by
        rcases Option.or_eq_some_iff.1 hslot with h | ⟨-, h⟩
        · exact (List.findIdx?_eq_some_iff_getElem.1 h).1
        · exact (List.findIdx?_eq_some_iff_getElem.1 h).1
      simp only [Option.bind_some, List.getElem?_eq_getElem hi, Option.map_some]

theorem place?_eq (p : Protocol) (overrides : List Signature) :
    p.place? overrides = some (p.place overrides) := by
  have hplaced : overrides.mapM (placeOne? p.canonicalOrder) =
      some (overrides.map (placeOne p.canonicalOrder)) := by
    rw [placeOne?_eq]
    exact List.mapM_pure
  rw [place?, canonicalOrder?_eq, Option.bind_some, hplaced]
  rfl

end Protocol

/-! ### Registries -/

namespace Registry

def registerComponents? (r : Registry) (cs : List Component) :
    Option (List StandInRef × Registry) :=
  (threadMap? (r.workshop.register? cs) cs r.store).map r.withStore

def resolve? (r : Registry) (id : ResourceId) (t : TypeName) : Option (StandInRef × Registry) :=
  match r.findViewById? id with
  | some x => some (x, r)
  | none =>
    match r.store.component? t with
    | some x => some (x, r.bindIdentifier id x)
    | none =>
      let hint := ((r.store.declared.lookup id).bind (·.name)).getD ("view" ++ toString id)
      (r.workshop.fabricate? [] {} t (.identifier id) hint r.store).map fun out =>
        let made := r.withStore out
        (made.1, made.2.bindIdentifier id made.1)

def resolveDeclared? (r : Registry) (id : ResourceId) (fallback : TypeName) :
    Option (StandInRef × Registry) :=
  match r.findViewById? id with
  | some x => some (x, r)
  | none =>
    match r.declaredType? id with
    | some t => r.resolve? id t
    | none => some (r.resolveDeclared id fallback)

def ambient? (r : Registry) (t : TypeName) : Option (StandInRef × Registry) :=
  (r.workshop.ambient? [] {} t r.store).map r.withStore

/-- Reads the label of the parent. -/
def derived? (r : Registry) (parent : StandInRef) (step : AccessorStep) :
    Option (StandInRef × Registry) :=
  match r.store.derived.lookup (parent, step.method) with
  | some x => some (x, r)
  | none =>
    (r.get? parent).map fun y =>
      let made := r.store.push step.returns (.derived parent step.method)
        (.accessor parent step.method) (y.label ++ capitalized (getterSubject step.method))
      r.withStore
        (made.1, { made.2 with derived := ((parent, step.method), made.1) :: made.2.derived })

def deriveChain? (r : Registry) (start : StandInRef) :
    List AccessorStep → Option (StandInRef × Registry)
  | [] => some (start, r)
  | step :: chain => (r.derived? start step).bind fun next => next.2.deriveChain? next.1 chain

variable {r : Registry} (hr : r.store.Sound)

include hr in
theorem registerComponents?_eq (cs : List Component) :
    r.registerComponents? cs = some (r.registerComponents cs) := by
  obtain ⟨hrun, -⟩ := threadMap?_eq (L := Store.Sound) (f := r.workshop.register? cs)
    (g := r.workshop.register cs) cs (fun c _ s hs =>
      ⟨r.workshop.register?_eq cs hs c, (r.workshop.register_grows cs c hs).2.1⟩) hr
  rw [registerComponents?, hrun]
  rfl

include hr in
theorem resolve?_eq (id : ResourceId) (t : TypeName) : r.resolve? id t = some (r.resolve id t) := by
  have hmade := (r.workshop.fabrication_checked []).2.1 {} t (.identifier id)
    (((r.store.declared.lookup id).bind (·.name)).getD ("view" ++ toString id)) r.store hr
  simp only [resolve?, resolve, hmade]
  cases r.findViewById? id with
  | some x => rfl
  | none => cases r.store.component? t <;> rfl

include hr in
theorem resolveDeclared?_eq (id : ResourceId) (fallback : TypeName) :
    r.resolveDeclared? id fallback = some (r.resolveDeclared id fallback) := by
  rw [resolveDeclared?]
  split
  · rename_i x hknown
    rw [resolveDeclared, hknown]
  · rename_i hnew
    split
    · rename_i t ht
      rw [resolve?_eq hr, resolveDeclared, hnew, ht]
    · rfl

include hr in
theorem ambient?_eq (t : TypeName) : r.ambient? t = some (r.ambient t) := by
  rw [ambient?, (r.workshop.fabrication_checked []).1 {} t r.store hr]
  rfl

theorem derived?_eq {parent : StandInRef} (hparent : r.store.Has parent) (step : AccessorStep) :
    r.derived? parent step = some (r.derived parent step) := by
  obtain ⟨y, hy, hlabel⟩ := exists_get? hparent
  rw [derived?, derived, hy, hlabel]
  cases r.store.derived.lookup (parent, step.method) <;> rfl

theorem deriveChain?_eq (chain : List AccessorStep) {start : StandInRef} {r : Registry}
    (hr : r.store.Sound) (hstart : r.store.Has start) :
    r.deriveChain? start chain = some (r.deriveChain start chain) := by
  induction chain generalizing start r with
  | nil => rfl
  | cons step chain ih =>
      have hnext := derived_gives hr start step
      rw [deriveChain?, derived?_eq hstart, Option.bind_some, ih hnext.sound hnext.has]
      rfl

end Registry

/-! ### Arguments -/

def ArgumentSource.bound? (source : ArgumentSource) (param : TypeName) (r : Registry) :
    Option (StandInRef × Registry) :=
  match source with
  | .identifier id => r.resolveDeclared? id param
  | .accessor id chain =>
    (r.resolveDeclared? id TypeName.view).bind fun view => view.2.deriveChain? view.1 chain
  | .component name =>
    match r.component? name with
    | some x => some (x, r)
    | none => r.ambient? name

theorem ArgumentSource.bound?_eq {r : Registry} (hr : r.store.Sound) (source : ArgumentSource)
    (param : TypeName) : source.bound? param r = some (source.bound param r) := by
  cases source with
  | identifier id => exact Registry.resolveDeclared?_eq hr id param
  | accessor id chain =>
      have hview := Registry.resolveDeclared_gives hr id TypeName.view
      rw [bound?, Registry.resolveDeclared?_eq hr, Option.bind_some,
        Registry.deriveChain?_eq chain hview.sound hview.has]
      rfl
  | component name =>
      rw [bound?, bound]
      cases r.component? name with
      | some x => rfl
      | none => exact Registry.ambient?_eq hr name

namespace CallbackTarget

def candidatesByType? (t : CallbackTarget) (fanout index : Nat) (param : TypeName)
    (s : Progress) : Option (List StandInRef × Progress) :=
  if param.isPlainValue then some (t.candidatesByType fanout index param s)
  else if (s.registry.assignableTo param).isEmpty then
    (s.registry.ambient? param).map fun out =>
      ([(s.withRegistry out).1], (s.withRegistry out).2)
  else some (t.candidatesByType fanout index param s)

/-- Reads the view that is passed, to see whether it is a component. -/
def candidates? (t : CallbackTarget) (fanout : Nat) (slot : TypeName × Nat) (s : Progress) :
    Option (List StandInRef × Progress) :=
  let (param, index) := slot
  match t.bindingAt? index with
  | some b =>
    (b.source.bound? param s.registry).map fun out =>
      ([(s.withRegistry out).1], (s.withRegistry out).2)
  | none =>
    match t.viewAt? index with
    | none => t.candidatesByType? fanout index param s
    | some id =>
      (s.registry.resolveDeclared? id param).bind fun out =>
        let view := s.withRegistry out
        (view.2.registry.get? view.1).bind fun y =>
          if y.isComponent then
            t.candidatesByType? fanout index param
              (view.2.report (.componentIdentifier id t.method y.typeName))
          else some ([view.1], view.2)

def tuples? (t : CallbackTarget) (fanout : Nat) (s : Progress) :
    Option (List (List ArgBinding) × Progress) :=
  let fanout := max fanout 1
  (threadMap? (t.candidates? fanout) t.method.params.zipIdx s).map fun values =>
    let out := product fanout (t.method.params.zip values.1) ([[]], false)
    (out.1, if out.2 then values.2.report (.cappedTuples t.method fanout) else values.2)

variable (t : CallbackTarget) {s : Progress} (hs : s.registry.store.Sound)

include hs in
theorem candidatesByType?_eq (fanout index : Nat) (param : TypeName) :
    t.candidatesByType? fanout index param s = some (t.candidatesByType fanout index param s) := by
  rw [candidatesByType?]
  split
  · rfl
  · rename_i hplain
    split
    · rename_i hnone
      rw [Registry.ambient?_eq hs, candidatesByType, if_neg hplain]
      dsimp only
      rw [if_pos hnone]
      rfl
    · rfl

include hs in
theorem candidates?_eq (fanout : Nat) (slot : TypeName × Nat) :
    t.candidates? fanout slot s = some (t.candidates fanout slot s) := by
  obtain ⟨param, index⟩ := slot
  rw [candidates?, candidates]
  dsimp only
  cases hb : t.bindingAt? index with
  | some b =>
      dsimp only
      rw [ArgumentSource.bound?_eq hs]
      rfl
  | none =>
      cases hid : t.viewAt? index with
      | none => exact t.candidatesByType?_eq hs fanout index param
      | some id =>
          have hview := Registry.resolveDeclared_gives hs id param
          obtain ⟨v, hv, -⟩ := Registry.exists_get? hview.has
          simp only [Registry.resolveDeclared?_eq hs, Option.bind_some, Progress.withRegistry, hv]
          cases hkind : v.isComponent with
          | true =>
              rw [if_pos rfl, t.candidatesByType?_eq hview.sound, Option.filter_some, hkind]
              rfl
          | false =>
              rw [if_neg Bool.false_ne_true, Option.filter_some, hkind]
              rfl

include hs in
theorem tuples?_eq (fanout : Nat) : t.tuples? fanout s = some (t.tuples fanout s) := by
  obtain ⟨hvalues, -⟩ := threadMap?_eq (L := fun s : Progress => s.registry.store.Sound)
    (f := t.candidates? (max fanout 1)) (g := t.candidates (max fanout 1))
    t.method.params.zipIdx (fun slot _ s hs =>
      ⟨t.candidates?_eq hs _ slot, (t.candidates_settles hs _ slot).sound⟩) hs
  rw [tuples?, hvalues]
  rfl

end CallbackTarget

/-! ### Sections -/

namespace Synthesizer

def calls? (y : Synthesizer) (c : Component) (receiver : StandInRef) (t : CallbackTarget)
    (s : Progress) : Option (List CallStep × Progress) :=
  (t.tuples? y.config.fabrication.maxArgumentFanout s).map fun tuples =>
    let steps := (tuples.1.zipIdx s.steps).map fun (args, i) =>
      { id := ⟨i⟩, component := c.name, receiver, method := t.method, args, origin := t.origin }
    (steps, { tuples.2 with steps := s.steps + tuples.1.length })

def placed? (y : Synthesizer) (c : Component) : Option (List PlacedOverride) :=
  (y.config.protocols.get c.kind).place? c.lifecycle

/-- Reads the instance of the component, whose label is that of the section. -/
def orderedSection? (y : Synthesizer) (handlers : List HandlerBinding)
    (driven : Component × StandInRef) (s : Progress) : Option (Section × Progress) :=
  let (c, receiver) := driven
  let callbacks := y.callbacks handlers c
  (y.placed? c).bind fun placed =>
    let s := s.reportAll (c.unknownListeners y.config.handlers y.listeners ++ y.unmatched c)
    let schedule := c.schedule y.config.ordering.callbackPlacement placed callbacks
    (threadFlatMap? (y.calls? c receiver) schedule s).bind fun steps =>
      (steps.2.registry.get? receiver).map fun instance_ =>
        (⟨instance_.label, .ordered, steps.1⟩, steps.2)

def unorderedSection? (y : Synthesizer) (handlers : List HandlerBinding)
    (instances : List (Component × StandInRef)) (s : Progress) :
    Option (Option Section × Progress) :=
  (threadFlatMap? (fun e => threadFlatMap? (y.calls? e.component e.receiver) e.targets)
    (instances.map (y.reentry handlers)) s).map fun steps =>
      (if steps.1.isEmpty then none
       else some ⟨"callbacks", .unordered y.config.interleaving.unorderedPasses, steps.1⟩, steps.2)

def allocateViews? (r : Registry) : Option Registry :=
  (threadMap? (fun id r => r.resolveDeclared? id TypeName.view) r.declaredIdentifiers r).map
    fun views => (views.2.unresolved TypeName.view).2

/-- The synthesis that stops where it reads a stand-in or a step that does not exist. -/
def synthesize? (y : Synthesizer) (components : List Component) (handlers : List HandlerBinding)
    (registry : Registry) : Option Procedure :=
  (registry.registerComponents? (y.driven components)).bind fun receivers =>
    (allocateViews? receivers.2).bind fun opened =>
      let instances := (y.driven components).zip receivers.1
      let start : Progress :=
        { registry := opened
          findings := (acceptComponents [] components).2 ++
            y.unreachedHandlers handlers (y.driven components) }
      (threadMap? (y.orderedSection? handlers) instances start).bind fun sections =>
        (y.unorderedSection? handlers instances sections.2).map fun unordered =>
          { name := y.config.emit.entryMethod
            sections := sections.1 ++ unordered.1.toList
            findings := unordered.2.findings ++ unordered.2.registry.degradations.map .degraded
            registry := unordered.2.registry }

variable (y : Synthesizer) (handlers : List HandlerBinding)

theorem calls?_eq {s : Progress} (hs : s.registry.store.Sound) (c : Component)
    (receiver : StandInRef) (t : CallbackTarget) :
    y.calls? c receiver t s = some (y.calls c receiver t s) := by
  rw [calls?, t.tuples?_eq hs]
  rfl

theorem placed?_eq (c : Component) : y.placed? c = some (y.placed c) :=
  (y.config.protocols.get c.kind).place?_eq c.lifecycle

theorem targets?_eq {s : Progress} (hs : s.registry.store.Sound) (c : Component)
    (receiver : StandInRef) (ts : List CallbackTarget) :
    threadFlatMap? (y.calls? c receiver) ts s = some (threadFlatMap (y.calls c receiver) ts s) ∧
      (threadFlatMap (y.calls c receiver) ts s).2.registry.store.Sound :=
  threadFlatMap?_eq (L := fun s : Progress => s.registry.store.Sound) ts
    (fun t _ _ hs => ⟨y.calls?_eq hs c receiver t, (y.kept_later.calls c receiver t _ hs).sound⟩) hs

theorem orderedSection?_eq {s : Progress} (hs : s.registry.store.Sound)
    {d : Component × StandInRef} (hd : s.registry.store.Has d.2) :
    y.orderedSection? handlers d s = some (y.orderedSection handlers d s) := by
  obtain ⟨c, receiver⟩ := d
  have hlater := y.kept_later.orderedSection handlers (c, receiver) s hs
  obtain ⟨x, hx, hlabel⟩ := Registry.exists_get? (hlater.grows.has hd)
  rw [orderedSection?, orderedSection]
  simp only [placed?_eq, Option.bind_some]
  rw [orderedSection] at hx hlabel
  dsimp only at hx hlabel
  rw [(y.targets?_eq (s := s.reportAll _) hs c receiver _).1, Option.bind_some, hx, hlabel]
  rfl

theorem unorderedSection?_eq {s : Progress} (hs : s.registry.store.Sound)
    (ds : List (Component × StandInRef)) :
    y.unorderedSection? handlers ds s = some (y.unorderedSection handlers ds s) := by
  obtain ⟨hall, -⟩ := threadFlatMap?_eq (L := fun s : Progress => s.registry.store.Sound)
    (f := fun e : Reentry => threadFlatMap? (y.calls? e.component e.receiver) e.targets)
    (g := fun e : Reentry => threadFlatMap (y.calls e.component e.receiver) e.targets)
    (ds.map (y.reentry handlers))
    (fun e _ _ hs => y.targets?_eq hs e.component e.receiver e.targets) hs
  rw [unorderedSection?, hall]
  rfl

theorem allocateViews?_eq {r : Registry} (hr : r.store.Sound) :
    allocateViews? r = some (allocateViews r) := by
  obtain ⟨hviews, -⟩ := threadMap?_eq (L := fun r : Registry => r.store.Sound)
    (f := fun id r => r.resolveDeclared? id TypeName.view)
    (g := fun id r => r.resolveDeclared id TypeName.view) r.declaredIdentifiers
    (fun id _ a ha => ⟨Registry.resolveDeclared?_eq ha id TypeName.view,
      (Registry.resolveDeclared_gives ha id TypeName.view).sound⟩) hr
  rw [allocateViews?, hviews]
  rfl

/-- **Checked synthesis.** Over a sound registry, everything that synthesis reads exists. -/
theorem synthesize?_eq (components : List Component) {registry : Registry}
    (hr : registry.store.Sound) :
    y.synthesize? components handlers registry =
      some (y.synthesize components handlers registry) := by
  have hregistered := Registry.registerComponents_evolves hr (y.driven components)
  have hopened := allocateViews_settles hregistered.sound
  have hinstances : ∀ d ∈ y.instances components registry,
      (y.opening handlers components registry []).registry.store.Has d.2 := by
    intro d hd
    have hanswers := Registry.registerComponents_answers hr (y.driven components)
    have hfound := (List.forall₂_iff_zip.1 hanswers).2 hd
    exact hopened.grows.has (hregistered.sound.has_component hfound)
  have hsections := threadMap?_eq
    (L := fun s : Progress => s.registry.store.Sound ∧
      ∀ d ∈ y.instances components registry, s.registry.store.Has d.2)
    (f := y.orderedSection? handlers) (g := y.orderedSection handlers)
    (y.instances components registry) (fun d hd s hs => by
      have hlater := y.kept_later.orderedSection handlers d s hs.1
      exact ⟨y.orderedSection?_eq handlers hs.1 (hs.2 d hd), hlater.sound,
        fun e he => hlater.grows.has (hs.2 e he)⟩)
    (s := y.opening handlers components registry []) ⟨hopened.sound, hinstances⟩
  have hunordered := y.unorderedSection?_eq handlers hsections.2.1
    (y.instances components registry)
  rw [opening, instances, List.nil_append] at hsections hunordered
  rw [synthesize?, Registry.registerComponents?_eq hr, Option.bind_some,
    allocateViews?_eq hregistered.sound, Option.bind_some]
  dsimp only
  rw [hsections.1, Option.bind_some, hunordered]
  rfl

end Synthesizer
end AppDriver
