import AppDriver.Proofs.Coverage
import AppDriver.Proofs.DeclaredIdentifiers
import AppDriver.Proofs.SettledArguments

/-! Declared arguments. A listener can declare where an argument of its methods comes from, and the
calls of its targets pass what the declared source denotes. But of two targets of a component for
one method and one view only the first is kept, and with the other one its declared sources are
lost: the argument is passed exactly if a target that is kept passes the same stand-in. -/

namespace AppDriver

open CallbackTarget (Later)

/-- Whether some call of a method on a component passes, as the argument at a position, the stand-in
that a source denotes in the final registry. -/
def Procedure.Passes (p : Procedure) (component : TypeName) (m : Signature) (k : Nat)
    (source : ArgumentSource) : Prop :=
  ∃ x ∈ p.steps, x.component = component ∧ x.method.same m = true ∧
    ∃ arg ∈ x.args[k]?, source.denotes? p.registry = some arg.value

instance (p : Procedure) (component : TypeName) (m : Signature) (k : Nat)
    (source : ArgumentSource) : Decidable (p.Passes component m k source) :=
  inferInstanceAs (Decidable (∃ x ∈ p.steps, x.component = component ∧ x.method.same m = true ∧
    ∃ arg ∈ x.args[k]?, source.denotes? p.registry = some arg.value))

/-! ### The registry of a facts document -/

namespace Registry

theorem withBindings_sound (catalog : FrameworkCatalog) (bindings : List IdentifierBinding) :
    (withBindings catalog bindings).store.Sound :=
  withBindings_keeps (P := fun r : Registry => r.store.Sound)
    (fun b _ _ hr => (declare_settles hr b).sound) Store.sound_empty

end Registry

namespace Synthesizer

variable (y : Synthesizer)

theorem services_sound (d : Facts) :
    (threadMap (fun name r => r.systemService name) d.services
      (y.registryFor d.identifiers)).2.store.Sound :=
  threadMap_invariant (P := fun r : Registry => r.store.Sound)
    (fun name _ hr => (Registry.systemService_gives hr name).sound) d.services
    (Registry.withBindings_sound y.catalog d.identifiers)

theorem allocateViews_settles {r : Registry} (hr : r.store.Sound) :
    r.Settles (allocateViews r) := by
  have hviews := threadMap_rel (R := fun a b : Registry => a.store.Sound → a.Settles b)
    (fun a ha => .refl ha) (fun h h' ha => (h ha).trans (h' (h ha).sound))
    (f := fun id r => r.resolveDeclared id TypeName.view)
    r.declaredIdentifiers
    (fun id _ a ha => (Registry.resolveDeclared_gives ha id TypeName.view).toSettles) r hr
  exact hviews.trans (Registry.unresolved_gives hviews.sound TypeName.view).toSettles

theorem opening_sound (handlers : List HandlerBinding) (components : List Component)
    {registry : Registry} (hr : registry.store.Sound) (findings : List Finding) :
    (y.opening handlers components registry findings).registry.store.Sound :=
  (allocateViews_settles (Registry.registerComponents_evolves hr _).sound).sound

/-- A synthesis never goes back: every state is reached from the ones before it. -/
theorem kept_later : y.Kept Later where
  refl := Later.refl
  trans := Later.trans
  calls _ _ t s := t.tuples_later y.config.fabrication.maxArgumentFanout s
  report s _ := Later.refl s

/-! ### What a target passes -/

/-- Whether the calls of a target pass, as the argument at a position, what a source denotes: the
target declares a source of the same stand-in for this position, or it declares none and the
position takes this stand-in as the view or by its type. -/
def Supplies (r : Registry) (t : CallbackTarget) (k : Nat) (source : ArgumentSource) : Prop :=
  match t.bindingAt? k with
  | some b => ∃ x, b.source.denotes? r = some x ∧ source.denotes? r = some x
  | none => ∃ args ∈ (t.tuples y.config.fabrication.maxArgumentFanout { registry := r }).1,
      ∃ arg ∈ args[k]?, source.denotes? r = some arg.value

variable {y} {handlers : List HandlerBinding} {components : List Component} {registry : Registry}
  (hr : registry.store.Sound) {findings : List Finding}

include hr in
/-- The calls of a target are made at a state from which the final registry is settled. -/
theorem settled_of_madeFor {d : Component × StandInRef} {t : CallbackTarget}
    {block : List CallStep}
    (h : y.MadeFor handlers components registry findings Later d t block) :
    ∃ s : Progress, s.registry.store.Sound ∧ block = (y.calls d.1 d.2 t s).1 ∧
      (t.tuples y.config.fabrication.maxArgumentFanout s).2.registry.Settles
        (y.procedure components handlers registry findings).registry := by
  obtain ⟨s, hs, hblock, hlast⟩ := h
  have hsound := (hs (y.opening_sound handlers components hr findings)).sound
  exact ⟨s, hsound, hblock, hlast (t.tuples_later _ s hsound).sound⟩

include hr in
/-- The calls of a target pass the tuples that the final registry gives for it. -/
theorem args_of_madeFor {d : Component × StandInRef} {t : CallbackTarget} {block : List CallStep}
    (h : y.MadeFor handlers components registry findings Later d t block)
    {args : List ArgBinding} :
    (∃ x ∈ block, x.args = args) ↔
      args ∈ (t.tuples y.config.fabrication.maxArgumentFanout
        { registry := (y.procedure components handlers registry findings).registry }).1 := by
  obtain ⟨s, hsound, rfl, hlate⟩ := settled_of_madeFor hr h
  have hfinal : (t.tuples y.config.fabrication.maxArgumentFanout s).2.registry.Settles
      ({ registry := (y.procedure components handlers registry findings).registry } :
        Progress).registry := hlate
  rw [(t.tuples_settled hsound hfinal).1]
  constructor
  · rintro ⟨x, hx, rfl⟩
    exact (y.mem_calls hx).2.2.2
  · exact y.exists_call d.1 d.2

include hr in
/-- A target passes what the sources that it declares denote in the final registry. -/
theorem declared_of_madeFor {d : Component × StandInRef} {t : CallbackTarget}
    {block : List CallStep}
    (h : y.MadeFor handlers components registry findings Later d t block) {k : Nat}
    (hk : k < t.method.arity) {b : ParamBinding} (hb : t.bindingAt? k = some b) {x : CallStep}
    (hx : x ∈ block) :
    ∃ arg, x.args[k]? = some arg ∧ b.source.denotes?
      (y.procedure components handlers registry findings).registry = some arg.value := by
  obtain ⟨s, hsound, rfl, hlate⟩ := settled_of_madeFor hr h
  exact t.declared_value hsound hk hb (y.mem_calls hx).2.2.2 hlate

theorem arity_of_same {m m' : Signature} (h : m.same m' = true) : m.arity = m'.arity :=
  congrArg List.length (Signature.same_iff.1 h).2

/-- The calls of a scheduled target are among the steps, on the component and for its method. -/
theorem exists_block {c : Component} (hc : c ∈ y.driven components) {t : CallbackTarget}
    (ht : t ∈ y.scheduled handlers c) :
    ∃ d block, y.MadeFor handlers components registry findings Later d t block ∧ block ≠ [] ∧
      ∀ x ∈ block, x ∈ (y.procedure components handlers registry findings).steps ∧
        x.component = c.name ∧ x.method = t.method := by
  obtain ⟨d, hd, rfl⟩ := (y.mem_driven_iff registry).1 hc
  obtain ⟨block, hmade, hsubset⟩ :=
    block_subset_steps handlers y.kept_later components registry findings hd ht
  have hblock := hmade.block
  exact ⟨d, block, hmade, hblock.nonempty, fun x hx =>
    ⟨hsubset hx, hblock.component x hx, hblock.method x hx⟩⟩

include hr in
/-- A scheduled target passes what denotes the same as the source that it declares. -/
theorem passes_of_declared {c : Component} (hc : c ∈ y.driven components) {t : CallbackTarget}
    (ht : t ∈ y.scheduled handlers c) {m : Signature} (hm : t.method.same m = true) {k : Nat}
    (hk : k < m.arity) {b : ParamBinding} (hb : t.bindingAt? k = some b)
    {source : ArgumentSource} (hsource : ∀ value,
      b.source.denotes? (y.procedure components handlers registry findings).registry = some value →
      source.denotes? (y.procedure components handlers registry findings).registry =
        some value) :
    (y.procedure components handlers registry findings).Passes c.name m k source := by
  obtain ⟨d, block, hmade, hnonempty, hsteps⟩ := exists_block hc ht
  obtain ⟨x, rest, rfl⟩ := List.exists_cons_of_ne_nil hnonempty
  obtain ⟨hx, hcomponent, hmethod⟩ := hsteps x List.mem_cons_self
  obtain ⟨arg, harg, hdenotes⟩ := declared_of_madeFor hr hmade (by rwa [arity_of_same hm]) hb
    List.mem_cons_self
  exact ⟨x, hx, hcomponent, hmethod ▸ hm, arg, harg, hsource arg.value hdenotes⟩

include hr in
/-- An argument that is passed is supplied by the target of its call. -/
theorem exists_supplier {c : Component} (hc : c ∈ y.driven components) {m : Signature} {k : Nat}
    (hk : k < m.arity) {source : ArgumentSource}
    (h : (y.procedure components handlers registry findings).Passes c.name m k source) :
    ∃ t ∈ y.scheduled handlers c, t.method.same m = true ∧
      y.Supplies (y.procedure components handlers registry findings).registry t k source := by
  obtain ⟨x, hx, hcomponent, hmethod, arg, harg, hsource⟩ := h
  obtain ⟨d, hd, t, ht, block, hmade, hxblock⟩ :=
    mem_steps handlers y.kept_later components registry findings hx
  have hblock := hmade.block
  have hdc : d.1 = c := by
    have hdriven : d.1 ∈ y.driven components := (y.mem_driven_iff registry).2 ⟨d, hd, rfl⟩
    exact y.eq_of_mem_driven hdriven hc ((hblock.component x hxblock).symm.trans hcomponent)
  rw [hblock.method x hxblock] at hmethod
  refine ⟨t, hdc ▸ ht, hmethod, ?_⟩
  rw [Supplies]
  split
  · rename_i b hb
    obtain ⟨arg', harg', hdenotes⟩ := declared_of_madeFor hr hmade
      (by rwa [arity_of_same hmethod]) hb hxblock
    rw [Option.mem_def.1 harg] at harg'
    cases harg'
    exact ⟨arg.value, hdenotes, hsource⟩
  · exact ⟨x.args, (args_of_madeFor hr hmade).1 ⟨x, hxblock, rfl⟩, arg, harg, hsource⟩

include hr in
/-- An argument that a scheduled target supplies is passed. -/
theorem passes_of_supplies {c : Component} (hc : c ∈ y.driven components) {t : CallbackTarget}
    (ht : t ∈ y.scheduled handlers c) {m : Signature} (hm : t.method.same m = true) {k : Nat}
    (hk : k < m.arity) {source : ArgumentSource}
    (h : y.Supplies (y.procedure components handlers registry findings).registry t k source) :
    (y.procedure components handlers registry findings).Passes c.name m k source := by
  rw [Supplies] at h
  split at h
  · rename_i b hb
    obtain ⟨value, hdenotes, hsource⟩ := h
    refine passes_of_declared hr hc ht hm hk hb fun value' hdenotes' => ?_
    rw [hsource, ← hdenotes, hdenotes']
  · obtain ⟨args, hargs, arg, harg, hsource⟩ := h
    obtain ⟨d, block, hmade, -, hsteps⟩ := exists_block hc ht
    obtain ⟨x, hx, rfl⟩ := (args_of_madeFor hr hmade).2 hargs
    obtain ⟨hmem, hcomponent, hmethod⟩ := hsteps x hx
    exact ⟨x, hmem, hcomponent, hmethod ▸ hm, arg, harg, hsource⟩

include hr in
/-- An argument is passed exactly if a target that is driven for the method supplies it. -/
theorem passes_iff {c : Component} (hc : c ∈ y.driven components) {m : Signature} {k : Nat}
    (hk : k < m.arity) (source : ArgumentSource) :
    (y.procedure components handlers registry findings).Passes c.name m k source ↔
      ∃ t ∈ y.scheduled handlers c, t.method.same m = true ∧
        y.Supplies (y.procedure components handlers registry findings).registry t k source :=
  ⟨exists_supplier hr hc hk,
    fun ⟨_, ht, hm, hsupplies⟩ => passes_of_supplies hr hc ht hm hk hsupplies⟩

end Synthesizer

/-! ### The first listener for a method and a view -/

namespace Component

variable (config : HandlerSection) (listeners : ListenerCatalog)

/-- Whether a listener of a component is the first one that contributes a method on some view. -/
def IsFirst (c : Component) (l : ListenerImpl) (m : Signature) : Prop :=
  ∃ before after view, c.listeners = before ++ l :: after ∧ view ∈ registrations l ∧
    ∀ l' ∈ before, view ∈ registrations l' → ∀ m' ∈ contributed config listeners l',
      m'.same m = false

variable {config listeners} {c : Component} {l : ListenerImpl} {m : Signature}

/-- The target of the first listener for a method and a view is kept, with the declared sources of
the listener. -/
theorem IsFirst.exists_target (h : c.IsFirst config listeners l m)
    (hm : m ∈ contributed config listeners l) (handlers : List HandlerBinding) :
    ∃ t ∈ c.callbackTargets config listeners handlers, t.method.same m = true ∧
      t.bindings = l.bindings ++ c.bindings := by
  obtain ⟨before, after, view, hsplit, hview, hfirst⟩ := h
  let own : CallbackTarget :=
    { method := m, view, origin := .listener l.interface view, bindings := l.bindings ++ c.bindings }
  have hown : own ∈ c.listenerTargets config listeners l :=
    List.mem_flatMap.2 ⟨m, hm, List.mem_map.2 ⟨view, hview, rfl⟩⟩
  have hbefore : (before.flatMap (c.listenerTargets config listeners)).find?
      (·.sameExposure own) = none := by
    refine List.find?_eq_none.2 fun t ht hsame => ?_
    obtain ⟨l', hl', ht⟩ := List.mem_flatMap.1 ht
    obtain ⟨m', hm', ht⟩ := List.mem_flatMap.1 ht
    obtain ⟨view', hview', rfl⟩ := List.mem_map.1 ht
    obtain ⟨hmethod, rfl⟩ := CallbackTarget.sameExposure_iff.1 hsame
    rw [hfirst l' hl' hview' m' hm'] at hmethod
    cases hmethod
  obtain ⟨t, ht⟩ := Option.isSome_iff_exists.1
    (List.find?_isSome.2 ⟨own, hown, own.sameExposure_refl⟩ :
      ((c.listenerTargets config listeners l).find? (·.sameExposure own)).isSome = true)
  have hsame : t.sameExposure own = true := by simpa using List.find?_some ht
  have hkept : t ∈ c.callbackTargets config listeners handlers := by
    have hcongr : (fun u : CallbackTarget => u.sameExposure t) = (·.sameExposure own) :=
      funext (CallbackTarget.sameExposure_congr hsame)
    rw [mem_callbackTargets, hcongr, discovered, hsplit, List.flatMap_append, List.flatMap_cons,
      List.find?_append, List.find?_append, List.find?_append, List.find?_append, hbefore, ht]
    rfl
  refine ⟨t, hkept, (CallbackTarget.sameExposure_iff.1 hsame).1, ?_⟩
  obtain ⟨m', -, hmem⟩ := List.mem_flatMap.1 (List.mem_of_find?_eq_some ht)
  obtain ⟨view', -, rfl⟩ := List.mem_map.1 hmem
  rfl

end Component

namespace Synthesizer

variable (y : Synthesizer)

/-- **Declared arguments.** What a listener declares for an argument of a method is passed exactly if
a target that is driven for the method supplies it, be it one of the listener or not; it is passed
if the listener is the first of the component that contributes the method on some view. -/
theorem declared_argument_passed_iff (d : Facts) {c : Component}
    (hc : d.components.find? (·.name == c.name) = some c) {l : ListenerImpl} {m : Signature}
    (hm : m ∈ Component.contributed y.config.handlers y.listeners l) {k : Nat} (hk : k < m.arity)
    {b : ParamBinding} (hb : l.bindings.find? (fun b => b.index == k && b.appliesTo m) = some b) :
    ((y.synthesizeFacts d).Passes c.name m k b.source ↔
      ∃ t ∈ y.scheduled d.handlers c, t.method.same m = true ∧
        y.Supplies (y.synthesizeFacts d).registry t k b.source) ∧
    (c.IsFirst y.config.handlers y.listeners l m →
      (y.synthesizeFacts d).Passes c.name m k b.source) := by
  have hdriven := y.mem_driven.2 hc
  refine ⟨passes_iff (y.services_sound d) hdriven hk b.source, fun hfirst => ?_⟩
  obtain ⟨t, ht, hmethod, hbindings⟩ := hfirst.exists_target hm d.handlers
  have hscheduled : t ∈ y.scheduled d.handlers c := Component.mem_schedule.2 (Or.inr ht)
  have happlies : ∀ b' : ParamBinding, b'.appliesTo t.method = b'.appliesTo m := by
    intro b'
    rw [ParamBinding.appliesTo, ParamBinding.appliesTo, (Signature.same_iff.1 hmethod).1]
  have hbinding : t.bindingAt? k = some b := by
    rw [CallbackTarget.bindingAt?, hbindings, List.find?_append]
    simp only [happlies]
    rw [hb]
    rfl
  exact passes_of_declared (y.services_sound d) hdriven hscheduled hmethod hk hbinding
    fun _ hdenotes => hdenotes

/-- A method of a surface listener, which is handed the holder of its surface. -/
def surfaceCreated : Signature :=
  { name := "surfaceCreated", params := [⟨"android.view.SurfaceHolder"⟩] }

/-- The holder of the surface view of an identifier. -/
def surfaceHolder (id : ResourceId) : ArgumentSource :=
  .accessor id [⟨"getHolder", ⟨"android.view.SurfaceHolder"⟩⟩]

/-- A listener for the surface view of an identifier. -/
def surfaceListener (id : ResourceId) : ListenerImpl :=
  { interface := ⟨"android.view.SurfaceHolder.Callback"⟩, methods := [surfaceCreated]
    bindings := [{ index := 0, source := surfaceHolder id }] }

/-- An activity with a listener for each of two surface views. -/
def surfaceActivity : Component :=
  { name := ⟨"app.Player"⟩, kind := .activity, listeners := [surfaceListener 1, surfaceListener 2] }

def surfaceFacts : Facts :=
  { components := [surfaceActivity]
    identifiers := [{ id := 1, declaredType := ⟨"android.view.SurfaceView"⟩, name := "video" },
      { id := 2, declaredType := ⟨"android.view.SurfaceView"⟩, name := "preview" }] }

/-- The first of two surface listeners is handed the holder of its surface. -/
theorem first_surface_passed :
    surfaceFacts.components.find? (·.name == surfaceActivity.name) = some surfaceActivity ∧
      (synthesizeFacts {} surfaceFacts).Passes surfaceActivity.name surfaceCreated 0
        (surfaceHolder 1) := by
  have hc : surfaceFacts.components.find? (·.name == surfaceActivity.name) =
      some surfaceActivity := by decide +kernel
  have hfirst : surfaceActivity.IsFirst (HandlerSection.ofPreset .standard) .android
      (surfaceListener 1) surfaceCreated :=
    ⟨[], [surfaceListener 2], none, rfl, List.mem_singleton.2 rfl, fun _ h => nomatch h⟩
  have hk : 0 < surfaceCreated.arity := by decide
  have hb : (surfaceListener 1).bindings.find? (fun b => b.index == 0 &&
      b.appliesTo surfaceCreated) = some { index := 0, source := surfaceHolder 1 } := by
    decide +kernel
  exact ⟨hc, (declared_argument_passed_iff {} surfaceFacts hc (List.mem_singleton.2 rfl) hk
    hb).2 hfirst⟩

/-- The second one never is: its target is dropped as a duplicate of the first one's, and with it
what it declares. -/
theorem second_surface_not_passed :
    surfaceListener 2 ∈ surfaceActivity.listeners ∧
      surfaceCreated ∈ Component.contributed (HandlerSection.ofPreset .standard) .android
        (surfaceListener 2) ∧
      (surfaceListener 2).bindings.find? (fun b => b.index == 0 && b.appliesTo surfaceCreated) =
        some { index := 0, source := surfaceHolder 2 } ∧
      ¬(synthesizeFacts {} surfaceFacts).Passes surfaceActivity.name surfaceCreated 0
        (surfaceHolder 2) := by
  decide +kernel

end Synthesizer
end AppDriver
