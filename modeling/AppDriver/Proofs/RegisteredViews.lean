import AppDriver.Proofs.DeclaredArguments

/-! The views that callbacks are registered on. A listener method that is registered on an identifier,
and a handler that is declared on one, are passed the view of the identifier: as the first parameter
of a view type, or as the first one that is passed by reference. Only a declared source of the
parameter goes before it, and an identifier that denotes a component is no view. The view is looked
up anew for every call; since an identifier keeps its stand-in, all calls are handed the same one. -/

namespace AppDriver

open CallbackTarget (Later)

/-- The identifier on whose view a callback is registered. -/
def CallOrigin.identifier? : CallOrigin → Option ResourceId
  | .lifecycle _ => none
  | .listener _ id => id
  | .handler id => id

/-- The parameter that takes a view: the first of a view type, else the first that is passed by
reference. -/
def Signature.viewParam? (m : Signature) : Option Nat :=
  (m.params.findIdx? FrameworkCatalog.isViewType).or (m.params.findIdx? (!·.isPlainValue))

/-- The declared sources of arguments of a component and of its listeners. -/
def Component.declaredBindings (c : Component) : List ParamBinding :=
  c.bindings ++ c.listeners.flatMap (·.bindings)

/-- Whether a step is a callback that takes the view of an identifier as the argument at a position:
it is registered on the identifier, the position is that of its view parameter, nothing is declared
for this parameter, and the identifier denotes no component. -/
structure Procedure.TakesView (p : Procedure) (components : List Component) (x : CallStep)
    (id : ResourceId) (k : Nat) : Prop where
  step : x ∈ p.steps
  registered : x.origin.identifier? = some id
  position : x.method.viewParam? = some k
  undeclared : ∀ c ∈ components.find? (·.name == x.component),
    ∀ b ∈ c.declaredBindings, b.index = k → b.appliesTo x.method = false
  view : p.registry.DenotesNoComponent id

instance (p : Procedure) (components : List Component) (x : CallStep) (id : ResourceId) (k : Nat) :
    Decidable (p.TakesView components x id k) :=
  decidable_of_iff (x ∈ p.steps ∧ x.origin.identifier? = some id ∧ x.method.viewParam? = some k ∧
      (∀ c ∈ components.find? (·.name == x.component),
        ∀ b ∈ c.declaredBindings, b.index = k → b.appliesTo x.method = false) ∧
      p.registry.DenotesNoComponent id)
    ⟨fun ⟨hstep, hid, hk, hnone, hview⟩ => ⟨hstep, hid, hk, hnone, hview⟩,
      fun h => ⟨h.step, h.registered, h.position, h.undeclared, h.view⟩⟩

/-! ### The view of a target -/

theorem Signature.viewParam?_lt_arity {m : Signature} {k : Nat} (h : m.viewParam? = some k) :
    k < m.arity := by
  rcases Option.or_eq_some_iff.1 h with hview | ⟨-, hreference⟩
  · exact (List.findIdx?_eq_some_iff_getElem.1 hview).1
  · exact (List.findIdx?_eq_some_iff_getElem.1 hreference).1

namespace CallbackTarget

variable {t : CallbackTarget} {k : Nat}

theorem viewAt?_of_viewParam? {id : ResourceId} (hid : t.view = some id)
    (hk : t.method.viewParam? = some k) : t.viewAt? k = some id := by
  have hslot : t.viewSlot = some k := by
    rw [viewSlot, hid]
    exact hk
  rw [viewAt?, if_pos hslot, hid]

theorem bindingAt?_eq_none (h : ∀ b ∈ t.bindings, b.index = k → b.appliesTo t.method = false) :
    t.bindingAt? k = none := by
  refine List.find?_eq_none.2 fun b hb => ?_
  by_cases hindex : b.index = k
  · simp [h b hb hindex]
  · simp [hindex]

end CallbackTarget

namespace Component

variable {c : Component} {config : HandlerSection} {listeners : ListenerCatalog}
  {handlers : List HandlerBinding} {t : CallbackTarget}

/-- A callback target is for the view that its origin is registered on. -/
theorem view_of_discovered (ht : t ∈ c.discovered config listeners handlers) :
    t.view = t.origin.identifier? := by
  rcases discovered_cases ht with
    ⟨l, -, htarget, -⟩ | ⟨b, -, -, -, horigin, hview⟩ | ⟨name, -, -, -, horigin, hview⟩
  · obtain ⟨m, -, hmem⟩ := List.mem_flatMap.1 htarget
    obtain ⟨view, -, rfl⟩ := List.mem_map.1 hmem
    rfl
  · rw [horigin, hview]
    rfl
  · rw [horigin, hview]
    rfl

/-- A callback target has no other sources than those that its component declares. -/
theorem bindings_of_discovered (ht : t ∈ c.discovered config listeners handlers) :
    t.bindings ⊆ c.declaredBindings := by
  rcases List.mem_append.1 ht with ht | ht
  · rcases List.mem_append.1 ht with ht | ht
    · obtain ⟨l, hl, ht⟩ := List.mem_flatMap.1 ht
      obtain ⟨m, -, hmem⟩ := List.mem_flatMap.1 ht
      obtain ⟨view, -, rfl⟩ := List.mem_map.1 hmem
      intro b hb
      rcases List.mem_append.1 hb with hb | hb
      · exact List.mem_append_right _ (List.mem_flatMap.2 ⟨l, hl, hb⟩)
      · exact List.mem_append_left _ hb
    · obtain ⟨b, -, rfl⟩ := List.mem_map.1 ht
      exact List.subset_append_left _ _
  · obtain ⟨name, -, rfl⟩ := List.mem_map.1 ht
    exact List.subset_append_left _ _

end Component

/-! ### The calls of a synthesis -/

namespace Synthesizer

variable {y : Synthesizer} {handlers : List HandlerBinding} {components : List Component}
  {registry : Registry} (hr : registry.store.Sound) {findings : List Finding}

include hr in
/-- The calls of a callback target pass the view of its identifier in the final registry. -/
theorem view_of_madeFor {d : Component × StandInRef} {t : CallbackTarget}
    (ht : t ∈ y.callbacks handlers d.1) {block : List CallStep}
    (h : y.MadeFor handlers components registry findings Later d t block) {x : CallStep}
    (hx : x ∈ block) {id : ResourceId} (hid : t.view = some id) {k : Nat}
    (hk : t.method.viewParam? = some k)
    (hunbound : ∀ b ∈ d.1.declaredBindings, b.index = k → b.appliesTo t.method = false)
    (hview : (y.procedure components handlers registry findings).registry.DenotesNoComponent id) :
    ∃ arg, x.args[k]? = some arg ∧ t.method.params[k]? = some arg.param ∧
      (y.procedure components handlers registry findings).registry.findViewById? id =
        some arg.value := by
  obtain ⟨s, hsound, rfl, hlate⟩ := settled_of_madeFor hr h
  have hparam := List.getElem?_eq_getElem (Signature.viewParam?_lt_arity hk)
  have hbindings := Component.bindings_of_discovered
    (Component.discovered_of_mem_callbackTargets ht)
  have hnone := t.bindingAt?_eq_none fun b hb => hunbound b (hbindings hb)
  have hfinal : (t.tuples y.config.fabrication.maxArgumentFanout s).2.registry.Settles
      ({ registry := (y.procedure components handlers registry findings).registry } :
        Progress).registry := hlate
  obtain ⟨arg, harg, htype, hfound⟩ := t.view_value hsound hparam hnone
    (CallbackTarget.viewAt?_of_viewParam? hid hk) (y.mem_calls hx).2.2.2 hfinal hview
  exact ⟨arg, harg, hparam.trans (congrArg some htype.symm), hfound⟩

include hr in
theorem view_of_takesView {x : CallStep} {id : ResourceId} {k : Nat}
    (h : (y.procedure components handlers registry findings).TakesView components x id k) :
    ∃ arg, x.args[k]? = some arg ∧
      (y.procedure components handlers registry findings).registry.findViewById? id =
        some arg.value := by
  obtain ⟨d, hd, t, ht, block, hmade, hxblock⟩ :=
    mem_steps handlers y.kept_later components registry findings h.step
  have hblock := hmade.block
  have horigin := h.registered
  rw [hblock.origin x hxblock] at horigin
  -- An override carries no identifier, so the call is that of a callback.
  rcases Component.mem_schedule.1 ht with ⟨o, -, rfl⟩ | hcallback
  · cases horigin
  · have hdiscovered := Component.discovered_of_mem_callbackTargets hcallback
    have hview : t.view = some id := (Component.view_of_discovered hdiscovered).trans horigin
    have hdriven : d.1 ∈ y.driven components := (y.mem_driven_iff registry).2 ⟨d, hd, rfl⟩
    have hfind : components.find? (·.name == x.component) = some d.1 := by
      rw [hblock.component x hxblock]
      exact y.mem_driven.1 hdriven
    have hposition := h.position
    rw [hblock.method x hxblock] at hposition
    obtain ⟨arg, harg, -, hfound⟩ := view_of_madeFor hr hcallback hmade hxblock hview hposition
      (fun b hb hindex => hblock.method x hxblock ▸ h.undeclared d.1 hfind b hb hindex) h.view
    exact ⟨arg, harg, hfound⟩

/-- **Registered views.** Every callback that takes the view of an identifier is passed the stand-in
that the final registry has for the identifier. So all callbacks that are registered on one
identifier, on whatever components and in whatever sections, are passed the same stand-in. -/
theorem registered_view_passed (y : Synthesizer) (components : List Component)
    (handlers : List HandlerBinding) {registry : Registry} (hr : Registry.Reachable registry) :
    (∀ x id k, (y.synthesize components handlers registry).TakesView components x id k →
      ∃ view, (y.synthesize components handlers registry).registry.findViewById? id = some view ∧
        (x.args[k]?).map (·.value) = some view) ∧
    ∀ x x' id k k', (y.synthesize components handlers registry).TakesView components x id k →
      (y.synthesize components handlers registry).TakesView components x' id k' →
      (x.args[k]?).map (·.value) = (x'.args[k']?).map (·.value) := by
  refine ⟨fun x id k h => ?_, fun x x' id k k' h h' => ?_⟩
  · obtain ⟨arg, harg, hfound⟩ := view_of_takesView hr.sound h
    exact ⟨arg.value, hfound, by rw [harg]; rfl⟩
  · obtain ⟨arg, harg, hfound⟩ := view_of_takesView hr.sound h
    obtain ⟨arg', harg', hfound'⟩ := view_of_takesView hr.sound h'
    rw [harg, harg', Option.map_some, Option.map_some, ← hfound, hfound']

/-- The registry that declares a button. -/
def buttonRegistry : Registry :=
  ((Registry.new .android).declare { id := 5, declaredType := ⟨"android.widget.Button"⟩ }).2

theorem buttonRegistry_reachable : Registry.Reachable buttonRegistry :=
  .step (.declare { id := 5, declaredType := ⟨"android.widget.Button"⟩ }) (.new .android 1) rfl

/-- An activity that listens to the clicks of the button. -/
def signIn : Component :=
  { name := ⟨"app.SignIn"⟩, kind := .activity
    listeners := [{ interface := ⟨"android.view.View.OnClickListener"⟩, registeredOn := [5] }] }

/-- A fragment with a handler that takes a button as its second parameter. -/
def help : Component :=
  { name := ⟨"app.Help"⟩, kind := .fragment
    methods := [{ name := "show", params := [⟨"int"⟩, ⟨"android.widget.Button"⟩] }] }

/-- The two of them, with the handler bound to the button. -/
def sharedButton : Procedure :=
  synthesize {} [signIn, help]
    [{ method := "show", identifier := 5, component := some help.name }] buttonRegistry

/-- The activity and the fragment are passed the same button. -/
theorem shared_button_passed :
    ∃ x x', sharedButton.TakesView [signIn, help] x 5 0 ∧ x.component = signIn.name ∧
      sharedButton.TakesView [signIn, help] x' 5 1 ∧ x'.component = help.name ∧
      (x.args[0]?).map (·.value) = (x'.args[1]?).map (·.value) := by
  have hcalls : ∃ x ∈ sharedButton.steps, ∃ x' ∈ sharedButton.steps,
      sharedButton.TakesView [signIn, help] x 5 0 ∧ x.component = signIn.name ∧
        sharedButton.TakesView [signIn, help] x' 5 1 ∧ x'.component = help.name := by
    decide +kernel
  obtain ⟨x, -, x', -, h, hcomponent, h', hcomponent'⟩ := hcalls
  exact ⟨x, x', h, hcomponent, h', hcomponent',
    (registered_view_passed {} [signIn, help] _ buttonRegistry_reachable).2 x x' 5 0 1 h h'⟩

end Synthesizer
end AppDriver
