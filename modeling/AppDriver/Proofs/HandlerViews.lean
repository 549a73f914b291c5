import AppDriver.Proofs.RegisteredViews

/-! Handlers are handed their view. A handler that layouts bind to an identifier is called with the
view of the identifier: the method is the declared one of the handler's name, or one that takes a
view if there is none, and the view is the argument of its first parameter of a view type. This need
not be the parameter of the type `View` itself: a method that takes a button before it is handed the
view as the button. -/

namespace AppDriver

/-- Whether some call of a method of this name on a component passes the view of an identifier for a
parameter of the type `View`. -/
def Procedure.HandsView (p : Procedure) (component : TypeName) (name : String) (id : ResourceId) :
    Prop :=
  ∃ x ∈ p.steps, x.component = component ∧ x.method.name = name ∧
    ∃ arg ∈ x.args, arg.param = TypeName.view ∧ p.registry.findViewById? id = some arg.value

instance (p : Procedure) (component : TypeName) (name : String) (id : ResourceId) :
    Decidable (p.HandsView component name id) :=
  inferInstanceAs (Decidable (∃ x ∈ p.steps, x.component = component ∧ x.method.name = name ∧
    ∃ arg ∈ x.args, arg.param = TypeName.view ∧ p.registry.findViewById? id = some arg.value))

/-- Whether a handler binding reaches a listed component and only the view of its identifier is to
be passed: no declared source goes before it, and the identifier denotes no component. -/
structure Synthesizer.BindsView (y : Synthesizer) (components : List Component)
    (handlers : List HandlerBinding) (p : Procedure) (c : Component) (b : HandlerBinding) : Prop where
  listed : components.find? (·.name == c.name) = some c
  bound : b ∈ handlers
  reaches : b.reaches c y.config.handlers.policy = true
  undeclared : ∀ s ∈ c.declaredBindings, ∀ m : Signature, m.name = b.method → s.appliesTo m = false
  view : p.registry.DenotesNoComponent b.identifier

namespace Signature

/-- A method with a parameter of the type `View` is passed a view at its first parameter of a view
type. -/
theorem viewParam?_of_view {m : Signature} (h : TypeName.view ∈ m.params) :
    ∃ k, m.params.findIdx? FrameworkCatalog.isViewType = some k ∧ m.viewParam? = some k := by
  have hany : m.params.any FrameworkCatalog.isViewType = true :=
    List.any_eq_true.2 ⟨TypeName.view, h, if_pos rfl⟩
  rw [← List.findIdx?_isSome] at hany
  obtain ⟨k, hk⟩ := Option.isSome_iff_exists.1 hany
  refine ⟨k, hk, ?_⟩
  rw [viewParam?, hk, Option.some_or]

end Signature

namespace Synthesizer

variable {y : Synthesizer} {handlers : List HandlerBinding} {components : List Component}
  {registry : Registry} (hr : registry.store.Sound)

include hr in
/-- A call of the handler passes the view of the identifier at the view parameter. -/
theorem exists_viewCall {c : Component} {b : HandlerBinding}
    (h : y.BindsView components handlers (y.synthesize components handlers registry) c b) {k : Nat}
    (hk : (c.handlerSignature b.method).viewParam? = some k) :
    ∃ x ∈ (y.synthesize components handlers registry).steps, x.component = c.name ∧
      x.method.same (c.handlerSignature b.method) = true ∧
      ∃ arg, x.args[k]? = some arg ∧
        (c.handlerSignature b.method).params[k]? = some arg.param ∧
        (y.synthesize components handlers registry).registry.findViewById? b.identifier =
          some arg.value := by
  obtain ⟨d, hd, rfl⟩ := (y.mem_driven_iff registry).1 (y.mem_driven.2 h.listed)
  -- The target that is kept may be a listener's: it has the method and the view of the handler.
  obtain ⟨t, ht, hmethod, hview⟩ := Component.exists_target_of_reaches h.bound h.reaches
  obtain ⟨hname, hparams⟩ := Signature.same_iff.1 hmethod
  rw [Component.handlerSignature_name] at hname
  have hslot : t.method.viewParam? = some k := by rwa [Signature.viewParam?, hparams]
  obtain ⟨block, hmade, hsubset⟩ := block_subset_steps handlers y.kept_later components registry []
    hd (Component.mem_schedule.2 (Or.inr ht))
  have hblock := hmade.block
  obtain ⟨x, rest, rfl⟩ := List.exists_cons_of_ne_nil hblock.nonempty
  obtain ⟨arg, harg, hparam, hfound⟩ := view_of_madeFor hr ht hmade List.mem_cons_self hview hslot
    (fun s hs _ => h.undeclared s hs t.method hname) h.view
  rw [hparams] at hparam
  exact ⟨x, hsubset List.mem_cons_self, hblock.component x List.mem_cons_self,
    hblock.method x List.mem_cons_self ▸ hmethod, arg, harg, hparam, hfound⟩

/-- **Handler views.** If the declared method of a handler's name, or the first of them, takes a
`View`, or if none is declared, then a call of the handler passes the view of the identifier at the
first parameter of a view type; if this one is a `View`, the handler is handed its view. -/
theorem handler_view_passed (y : Synthesizer) (components : List Component)
    (handlers : List HandlerBinding) {registry : Registry} (hr : Registry.Reachable registry)
    {c : Component} {b : HandlerBinding}
    (h : y.BindsView components handlers (y.synthesize components handlers registry) c b)
    (hdeclared : ∀ m ∈ (c.methodsNamed b.method).head?, TypeName.view ∈ m.params) :
    (∃ k, (c.handlerSignature b.method).params.findIdx? FrameworkCatalog.isViewType = some k ∧
      (y.synthesize components handlers registry).Passes c.name (c.handlerSignature b.method) k
        (.identifier b.identifier)) ∧
    ((c.handlerSignature b.method).params.find? FrameworkCatalog.isViewType = some TypeName.view →
      (y.synthesize components handlers registry).HandsView c.name b.method b.identifier) := by
  have hview : TypeName.view ∈ (c.handlerSignature b.method).params :=
    Component.handlerSignature_of_declared (P := fun m => TypeName.view ∈ m.params) hdeclared
      (List.mem_singleton.2 rfl)
  obtain ⟨k, hk, hslot⟩ := Signature.viewParam?_of_view hview
  obtain ⟨x, hx, hcomponent, hmethod, arg, harg, hparam, hfound⟩ := exists_viewCall hr.sound h hslot
  refine ⟨⟨k, hk, x, hx, hcomponent, hmethod, arg, harg, hfound⟩, fun hfirst => ?_⟩
  have hname : x.method.name = b.method := by
    rw [(Signature.same_iff.1 hmethod).1, Component.handlerSignature_name]
  rw [List.find?_eq_bind_findIdx?_getElem?, hk, Option.bind_some, hparam] at hfirst
  exact ⟨x, hx, hcomponent, hname, arg, List.mem_of_getElem? harg, Option.some.inj hfirst, hfound⟩

/-- An activity with two methods that take a view: after a number, and after a button. -/
def gallery : Component :=
  { name := ⟨"app.Gallery"⟩, kind := .activity
    methods := [{ name := "open", params := [⟨"int"⟩, TypeName.view] },
      { name := "pick", params := [⟨"android.widget.Button"⟩, TypeName.view] }] }

/-- Both methods are handlers of the button. -/
def openHandler : HandlerBinding :=
  { method := "open", identifier := 5, component := some gallery.name }

def pickHandler : HandlerBinding :=
  { method := "pick", identifier := 5, component := some gallery.name }

def galleryDriver : Procedure :=
  synthesize {} [gallery] [openHandler, pickHandler] buttonRegistry

theorem gallery_bindsView {b : HandlerBinding} (hb : b ∈ [openHandler, pickHandler]) :
    BindsView {} [gallery] [openHandler, pickHandler] galleryDriver gallery b where
  listed := rfl
  bound := hb
  reaches := by revert b; decide
  undeclared s hs := by cases hs
  view := by revert b; decide +kernel

/-- The handler that takes a number and the view is handed its view. -/
theorem open_handed : BindsView {} [gallery] [openHandler, pickHandler] galleryDriver gallery
      openHandler ∧
    galleryDriver.HandsView gallery.name openHandler.method openHandler.identifier := by
  have hbinds := gallery_bindsView List.mem_cons_self
  have hdeclared : ∀ m ∈ (gallery.methodsNamed openHandler.method).head?,
      TypeName.view ∈ m.params := by decide
  have hfirst : (gallery.handlerSignature openHandler.method).params.find?
      FrameworkCatalog.isViewType = some TypeName.view := by decide +kernel
  exact ⟨hbinds, (handler_view_passed {} [gallery] [openHandler, pickHandler]
    buttonRegistry_reachable hbinds hdeclared).2 hfirst⟩

/-- The one that takes a button and the view is not: it is passed the view as the button. -/
theorem pick_not_handed : Registry.Reachable buttonRegistry ∧
    BindsView {} [gallery] [openHandler, pickHandler] galleryDriver gallery pickHandler ∧
    (∃ m ∈ gallery.methodsNamed pickHandler.method, TypeName.view ∈ m.params) ∧
    ¬galleryDriver.HandsView gallery.name pickHandler.method pickHandler.identifier :=
  ⟨buttonRegistry_reachable, gallery_bindsView (List.mem_cons_of_mem _ List.mem_cons_self),
    by decide, by decide +kernel⟩

end Synthesizer
end AppDriver
