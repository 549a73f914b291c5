import AppDriver.Proofs.DeclaredArguments
import AppDriver.Proofs.Enrolment

/-! Component instances. Nothing that synthesis does after it has registered the components registers
another one. So the receiver that synthesis drives a component on is the instance that the registry
answers with at the end. -/

namespace AppDriver

open CallbackTarget (Later)

/-! ### Driven components -/

namespace Synthesizer

variable {y : Synthesizer} {handlers : List HandlerBinding} {components : List Component}
  {registry : Registry} (hr : registry.store.Sound) {findings : List Finding}

/-- The ordered sections never go back from the state in which the first one is begun. -/
theorem opening_later_ordered (y : Synthesizer) (handlers : List HandlerBinding)
    (components : List Component) (registry : Registry) (findings : List Finding) :
    Later (y.opening handlers components registry findings)
      (y.orderedPart handlers components registry findings).2 :=
  threadMap_rel Later.refl Later.trans (y.instances components registry)
    (fun d _ => y.kept_later.orderedSection handlers d) _

include hr in
/-- Once the driven components are registered, no other component is. -/
theorem registered_settles :
    (registry.registerComponents (y.driven components)).2.Settles
      (y.procedure components handlers registry findings).registry := by
  have hsound := (Registry.registerComponents_evolves hr (y.driven components)).sound
  have hviews := allocateViews_settles hsound
  have hsections := (y.opening_later_ordered handlers components registry findings).trans
    (y.kept_later.unorderedSection handlers (y.instances components registry) _)
  exact hviews.trans (hsections hviews.sound)

include hr in
/-- The receiver of a component's calls is its instance in the registry. -/
theorem component?_of_instance {d : Component × StandInRef}
    (hd : d ∈ y.instances components registry) :
    (y.procedure components handlers registry findings).registry.component? d.1.name =
      some d.2 := by
  have hanswers := Registry.registerComponents_answers hr (y.driven components)
  rw [(registered_settles hr).component?]
  exact (List.forall₂_iff_zip.1 hanswers).2 hd

include hr in
/-- If no component was registered before, the instances that are driven are new stand-ins of the
kinds of their components. -/
theorem origin_of_instance (hnone : registry.store.components = [])
    {d : Component × StandInRef} (hd : d ∈ y.instances components registry) :
    registry.store.arena.length ≤ d.2.index ∧
      (y.procedure components handlers registry findings).registry.store.originAt? d.2 =
        some (.component d.1.kind) := by
  have hdriven : d.1 ∈ y.driven components := (y.mem_driven_iff registry).2 ⟨d, hd, rfl⟩
  have hnew : registry.store.component? d.1.name = none := by
    rw [Store.component?, hnone]
    rfl
  have hfinal : (y.procedure components handlers registry findings).registry.component? d.1.name =
      some d.2 := component?_of_instance hr hd
  rw [(registered_settles hr).component?] at hfinal
  obtain ⟨c, hc, hname, hfresh, horigin⟩ :=
    (Registry.registerComponents_enrolls hr (y.driven components)).fresh hnew hfinal
  have hsame : c = d.1 := y.eq_of_mem_driven hc hdriven hname
  rw [hsame] at horigin
  exact ⟨hfresh, (registered_settles hr).grows.originAt? horigin⟩

end Synthesizer
end AppDriver
