import AppDriver.Java.Stubs
import AppDriver.Proofs.Exposures
import AppDriver.Proofs.ServiceAliases

/-! Handlers that layouts declare. The stubs class dispatches them from the steps whose origin is a
handler. A binding that reaches a component makes such a step unless a listener of the component,
registered on the same identifier, contributes the same method: then the step has the listener's
origin and the dispatcher leaves the handler out. -/

namespace AppDriver

/-! ### Which handlers keep a target of their own -/

namespace Component

variable {c : Component} {config : HandlerSection} {listeners : ListenerCatalog}
  {handlers : List HandlerBinding}

/-- Whether a listener that is registered on an identifier contributes a method. -/
def ListensFor (c : Component) (config : HandlerSection) (listeners : ListenerCatalog)
    (id : ResourceId) (m : Signature) : Prop :=
  ∃ l ∈ c.listeners, some id ∈ registrations l ∧
    ∃ m' ∈ contributed config listeners l, m'.same m = true

/-- A kept handler target is exposed by no listener, as the listeners come first. -/
theorem not_listensFor_of_kept {t : CallbackTarget}
    (ht : t ∈ c.callbackTargets config listeners handlers) (horigin : t.origin.isHandler = true)
    {id : ResourceId} (hview : t.view = some id) : ¬c.ListensFor config listeners id t.method := by
  rintro ⟨l, hl, hid, m, hm, hsame⟩
  have hown : ∃ u ∈ c.listeners.flatMap (c.listenerTargets config listeners),
      u.sameExposure t = true := by
    refine ⟨{ method := m, view := some id, origin := .listener l.interface (some id)
              bindings := l.bindings ++ c.bindings }, ?_, ?_⟩
    · apply List.mem_flatMap.2
      refine ⟨l, hl, List.mem_flatMap.2 ⟨m, hm, ?_⟩⟩
      exact List.mem_map.2 ⟨some id, hid, rfl⟩
    · exact CallbackTarget.sameExposure_iff.2 ⟨hsame, hview.symm⟩
  obtain ⟨first, hfirst⟩ := Option.isSome_iff_exists.1 (List.find?_isSome.2 hown)
  have hkept := mem_callbackTargets.1 ht
  rw [discovered, List.find?_append, List.find?_append, hfirst] at hkept
  obtain rfl := Option.some.inj hkept
  obtain ⟨l', -, hmem⟩ := List.mem_flatMap.1 (List.mem_of_find?_eq_some hfirst)
  obtain ⟨m', -, hmem⟩ := List.mem_flatMap.1 hmem
  obtain ⟨view, -, rfl⟩ := List.mem_map.1 hmem
  cases horigin

/-- A binding on an identifier that no listener exposes keeps a handler target. -/
theorem exists_handlerTarget {b : HandlerBinding} (hb : b ∈ handlers)
    (hreaches : b.reaches c config.policy = true)
    (hnot : ¬c.ListensFor config listeners b.identifier (c.handlerSignature b.method)) :
    ∃ t ∈ c.callbackTargets config listeners handlers, t.origin.isHandler = true ∧
      t.method.same (c.handlerSignature b.method) = true := by
  obtain ⟨t, ht, hmethod, hview⟩ := exists_target_of_reaches hb hreaches
  refine ⟨t, ht, ?_, hmethod⟩
  rcases discovered_cases (discovered_of_mem_callbackTargets ht) with
    ⟨l, hl, htarget, -⟩ | ⟨b', -, -, -, horigin, -⟩ | ⟨name, -, -, -, horigin, -⟩
  · obtain ⟨m, hm, hmem⟩ := List.mem_flatMap.1 htarget
    obtain ⟨view, hid, rfl⟩ := List.mem_map.1 hmem
    change view = some b.identifier at hview
    rw [hview] at hid
    exact (hnot ⟨l, hl, hid, m, hm, hmethod⟩).elim
  · rw [horigin]
    rfl
  · rw [horigin]
    rfl

/-- The handler of a binding that reaches a component keeps a handler target exactly if it is bound
on an identifier on which no listener contributes it. -/
theorem handlerTarget_iff {b : HandlerBinding} (hb : b ∈ handlers)
    (hreaches : b.reaches c config.policy = true) :
    (∃ t ∈ c.callbackTargets config listeners handlers, t.origin.isHandler = true ∧
        t.method.same (c.handlerSignature b.method) = true) ↔
      ∃ b' ∈ handlers, b'.reaches c config.policy = true ∧ b'.method = b.method ∧
        ¬c.ListensFor config listeners b'.identifier (c.handlerSignature b.method) := by
  constructor
  · rintro ⟨t, ht, hhandler, hsame⟩
    have hname := (Signature.same_iff.1 hsame).1
    rw [handlerSignature_name] at hname
    rcases discovered_cases (discovered_of_mem_callbackTargets ht) with
      ⟨l, -, -, view, horigin⟩ | ⟨b', hb', hreaches', hmethod, -, hview⟩ |
      ⟨name, -, hunbound, hmethod, -, -⟩
    · rw [horigin] at hhandler
      cases hhandler
    · have hsame' : b'.method = b.method := by
        rwa [hmethod, handlerSignature_name] at hname
      have hnot := not_listensFor_of_kept ht hhandler hview
      rw [hmethod, hsame'] at hnot
      exact ⟨b', hb', hreaches', hsame', hnot⟩
    · rw [hmethod, handlerSignature_name] at hname
      exact (hunbound b hb hreaches hname.symm).elim
  · rintro ⟨b', hb', hreaches', hsame, hnot⟩
    rw [← hsame] at hnot ⊢
    exact exists_handlerTarget hb' hreaches' hnot

end Component

/-! ### The text of the dispatcher -/

namespace Java

namespace Item

/-- The text of some lines, each ended by a line break. -/
def text (ls : List String) : String := String.join (ls.map (· ++ "\n"))

theorem bodyLines_append (level : Nat) (is js : List Item) :
    bodyLines level (is ++ js) = bodyLines level is ++ bodyLines level js := by
  induction is with
  | nil => rfl
  | cons i is ih => rw [List.cons_append, bodyLines, bodyLines, ih, List.append_assoc]

end Item

theorem render_classItems (qualified : String) (first others : List Item) (member : Item) :
    ∃ before after, Item.render (classItems qualified (first ++ member :: others)) =
      Item.text (before ++ Item.lines 1 member ++ after) := by
  let head := "public class " ++ (splitClass qualified).2
  have hlines : Item.bodyLines 0 (classItems qualified (first ++ member :: others)) =
      (Item.bodyLines 0 (packageItems qualified) ++ [Item.indented 0 (head ++ " \x7b")] ++
        Item.bodyLines 1 (.blank :: first)) ++ Item.lines 1 member ++
        (Item.bodyLines 1 others ++ [Item.indented 0 "\x7d"]) := by
    rw [classItems, Item.bodyLines_append, ← List.cons_append]
    simp only [Item.bodyLines, Item.lines, Item.bodyLines_append, List.append_assoc,
      List.append_nil, List.cons_append, List.nil_append, head]
  exact ⟨_, _, congrArg Item.text hlines⟩

/-- The members of the stubs class. -/
def stubsItems (p : Procedure) : List Item :=
  fieldDeclarations p ++ [.blank, .block "static" (fieldInitializers p)] ++ viewLookups p ++
    serviceLookup p ++ ComponentKind.all.flatMap (componentLookup p) ++ layoutHandlers p ++ choice

theorem stubs_render (e : EmitSection) (p : Procedure) :
    stubs e p = Item.render (classItems e.stubsClass (stubsItems p)) := rfl

/-- Whether a member stands in the text of the stubs class. -/
def Shows (e : EmitSection) (p : Procedure) (member : Item) : Prop :=
  ∃ before after, stubs e p = Item.text (before ++ Item.lines 1 member ++ after)

theorem shows_of_mem (e : EmitSection) {p : Procedure} {member : Item}
    (h : member ∈ stubsItems p) : Shows e p member := by
  obtain ⟨first, others, hsplit⟩ := List.append_of_mem h
  rw [Shows, stubs_render, hsplit]
  exact render_classItems _ _ _ _

/-- The calls that the dispatcher makes: the first one of each handler. -/
def layoutCalls (p : Procedure) : List CallStep :=
  firstCalls (p.orderedSteps.filter (·.origin.isHandler))

/-- The method that layouts call, with a statement for each of the calls. -/
def dispatcher (p : Procedure) : Item :=
  .block ("public static " ++
      "void callXMLRegisteredCallback(android.content.Context ctx, android.view.View v)")
    ((layoutCalls p).map (handlerDispatch p))

/-- The statement that dispatches a method on a component: through a cast of the context if the
component is one, and through the field of its instance otherwise. -/
def dispatchOn (p : Procedure) (c : Component) (m : Signature) (args : List ArgBinding) : Item :=
  let call := m.name ++ "(" ++ arguments (args.map (handlerArgument p)) ++ ")"
  if c.kind.assignableTypes.contains TypeName.context then
    .guarded ("if (ctx instanceof " ++ c.name.text ++ ") ((" ++ c.name.text ++ ") ctx)." ++ call ++
      ";")
  else
    .guarded (((p.registry.component? c.name).map p.registry.label).getD "" ++ "." ++ call ++ ";")

/-- The text of the stubs class has a dispatcher that dispatches a method on a component. -/
structure Dispatches (e : EmitSection) (p : Procedure) (c : Component) (m : Signature) : Prop where
  text : ∃ before after, stubs e p = Item.text (before ++ Item.lines 1 (dispatcher p) ++ after)
  call : ∃ x ∈ layoutCalls p, x.component = c.name ∧ x.method.same m = true ∧
    handlerDispatch p x = dispatchOn p c x.method x.args

theorem stubs_text (e : EmitSection) (p : Procedure) :
    ∃ before after, stubs e p = Item.text (before ++ Item.lines 1 (dispatcher p) ++ after) :=
  shows_of_mem e (by simp [stubsItems, layoutHandlers, method, dispatcher, layoutCalls])

/-! ### The first call of each callee -/

theorem map_firstCalls (steps : List CallStep) :
    (firstCalls steps).map (fun x => (x.component, x.method)) =
      Target.distinct (steps.map fun x => (x.component, x.method)) := by
  induction steps with
  | nil => rfl
  | cons x steps ih =>
      rw [firstCalls, List.map_cons, List.map_cons, Target.distinct, ← ih, List.filter_map]
      rfl

theorem mem_of_mem_firstCalls {steps : List CallStep} {x : CallStep} (hx : x ∈ firstCalls steps) :
    x ∈ steps := by
  induction steps with
  | nil => cases hx
  | cons first steps ih =>
      rcases List.mem_cons.1 hx with rfl | hx
      · exact List.mem_cons_self
      · exact List.mem_cons_of_mem _ (ih (List.mem_filter.1 hx).1)

theorem orderedSteps_subset (p : Procedure) : p.orderedSteps ⊆ p.steps := by
  intro x hx
  obtain ⟨s, hs, hmem⟩ := List.mem_flatMap.1 hx
  exact List.mem_flatMap.2 ⟨s, (List.mem_filter.1 hs).1, hmem⟩

theorem layoutCalls_subset (p : Procedure) : layoutCalls p ⊆ p.steps := fun _ hx =>
  orderedSteps_subset p (List.mem_filter.1 (mem_of_mem_firstCalls hx)).1

theorem exists_firstCall {steps : List CallStep} {x : CallStep} (hx : x ∈ steps) :
    ∃ x' ∈ firstCalls steps, x'.component = x.component ∧ x'.method.same x.method = true := by
  have hcallee : (x.component, x.method) ∈ steps.map fun x => (x.component, x.method) :=
    List.mem_map.2 ⟨x, hx, rfl⟩
  obtain ⟨u, hu, hsame⟩ := Target.exists_mem_distinct hcallee
  rw [← map_firstCalls] at hu
  obtain ⟨x', hx', rfl⟩ := List.mem_map.1 hu
  exact ⟨x', hx', Target.same_iff.1 hsame⟩

end Java

/-! ### The calls of the dispatcher -/

namespace Synthesizer

section Ordered

variable {y : Synthesizer} {handlers : List HandlerBinding} {components : List Component}
  {registry : Registry} (hr : registry.store.Sound) {findings : List Finding}

include hr in
theorem target_of_orderedStep {x : CallStep}
    (hx : x ∈ (y.procedure components handlers registry findings).orderedSteps) :
    ∃ d ∈ y.instances components registry, ∃ t ∈ y.scheduled handlers d.1,
      x.component = d.1.name ∧ x.receiver = d.2 ∧ x.method = t.method ∧ x.origin = t.origin := by
  obtain ⟨sec, hsec, hmem⟩ := List.mem_flatMap.1 hx
  obtain ⟨d, hd, hcalls⟩ := forall₂_left (ordered_calls hr).flip hsec
  have hcall := List.mem_map_of_mem (f := CallStep.call) hmem
  rw [hcalls] at hcall
  obtain ⟨t, ht, hcall⟩ := List.mem_flatMap.1 hcall
  obtain ⟨args, -, heq⟩ := List.mem_map.1 hcall
  exact ⟨d, hd, t, ht, (congrArg Call.component heq).symm, (congrArg Call.receiver heq).symm,
    (congrArg Call.method heq).symm, (congrArg Call.origin heq).symm⟩

include hr in
theorem orderedStep_of_target {d : Component × StandInRef}
    (hd : d ∈ y.instances components registry) {t : CallbackTarget}
    (ht : t ∈ y.scheduled handlers d.1) :
    ∃ x ∈ (y.procedure components handlers registry findings).orderedSteps,
      x.component = d.1.name ∧ x.method = t.method ∧ x.origin = t.origin := by
  obtain ⟨args, rest, htuples⟩ := List.exists_cons_of_ne_nil
    (t.tuples_ne_nil y.config.fabrication.maxArgumentFanout
      { registry := (y.procedure components handlers registry findings).registry })
  have hcall : ⟨d.1.name, d.2, t.method, args, t.origin⟩ ∈
      y.exposure (y.procedure components handlers registry findings).registry d t := by
    rw [exposure, htuples]
    exact List.mem_cons_self
  obtain ⟨x, hx, heq⟩ := exists_orderedStep (ordered_calls hr) hd ht hcall
  exact ⟨x, hx, congrArg Call.component heq, congrArg Call.method heq, congrArg Call.origin heq⟩

end Ordered

variable {y : Synthesizer} {d : Facts}

/-- A call of the dispatcher on a component is dispatched as the kind of the component asks for. -/
theorem handlerDispatch_eq {i : Component × StandInRef}
    (hi : i ∈ y.instances d.components (y.servicesRegistry d)) {x : CallStep}
    (hcomponent : x.component = i.1.name) (hreceiver : x.receiver = i.2) :
    Java.handlerDispatch (y.synthesizeFacts d) x =
      Java.dispatchOn (y.synthesizeFacts d) i.1 x.method x.args := by
  have hshares := y.servicesRegistry_shares d
  have hinstance : (y.synthesizeFacts d).registry.component? i.1.name = some i.2 :=
    component?_of_instance hshares.sound hi
  have horigin : (y.servicesRegistry d).store.arena.length ≤ i.2.index ∧
      (y.synthesizeFacts d).registry.store.originAt? i.2 = some (.component i.1.kind) :=
    origin_of_instance hshares.sound hshares.components hi
  obtain ⟨s, hs, hkind⟩ := Option.map_eq_some_iff.1 horigin.2
  have hget : (y.synthesizeFacts d).registry.get? i.2 = some s := hs
  have hcontext : ((y.synthesizeFacts d).registry.get? i.2).any Java.isContext =
      i.1.kind.assignableTypes.contains TypeName.context := by
    rw [hget, Option.any_some, Java.isContext, hkind]
  rw [Java.handlerDispatch, Java.dispatchOn, hreceiver, hcontext, hcomponent, hinstance]
  rfl

/-- The dispatcher dispatches a method on a component exactly if a handler target of the component is
for this method. -/
theorem dispatches_iff (e : EmitSection) {c : Component} (hc : c ∈ y.driven d.components)
    (m : Signature) :
    Java.Dispatches e (y.synthesizeFacts d) c m ↔
      ∃ t ∈ y.callbacks d.handlers c, t.origin.isHandler = true ∧ t.method.same m = true := by
  have hsound := (y.servicesRegistry_shares d).sound
  have htarget : ∀ x ∈ Java.layoutCalls (y.synthesizeFacts d),
      ∃ i ∈ y.instances d.components (y.servicesRegistry d), ∃ t ∈ y.scheduled d.handlers i.1,
        x.component = i.1.name ∧ x.receiver = i.2 ∧ x.method = t.method ∧
          t.origin.isHandler = true := by
    intro x hx
    obtain ⟨hordered, hhandler⟩ := List.mem_filter.1 (Java.mem_of_mem_firstCalls hx)
    obtain ⟨i, hi, t, ht, hcomponent, hreceiver, hmethod, horigin⟩ :=
      target_of_orderedStep hsound hordered
    exact ⟨i, hi, t, ht, hcomponent, hreceiver, hmethod, horigin ▸ hhandler⟩
  have hunique : ∀ i ∈ y.instances d.components (y.servicesRegistry d),
      c.name = i.1.name → i.1 = c := by
    intro i hi hname
    have hdriven : i.1 ∈ y.driven d.components := (y.mem_driven_iff _).2 ⟨i, hi, rfl⟩
    exact y.eq_of_mem_driven hdriven hc hname.symm
  constructor
  · rintro ⟨-, x, hx, hname, hsame, -⟩
    obtain ⟨i, hi, t, ht, hcomponent, -, hmethod, hhandler⟩ := htarget x hx
    obtain rfl := hunique i hi (hname.symm.trans hcomponent)
    rcases Component.mem_schedule.1 ht with ⟨o, -, rfl⟩ | hcallback
    · cases hhandler
    · exact ⟨t, hcallback, hhandler, hmethod ▸ hsame⟩
  · rintro ⟨t, ht, hhandler, hsame⟩
    obtain ⟨i, hi, rfl⟩ := (y.mem_driven_iff (y.servicesRegistry d)).1 hc
    have hscheduled : t ∈ y.scheduled d.handlers i.1 := Component.mem_schedule.2 (Or.inr ht)
    obtain ⟨x, hx, hname, hmethod, horigin⟩ := orderedStep_of_target hsound hi hscheduled
    have hlayout : x ∈ (y.synthesizeFacts d).orderedSteps.filter (·.origin.isHandler) :=
      List.mem_filter.2 ⟨hx, horigin ▸ hhandler⟩
    obtain ⟨x', hx', hname', hsame'⟩ := Java.exists_firstCall hlayout
    obtain ⟨j, hj, -, -, hcomponent, hreceiver, -, -⟩ := htarget x' hx'
    have hcallee : j.1 = i.1 := hunique j hj ((hname'.trans hname).symm.trans hcomponent)
    have hdispatch := handlerDispatch_eq hj hcomponent hreceiver
    rw [hcallee] at hdispatch
    have hmethod' : x'.method.same m = true := Signature.same_trans hsame' (hmethod ▸ hsame)
    exact ⟨Java.stubs_text e _, x', hx', hname'.trans hname, hmethod', hdispatch⟩

/-- **Layout handlers.** The handler of a binding that reaches a component is dispatched on it exactly
if some binding of the handler that reaches the component is on an identifier for which no listener
of the component contributes the handler's method. -/
theorem handler_dispatched_iff (y : Synthesizer) (d : Facts) (e : EmitSection) {c : Component}
    (hc : d.components.find? (·.name == c.name) = some c) {b : HandlerBinding}
    (hb : b ∈ d.handlers) (hreaches : b.reaches c y.config.handlers.policy = true) :
    Java.Dispatches e (y.synthesizeFacts d) c (c.handlerSignature b.method) ↔
      ∃ b' ∈ d.handlers, b'.reaches c y.config.handlers.policy = true ∧ b'.method = b.method ∧
        ¬c.ListensFor y.config.handlers y.listeners b'.identifier (c.handlerSignature b.method) := by
  rw [dispatches_iff e (y.mem_driven.2 hc)]
  exact Component.handlerTarget_iff hb hreaches

/-- A layout that names a handler for clicks on a button. -/
def clickBinding : HandlerBinding :=
  { component := some ⟨"app.Main"⟩, method := "onClick", identifier := 5 }

def button : IdentifierBinding :=
  { id := 5, declaredType := ⟨"android.widget.Button"⟩, name := "ok" }

/-- An activity that handles the clicks. -/
def handlingActivity : Component :=
  { name := ⟨"app.Main"⟩, kind := .activity
    methods := [{ name := "onClick", params := [TypeName.view] }] }

def handlingFacts : Facts :=
  { components := [handlingActivity], identifiers := [button], handlers := [clickBinding] }

/-- The clicks that the activity handles are dispatched on it. -/
theorem click_dispatched :
    clickBinding ∈ handlingFacts.handlers ∧
      Java.Dispatches .standard (synthesizeFacts {} handlingFacts) handlingActivity
        (handlingActivity.handlerSignature "onClick") := by
  have hc : handlingFacts.components.find? (·.name == handlingActivity.name) =
      some handlingActivity := by decide +kernel
  have hb : clickBinding ∈ handlingFacts.handlers := List.mem_singleton.2 rfl
  have hreaches : clickBinding.reaches handlingActivity
      (Synthesizer.config {}).handlers.policy = true := by decide +kernel
  have hnot : ¬handlingActivity.ListensFor (Synthesizer.config {}).handlers
      (Synthesizer.listeners {}) 5 (handlingActivity.handlerSignature "onClick") := by
    rintro ⟨l, hl, -⟩
    cases hl
  exact ⟨hb, (handler_dispatched_iff {} handlingFacts .standard hc hb hreaches).2
    ⟨clickBinding, hb, hreaches, rfl, hnot⟩⟩

/-- The same activity as the listener that it registers on the button. -/
def listeningActivity : Component :=
  { name := ⟨"app.Main"⟩, kind := .activity
    listeners := [{ interface := ⟨"android.view.View.OnClickListener"⟩
                    methods := [{ name := "onClick", params := [TypeName.view] }]
                    registeredOn := [5] }] }

def listeningFacts : Facts :=
  { components := [listeningActivity], identifiers := [button], handlers := [clickBinding] }

/-- The clicks that the activity listens to are not dispatched from the layout that names their
handler: the dispatcher is empty. -/
theorem click_not_dispatched :
    listeningFacts.components.find? (·.name == listeningActivity.name) = some listeningActivity ∧
      clickBinding ∈ listeningFacts.handlers ∧
      clickBinding.reaches listeningActivity (Synthesizer.config {}).handlers.policy = true ∧
      ¬Java.Dispatches .standard (synthesizeFacts {} listeningFacts) listeningActivity
        (listeningActivity.handlerSignature "onClick") := by
  have hnone : Java.layoutCalls (synthesizeFacts {} listeningFacts) = [] := by decide +kernel
  refine ⟨by decide +kernel, List.mem_singleton.2 rfl, by decide +kernel, ?_⟩
  rintro ⟨-, x, hx, -⟩
  rw [hnone] at hx
  cases hx

end Synthesizer
end AppDriver
