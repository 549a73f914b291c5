import AppDriver.Proofs.CallBlocks
import AppDriver.Proofs.PlacementOrder
import AppDriver.Proofs.TargetDiscovery

/-! Coverage: the callees of a synthesized procedure are exactly the methods that the declarations
expose. Nothing is lost on the way through discovery, placement and argument synthesis, and nothing
is called that is not declared. -/

namespace AppDriver

namespace Component

/-- The methods of a component that the declarations expose: its lifecycle overrides, the methods of
its listeners, explicit or known to the catalog, and the handlers that are bound to it or listed. -/
inductive Exposes (c : Component) (config : HandlerSection) (listeners : ListenerCatalog)
    (handlers : List HandlerBinding) : Signature → Prop
  | override {m} (hm : m ∈ c.lifecycle) : Exposes c config listeners handlers m
  | explicit {l m} (hl : l ∈ c.listeners) (hm : m ∈ l.methods) :
      Exposes c config listeners handlers m
  | known {l m} (hl : l ∈ c.listeners) (hnone : l.methods = [])
      (hexpand : config.expandListenerCatalog = true) (hm : m ∈ listeners.methodsOf l.interface) :
      Exposes c config listeners handlers m
  | bound {b} (hb : b ∈ handlers) (hreaches : b.reaches c config.policy = true) :
      Exposes c config listeners handlers (c.handlerSignature b.method)
  | listed {name} (hname : name ∈ c.handlers) :
      Exposes c config listeners handlers (c.handlerSignature name)

variable {c : Component} {config : HandlerSection} {listeners : ListenerCatalog}
  {handlers : List HandlerBinding}

theorem mem_contributed {l : ListenerImpl} {m : Signature} :
    m ∈ contributed config listeners l ↔ m ∈ l.methods ∨
      l.methods = [] ∧ config.expandListenerCatalog = true ∧
        m ∈ listeners.methodsOf l.interface := by
  unfold contributed
  split
  · rename_i h
    obtain ⟨hnone, hexpand⟩ := Bool.and_eq_true_iff.1 h
    simp [List.isEmpty_iff.1 hnone, hexpand]
  · rename_i h
    refine ⟨Or.inl, fun hm => hm.resolve_right fun hcatalog => h ?_⟩
    simp [hcatalog.1, hcatalog.2.1]

/-- A listener is registered on one view at least, or on none. -/
theorem registrations_ne_nil (l : ListenerImpl) : registrations l ≠ [] := by
  unfold registrations
  split
  · exact List.cons_ne_nil _ _
  · rename_i h
    simpa using h

theorem exists_listenerTarget {l : ListenerImpl} {m : Signature} :
    (∃ t ∈ c.listenerTargets config listeners l, t.method = m) ↔
      m ∈ contributed config listeners l := by
  constructor
  · rintro ⟨t, ht, rfl⟩
    obtain ⟨m, hm, ht⟩ := List.mem_flatMap.1 ht
    obtain ⟨view, -, rfl⟩ := List.mem_map.1 ht
    exact hm
  · intro hm
    obtain ⟨view, rest, hviews⟩ := List.exists_cons_of_ne_nil (registrations_ne_nil l)
    refine ⟨_, List.mem_flatMap.2 ⟨m, hm, List.mem_map.2 ⟨view, ?_, rfl⟩⟩, rfl⟩
    rw [hviews]
    exact List.mem_cons_self

/-- The discovered targets are for the exposed methods that are no overrides. A listed handler that
a binding reaches is not discovered as listed, but it is discovered as bound. -/
theorem exists_discovered {m : Signature} :
    (∃ t ∈ c.discovered config listeners handlers, t.method = m) ↔
      (∃ l ∈ c.listeners, m ∈ contributed config listeners l) ∨
      (∃ b ∈ handlers, b.reaches c config.policy = true ∧ c.handlerSignature b.method = m) ∨
      ∃ name ∈ c.handlers, c.handlerSignature name = m := by
  constructor
  · rintro ⟨t, ht, rfl⟩
    rcases List.mem_append.1 ht with ht | ht
    · rcases List.mem_append.1 ht with ht | ht
      · obtain ⟨l, hl, ht⟩ := List.mem_flatMap.1 ht
        exact Or.inl ⟨l, hl, exists_listenerTarget.1 ⟨t, ht, rfl⟩⟩
      · obtain ⟨b, hb, rfl⟩ := List.mem_map.1 ht
        obtain ⟨hb, hreaches⟩ := List.mem_filter.1 hb
        exact Or.inr (Or.inl ⟨b, hb, hreaches, rfl⟩)
    · obtain ⟨name, hname, rfl⟩ := List.mem_map.1 ht
      exact Or.inr (Or.inr ⟨name, (List.mem_filter.1 hname).1, rfl⟩)
  · have hbound : ∀ b ∈ handlers, b.reaches c config.policy = true →
        ∃ t ∈ c.discovered config listeners handlers, t.method = c.handlerSignature b.method :=
      fun b hb hreaches => ⟨_, List.mem_append_left _ (List.mem_append_right _
        (List.mem_map.2 ⟨b, List.mem_filter.2 ⟨hb, hreaches⟩, rfl⟩)), rfl⟩
    rintro (⟨l, hl, hm⟩ | ⟨b, hb, hreaches, rfl⟩ | ⟨name, hname, rfl⟩)
    · obtain ⟨t, ht, rfl⟩ := exists_listenerTarget.2 hm
      exact ⟨t, List.mem_append_left _ (List.mem_append_left _
        (List.mem_flatMap.2 ⟨l, hl, ht⟩)), rfl⟩
    · exact hbound b hb hreaches
    · by_cases h : name ∈ (handlers.filter (·.reaches c config.policy)).map (·.method)
      · obtain ⟨b, hb, rfl⟩ := List.mem_map.1 h
        obtain ⟨hb, hreaches⟩ := List.mem_filter.1 hb
        exact hbound b hb hreaches
      · exact ⟨_, List.mem_append_right _ (List.mem_map.2 ⟨name,
          List.mem_filter.2 ⟨hname, by simpa using h⟩, rfl⟩), rfl⟩

end Component

/-! ### The components that are driven -/

/-- Of the components with one name the first is accepted. -/
theorem mem_acceptComponents {seen : List TypeName} {components : List Component} {c : Component} :
    c ∈ (acceptComponents seen components).1 ↔
      c.name ∉ seen ∧ components.find? (·.name == c.name) = some c := by
  induction components generalizing seen with
  | nil => simp [acceptComponents]
  | cons a components ih =>
      rw [acceptComponents, List.find?_cons]
      by_cases hac : a.name = c.name
      · simp only [hac, beq_self_eq_true, Option.some.injEq]
        split
        · rename_i hseen
          rw [ih]
          simp_all
        · rename_i hseen
          rw [List.mem_cons, ih]
          simp_all [eq_comm]
      · have hbeq : (a.name == c.name) = false := by simpa using hac
        have hne : c ≠ a := fun h => hac (by rw [h])
        simp only [hbeq]
        split
        · exact ih
        · rw [List.mem_cons, ih]
          simp [hne, Ne.symm hac]

namespace Synthesizer

variable (y : Synthesizer)

theorem mem_driven {components : List Component} {c : Component} :
    c ∈ y.driven components ↔ components.find? (·.name == c.name) = some c := by
  have hperm : (y.driven components).Perm (acceptComponents [] components).1 := by
    unfold driven driveOrder
    split
    · exact .refl _
    · exact sorted_perm _ _
  rw [hperm.mem_iff, mem_acceptComponents]
  simp

/-- Of the driven components only one has a name. -/
theorem eq_of_mem_driven {components : List Component} {c c' : Component}
    (hc : c ∈ y.driven components) (hc' : c' ∈ y.driven components) (hname : c.name = c'.name) :
    c = c' := by
  have hfirst := y.mem_driven.1 hc
  rw [hname, y.mem_driven.1 hc'] at hfirst
  exact (Option.some.inj hfirst).symm

end Synthesizer

/-! ### Callees -/

namespace Target

theorem same_iff {a b : Target} : a.same b = true ↔ a.1 = b.1 ∧ a.2.same b.2 = true := by
  simp [same]

theorem same_refl (t : Target) : t.same t = true := same_iff.2 ⟨rfl, t.2.same_refl⟩

theorem same_comm (a b : Target) : a.same b = b.same a := by
  rw [Bool.eq_iff_iff, same_iff, same_iff, Signature.same_comm, eq_comm]

theorem mem_of_mem_distinct {ts : List Target} {t : Target} (ht : t ∈ distinct ts) : t ∈ ts := by
  induction ts with
  | nil => cases ht
  | cons a ts ih =>
      rcases List.mem_cons.1 ht with rfl | ht
      · exact List.mem_cons_self
      · exact List.mem_cons_of_mem _ (ih (List.mem_filter.1 ht).1)

theorem exists_mem_distinct {ts : List Target} {t : Target} (ht : t ∈ ts) :
    ∃ u ∈ distinct ts, u.same t = true := by
  induction ts with
  | nil => cases ht
  | cons a ts ih =>
      by_cases hat : a.same t = true
      · exact ⟨a, List.mem_cons_self, hat⟩
      · have hmem : t ∈ ts := (List.mem_cons.1 ht).resolve_left fun h => by
          rw [h] at hat
          exact hat a.same_refl
        obtain ⟨u, hu, hut⟩ := ih hmem
        by_cases hau : a.same u = true
        · obtain ⟨hname, hmethod⟩ := same_iff.1 hau
          obtain ⟨hname', hmethod'⟩ := same_iff.1 hut
          exact absurd (same_iff.2 ⟨hname.trans hname', Signature.same_trans hmethod hmethod'⟩) hat
        · refine ⟨u, List.mem_cons_of_mem _ (List.mem_filter.2 ⟨hu, ?_⟩), hut⟩
          simpa using hau

theorem distinct_pairwise (ts : List Target) :
    (distinct ts).Pairwise fun a b => a.same b = false := by
  induction ts with
  | nil => exact .nil
  | cons a ts ih =>
      refine .cons (fun b hb => ?_) (ih.filter _)
      simpa using (List.mem_filter.1 hb).2

end Target

namespace Procedure

variable (p : Procedure)

theorem callTargets_perm :
    p.callTargets.Perm (Target.distinct (p.steps.map fun x => (x.component, x.method))) :=
  sorted_perm _ _

theorem callTargets_pairwise : p.callTargets.Pairwise fun a b => a.same b = false :=
  p.callTargets_perm.symm.pairwise (Target.distinct_pairwise _) fun hab => by
    rwa [Target.same_comm]

variable {p}

/-- The callees of a procedure are the callees of its steps. -/
theorem exists_callTarget {t : Target} :
    (∃ u ∈ p.callTargets, u.same t = true) ↔
      ∃ x ∈ p.steps, x.component = t.1 ∧ x.method.same t.2 = true := by
  constructor
  · rintro ⟨u, hu, hut⟩
    obtain ⟨x, hx, rfl⟩ := List.mem_map.1 (Target.mem_of_mem_distinct (p.callTargets_perm.mem_iff.1 hu))
    exact ⟨x, hx, Target.same_iff.1 hut⟩
  · rintro ⟨x, hx, hname, hmethod⟩
    obtain ⟨u, hu, hux⟩ := Target.exists_mem_distinct (List.mem_map.2 ⟨x, hx, rfl⟩)
    obtain ⟨hname', hmethod'⟩ := Target.same_iff.1 hux
    exact ⟨u, p.callTargets_perm.mem_iff.2 hu,
      Target.same_iff.2 ⟨hname'.trans hname, Signature.same_trans hmethod' hmethod⟩⟩

end Procedure

namespace Synthesizer

variable {y : Synthesizer} {handlers : List HandlerBinding}

/-- The scheduled targets of a component are for the methods that its declarations expose. -/
theorem exists_scheduled {c : Component} {m : Signature} :
    (∃ t ∈ y.scheduled handlers c, t.method.same m = true) ↔
      ∃ m', c.Exposes y.config.handlers y.listeners handlers m' ∧ m'.same m = true := by
  constructor
  · rintro ⟨t, ht, hsame⟩
    refine ⟨t.method, ?_, hsame⟩
    rcases Component.mem_schedule.1 ht with ⟨p, hp, rfl⟩ | ht
    · have hperm := Protocol.map_method_place (y.config.protocols.get c.kind) c.lifecycle
      exact .override (hperm.mem_iff.1 (List.mem_map.2 ⟨p, hp, rfl⟩))
    · rcases Component.exists_discovered.1
        ⟨t, Component.discovered_of_mem_callbackTargets ht, rfl⟩ with
        ⟨l, hl, hm⟩ | ⟨b, hb, hreaches, hm⟩ | ⟨name, hname, hm⟩
      · rcases Component.mem_contributed.1 hm with hm | ⟨hnone, hexpand, hm⟩
        · exact .explicit hl hm
        · exact .known hl hnone hexpand hm
      · exact hm ▸ .bound hb hreaches
      · exact hm ▸ .listed hname
  · rintro ⟨m', hm', hsame⟩
    have hcallback : (∃ t ∈ c.discovered y.config.handlers y.listeners handlers, t.method = m') →
        ∃ t ∈ y.scheduled handlers c, t.method.same m = true := by
      rintro ⟨t, ht, rfl⟩
      obtain ⟨u, hu, hut⟩ := Component.exists_callbackTarget ht
      exact ⟨u, Component.mem_schedule.2 (Or.inr hu),
        Signature.same_trans (CallbackTarget.sameExposure_iff.1 hut).1 hsame⟩
    cases hm' with
    | override hm =>
        have hperm := Protocol.map_method_place (y.config.protocols.get c.kind) c.lifecycle
        obtain ⟨p, hp, rfl⟩ := List.mem_map.1 (hperm.mem_iff.2 hm)
        exact ⟨_, Component.mem_schedule.2 (Or.inl ⟨p, hp, rfl⟩), hsame⟩
    | explicit hl hm =>
        exact hcallback (Component.exists_discovered.2
          (Or.inl ⟨_, hl, Component.mem_contributed.2 (Or.inl hm)⟩))
    | known hl hnone hexpand hm =>
        exact hcallback (Component.exists_discovered.2
          (Or.inl ⟨_, hl, Component.mem_contributed.2 (Or.inr ⟨hnone, hexpand, hm⟩)⟩))
    | bound hb hreaches =>
        exact hcallback (Component.exists_discovered.2 (Or.inr (Or.inl ⟨_, hb, hreaches, rfl⟩)))
    | listed hname =>
        exact hcallback (Component.exists_discovered.2 (Or.inr (Or.inr ⟨_, hname, rfl⟩)))

/-- The steps of a procedure call the methods of the scheduled targets of the driven components. -/
theorem exists_step {components : List Component} {registry : Registry}
    {findings : List Finding} {n : TypeName} {m : Signature} :
    (∃ x ∈ (y.procedure components handlers registry findings).steps,
        x.component = n ∧ x.method.same m = true) ↔
      ∃ c ∈ y.driven components, c.name = n ∧
        ∃ t ∈ y.scheduled handlers c, t.method.same m = true := by
  rw [← y.map_fst_instances components registry]
  constructor
  · rintro ⟨x, hx, rfl, hm⟩
    obtain ⟨d, hd, t, ht, block, hmade, hxblock⟩ :=
      mem_steps handlers y.kept_true components registry findings hx
    have hblock := hmade.block
    refine ⟨d.1, List.mem_map.2 ⟨d, hd, rfl⟩, (hblock.component x hxblock).symm, t, ht, ?_⟩
    rwa [← hblock.method x hxblock]
  · rintro ⟨c, hc, rfl, t, ht, hm⟩
    obtain ⟨d, hd, rfl⟩ := List.mem_map.1 hc
    obtain ⟨block, hmade, hsub⟩ :=
      block_subset_steps handlers y.kept_true components registry findings hd ht
    have hblock := hmade.block
    obtain ⟨x, rest, rfl⟩ := List.exists_cons_of_ne_nil hblock.nonempty
    refine ⟨x, hsub List.mem_cons_self, hblock.component x List.mem_cons_self, ?_⟩
    rwa [hblock.method x List.mem_cons_self]

/-- Exact coverage, over any registry and for any configuration: the callees of the procedure are,
each once, the methods that the declarations of the driven components expose. -/
theorem callTargets_eq_exposed (y : Synthesizer) (components : List Component)
    (handlers : List HandlerBinding) (registry : Registry) :
    (y.synthesize components handlers registry).callTargets.Pairwise
        (fun t u => t.same u = false) ∧
      ∀ n m, (∃ u ∈ (y.synthesize components handlers registry).callTargets,
          u.same (n, m) = true) ↔
        ∃ c, components.find? (·.name == n) = some c ∧
          ∃ m', c.Exposes y.config.handlers y.listeners handlers m' ∧ m'.same m = true := by
  refine ⟨Procedure.callTargets_pairwise _, fun n m => ?_⟩
  rw [Procedure.exists_callTarget, synthesize, exists_step]
  constructor
  · rintro ⟨c, hc, rfl, hexposed⟩
    exact ⟨c, y.mem_driven.1 hc, exists_scheduled.1 hexposed⟩
  · rintro ⟨c, hc, hexposed⟩
    have hname : c.name = n := by simpa using List.find?_some hc
    rw [← hname] at hc
    exact ⟨c, y.mem_driven.2 hc, hname, exists_scheduled.2 hexposed⟩

end Synthesizer
end AppDriver
