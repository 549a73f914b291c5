import AppDriver.Driver.Discovery
import Mathlib.Data.List.Basic

/-! What discovery keeps: of the targets that a component's listeners, handler bindings and listed
handlers give rise to, the first one for each method and view. -/

namespace AppDriver

namespace CallbackTarget

theorem sameExposure_iff {a b : CallbackTarget} :
    a.sameExposure b = true ↔ a.method.same b.method = true ∧ a.view = b.view := by
  simp [sameExposure]

theorem sameExposure_refl (t : CallbackTarget) : t.sameExposure t = true :=
  sameExposure_iff.2 ⟨t.method.same_refl, rfl⟩

/-- A target that is exposed like another is exposed like whatever the other is. -/
theorem sameExposure_congr {a b : CallbackTarget} (h : a.sameExposure b = true)
    (u : CallbackTarget) : u.sameExposure a = u.sameExposure b := by
  obtain ⟨hmethod, hview⟩ := sameExposure_iff.1 h
  have hback : b.method.same a.method = true := by rwa [Signature.same_comm]
  rw [Bool.eq_iff_iff, sameExposure_iff, sameExposure_iff, hview]
  exact and_congr_left fun _ => ⟨(Signature.same_trans · hmethod), (Signature.same_trans · hback)⟩

end CallbackTarget

namespace Component

theorem addTarget_of_exposed {kept : List CallbackTarget} {u t : CallbackTarget} (hu : u ∈ kept)
    (h : u.sameExposure t = true) : addTarget kept t = kept :=
  if_pos (List.any_eq_true.2 ⟨u, hu, h⟩)

theorem addTarget_of_new {kept : List CallbackTarget} {t : CallbackTarget}
    (h : ∀ u ∈ kept, u.sameExposure t = false) : addTarget kept t = kept ++ [t] := by
  refine if_neg fun hany => ?_
  obtain ⟨u, hu, hsame⟩ := List.any_eq_true.1 hany
  exact Bool.false_ne_true ((h u hu).symm.trans hsame)

/-- Adding targets one by one keeps those that are there and, of the others, the first of each
exposure that is not there yet. -/
theorem mem_foldl_addTarget {kept ts : List CallbackTarget} {t : CallbackTarget} :
    t ∈ ts.foldl addTarget kept ↔ t ∈ kept ∨
      (∀ u ∈ kept, u.sameExposure t = false) ∧ ts.find? (·.sameExposure t) = some t := by
  induction ts generalizing kept with
  | nil => simp
  | cons a ts ih =>
      rw [List.foldl_cons, ih, List.find?_cons]
      by_cases hold : ∃ u ∈ kept, u.sameExposure a = true
      · obtain ⟨u, hu, hua⟩ := hold
        rw [addTarget_of_exposed hu hua]
        cases hat : a.sameExposure t with
        | false => rfl
        | true =>
            have hut : u.sameExposure t = true := by
              rwa [← CallbackTarget.sameExposure_congr hat]
            have hnew : ¬∀ u ∈ kept, u.sameExposure t = false := fun h => by
              rw [h u hu] at hut
              cases hut
            simp only [hnew, false_and]
      · have hnew : ∀ u ∈ kept, u.sameExposure a = false := fun u hu =>
          Bool.eq_false_iff.2 fun hua => hold ⟨u, hu, hua⟩
        rw [addTarget_of_new hnew]
        cases hat : a.sameExposure t with
        | false =>
            have hne : t ≠ a := fun h => by
              rw [h, CallbackTarget.sameExposure_refl] at hat
              cases hat
            simp only [List.mem_append, List.mem_singleton, hne, or_false, or_imp, forall_and,
              forall_eq, hat, and_true]
        | true =>
            have hkept : ∀ u ∈ kept, u.sameExposure t = false := fun u hu => by
              rw [← CallbackTarget.sameExposure_congr hat]
              exact hnew u hu
            simp only [List.mem_append, List.mem_singleton, or_imp, forall_and, forall_eq, hat,
              Bool.true_eq_false, and_false, false_and, or_false, Option.some.injEq,
              eq_comm (a := a)]
            exact or_congr_right (and_iff_right hkept).symm

/-- Adding targets one by one never exposes anything twice. -/
theorem foldl_addTarget_pairwise {kept : List CallbackTarget}
    (h : kept.Pairwise fun a b => a.sameExposure b = false) (ts : List CallbackTarget) :
    (ts.foldl addTarget kept).Pairwise fun a b => a.sameExposure b = false := by
  induction ts generalizing kept with
  | nil => exact h
  | cons t ts ih =>
      apply ih
      by_cases hold : ∃ u ∈ kept, u.sameExposure t = true
      · obtain ⟨u, hu, hut⟩ := hold
        rw [addTarget_of_exposed hu hut]
        exact h
      · have hnew : ∀ u ∈ kept, u.sameExposure t = false := by
          intro u hu
          apply Bool.eq_false_iff.2
          intro hut
          exact hold ⟨u, hu, hut⟩
        rw [addTarget_of_new hnew]
        refine List.pairwise_append.2 ⟨h, List.pairwise_singleton _ _, ?_⟩
        intro u hu v hv
        rw [List.mem_singleton.1 hv]
        exact hnew u hu

variable (c : Component) (config : HandlerSection) (listeners : ListenerCatalog)
  (handlers : List HandlerBinding)

/-- All targets that a component gives rise to, in order and with duplicates. -/
def discovered : List CallbackTarget :=
  c.listeners.flatMap (c.listenerTargets config listeners) ++ c.bindingTargets config handlers ++
    c.listedTargets config handlers

variable {c config listeners handlers}

/-- What holds of the first declared method of a name, if there is one, and of the method of this
name that takes a view, holds of the handler's signature. -/
theorem handlerSignature_of_declared {P : Signature → Prop} {c : Component} {name : String}
    (hdeclared : ∀ m ∈ (c.methodsNamed name).head?, P m)
    (hdefault : P { name, params := [TypeName.view] }) : P (c.handlerSignature name) := by
  rw [handlerSignature]
  cases hfirst : (c.methodsNamed name).head? with
  | none => exact hdefault
  | some m => exact hdeclared m hfirst

theorem handlerSignature_name (c : Component) (name : String) :
    (c.handlerSignature name).name = name := by
  refine handlerSignature_of_declared (P := fun m => m.name = name) (fun m hm => ?_) rfl
  have hnamed := (List.mem_filter.1 (List.mem_of_head? hm)).2
  exact beq_iff_eq.1 hnamed

/-- A discovered target is that of a listener's method on one of its views, that of a handler binding
that reaches the component, or that of a listed handler that no such binding names. -/
theorem discovered_cases {t : CallbackTarget} (ht : t ∈ c.discovered config listeners handlers) :
    (∃ l ∈ c.listeners, t ∈ c.listenerTargets config listeners l ∧
      ∃ view, t.origin = .listener l.interface view) ∨
    (∃ b ∈ handlers, b.reaches c config.policy = true ∧ t.method = c.handlerSignature b.method ∧
      t.origin = .handler (some b.identifier) ∧ t.view = some b.identifier) ∨
    ∃ name ∈ c.handlers, (∀ b ∈ handlers, b.reaches c config.policy = true → b.method ≠ name) ∧
      t.method = c.handlerSignature name ∧ t.origin = .handler none ∧ t.view = none := by
  rcases List.mem_append.1 ht with ht | ht
  · rcases List.mem_append.1 ht with ht | ht
    · obtain ⟨l, hl, ht⟩ := List.mem_flatMap.1 ht
      obtain ⟨m, hm, hmem⟩ := List.mem_flatMap.1 ht
      obtain ⟨view, hview, rfl⟩ := List.mem_map.1 hmem
      exact Or.inl ⟨l, hl, ht, view, rfl⟩
    · obtain ⟨b, hb, rfl⟩ := List.mem_map.1 ht
      obtain ⟨hb, hreaches⟩ := List.mem_filter.1 hb
      exact Or.inr (Or.inl ⟨b, hb, hreaches, rfl, rfl, rfl⟩)
  · obtain ⟨name, hname, rfl⟩ := List.mem_map.1 ht
    obtain ⟨hname, hunbound⟩ := List.mem_filter.1 hname
    refine Or.inr (Or.inr ⟨name, hname, ?_, rfl, rfl, rfl⟩)
    rintro b hb hreaches rfl
    have hbound : b.method ∈ (handlers.filter (·.reaches c config.policy)).map (·.method) :=
      List.mem_map_of_mem (List.mem_filter.2 ⟨hb, hreaches⟩)
    simp [hbound] at hunbound

/-- The callback targets are the discovered ones that are the first for their method and view. -/
theorem mem_callbackTargets {t : CallbackTarget} :
    t ∈ c.callbackTargets config listeners handlers ↔
      (c.discovered config listeners handlers).find? (·.sameExposure t) = some t := by
  rw [callbackTargets, ← discovered, mem_foldl_addTarget]
  simp

theorem discovered_of_mem_callbackTargets {t : CallbackTarget}
    (ht : t ∈ c.callbackTargets config listeners handlers) :
    t ∈ c.discovered config listeners handlers :=
  List.mem_of_find?_eq_some (mem_callbackTargets.1 ht)

/-- No callback target stands twice. -/
theorem callbackTargets_nodup : (c.callbackTargets config listeners handlers).Nodup := by
  have hpairwise : (c.callbackTargets config listeners handlers).Pairwise
      fun a b => a.sameExposure b = false := foldl_addTarget_pairwise .nil _
  refine hpairwise.imp ?_
  rintro a b hab rfl
  rw [CallbackTarget.sameExposure_refl] at hab
  cases hab

/-- Lifecycle overrides are no callbacks. -/
theorem isLifecycle_of_mem_callbackTargets {t : CallbackTarget}
    (ht : t ∈ c.callbackTargets config listeners handlers) : t.origin.isLifecycle = false := by
  rcases discovered_cases (discovered_of_mem_callbackTargets ht) with
    ⟨l, -, -, view, horigin⟩ | ⟨b, -, -, -, horigin, -⟩ | ⟨name, -, -, -, horigin, -⟩ <;>
    rw [horigin] <;> rfl

/-- Every discovered target is exposed like a callback target. -/
theorem exists_callbackTarget {t : CallbackTarget}
    (ht : t ∈ c.discovered config listeners handlers) :
    ∃ u ∈ c.callbackTargets config listeners handlers, u.sameExposure t = true := by
  obtain ⟨u, hu⟩ := Option.isSome_iff_exists.1
    (List.find?_isSome.2 ⟨t, ht, t.sameExposure_refl⟩ :
      ((c.discovered config listeners handlers).find? (·.sameExposure t)).isSome = true)
  have hut : u.sameExposure t = true := by simpa using List.find?_some hu
  refine ⟨u, mem_callbackTargets.2 ?_, hut⟩
  rw [← hu]
  congr 1
  funext v
  exact CallbackTarget.sameExposure_congr hut v

/-- The handler of a binding that reaches a component is exposed, for the view of the binding. -/
theorem exists_target_of_reaches {b : HandlerBinding} (hb : b ∈ handlers)
    (hreaches : b.reaches c config.policy = true) :
    ∃ t ∈ c.callbackTargets config listeners handlers,
      t.method.same (c.handlerSignature b.method) = true ∧ t.view = some b.identifier := by
  have hdiscovered : { method := c.handlerSignature b.method
                       origin := .handler (some b.identifier)
                       view := some b.identifier, bindings := c.bindings } ∈
      c.discovered config listeners handlers := by
    apply List.mem_append_left
    apply List.mem_append_right
    exact List.mem_map.2 ⟨b, List.mem_filter.2 ⟨hb, hreaches⟩, rfl⟩
  obtain ⟨t, ht, hexposed⟩ := exists_callbackTarget hdiscovered
  exact ⟨t, ht, CallbackTarget.sameExposure_iff.1 hexposed⟩

end Component
end AppDriver
