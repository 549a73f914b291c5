import AppDriver.Proofs.StoreGrowth
import Mathlib.Logic.Relation

/-! What fabrication does to a store, as a run of single effects. Every fact about the store that a
single effect preserves therefore holds at the end of every fabrication, whatever recipes it
followed and however often it was entered again on the way. -/

namespace AppDriver

namespace Store

/-- One effect of a fabrication with arrays of length `n`. Only components of the batch are
enrolled, none of them while it is being built, and none twice. -/
inductive Effect (n : Nat) (batch : List Component) (busy : List TypeName) : Store → Store → Prop
  | value (s : Store) (t : TypeName) : Effect n batch busy s (s.value n t).2
  | typedNull (s : Store) (t : TypeName) : Effect n batch busy s (s.typedNull t).2
  | push {s : Store} {t : TypeName} (origin : Origin) {construction : Construction}
      (hint : String) : t.isPlainValue = false → s.HasAll construction.dependencies →
      Effect n batch busy s (s.push t origin construction hint).2
  | record {s : Store} {r : StandInRef} (subject : String) (reason : DegradationReason) :
      s.Has r → Effect n batch busy s (s.record r subject reason)
  | cutCycle {s : Store} {t : TypeName} (origin : Origin) (hint : String) :
      t.isPlainValue = false → Effect n batch busy s (s.cutCycle t origin hint).2
  | forgetCycle (s : Store) (t : TypeName) : Effect n batch busy s (s.forgetCycle t)
  | settleAmbient {s : Store} {t : TypeName} {r : StandInRef} : t.isPlainValue = false →
      s.Holds r → Effect n batch busy s (s.settleAmbient t r).2
  | enroll {s : Store} {c : Component} {args : List StandInRef} : c ∈ batch → c.name ∉ busy →
      s.component? c.name = none → s.HasAll args →
      Effect n batch busy s (s.enroll c args).2

variable {n : Nat} {batch : List Component} {busy : List TypeName} {s s' : Store}

/-! ### What a single effect preserves -/

theorem enroll_grows (s : Store) (c : Component) (args : List StandInRef) :
    s.Grows (s.enroll c args).2 :=
  { s.push_grows c.name _ _ _ with components := List.prefix_append _ _ }

theorem Sound.enroll (hs : s.Sound) (c : Component) (args : List StandInRef) :
    (s.enroll c args).2.Sound := by
  have hpush := hs.push c.name (.component c.kind) (.constructor args)
    (uncapitalized c.name.simpleName)
  refine { hpush with components := ?_ }
  intro e he
  rcases List.mem_append.1 he with he | he
  · exact hpush.components e he
  · obtain rfl := List.mem_singleton.1 he
    exact s.push_has c.name _ _ _

/-- A component that is not registered answers with its new instance. -/
theorem component?_enroll {c : Component} (hnew : s.component? c.name = none)
    (args : List StandInRef) :
    (s.enroll c args).2.component? c.name = some (s.enroll c args).1 := by
  have hfind : s.components.find? (·.1.name == c.name) = none := Option.map_eq_none_iff.1 hnew
  change ((s.components ++ [(c, (s.enroll c args).1)]).find? (·.1.name == c.name)).map (·.2) = _
  rw [List.find?_append, hfind]
  simp

theorem Effect.grows (h : Effect n batch busy s s') : s.Grows s' := by
  cases h with
  | value t => exact s.value_grows n t
  | typedNull t => exact s.typedNull_grows t
  | push origin hint hplain hargs => exact s.push_grows _ origin _ hint
  | record subject reason hr => exact { Grows.refl s with }
  | cutCycle origin hint hplain => exact { s.push_grows _ origin .degenerate hint with }
  | forgetCycle t => exact { Grows.refl s with }
  | settleAmbient hplain hr => exact s.settleAmbient_grows _ _
  | enroll hbatch hbusy hnew hargs => exact s.enroll_grows _ _

theorem Effect.sound (h : Effect n batch busy s s') (hs : s.Sound) : s'.Sound := by
  cases h with
  | value t => exact hs.value n t
  | typedNull t => exact hs.typedNull t
  | push origin hint hplain hargs => exact hs.push _ origin _ hint
  | record subject reason hr => exact { hs with }
  | @cutCycle t origin hint hplain =>
      have hpush := hs.push t origin .degenerate hint
      refine { hpush with cycleBreaks := ?_ }
      intro t' r hr
      rcases List.mem_cons.1 hr with heq | hr
      · cases heq
        exact ⟨s.push_typeAt? t _ _ _, hplain⟩
      · exact hpush.cycleBreaks t' r hr
  | forgetCycle t =>
      exact { hs with cycleBreaks := fun t' r hr => hs.cycleBreaks t' r (List.mem_filter.1 hr).1 }
  | settleAmbient hplain hr => exact hs.settleAmbient hplain hr
  | enroll hbatch hbusy hnew hargs => exact hs.enroll _ _

/-- Two stores with the same answers to the lookups that the registry itself remembers. -/
structure SameLookups (s s' : Store) : Prop where
  declared : s'.declared = s.declared
  byIdentifier : s'.byIdentifier = s.byIdentifier
  unresolved : s'.unresolved = s.unresolved
  services : s'.services = s.services
  derived : s'.derived = s.derived

theorem SameLookups.refl (s : Store) : s.SameLookups s := ⟨rfl, rfl, rfl, rfl, rfl⟩

theorem SameLookups.trans {a b c : Store} (h : a.SameLookups b) (h' : b.SameLookups c) :
    a.SameLookups c where
  declared := h'.declared.trans h.declared
  byIdentifier := h'.byIdentifier.trans h.byIdentifier
  unresolved := h'.unresolved.trans h.unresolved
  services := h'.services.trans h.services
  derived := h'.derived.trans h.derived

/-- An effect leaves what the registry itself remembers, and registers at most one component, of the
batch and not being built. -/
theorem Effect.tables (h : Effect n batch busy s s') :
    s.SameLookups s' ∧ (s'.components = s.components ∨
      ∃ c args, c ∈ batch ∧ c.name ∉ busy ∧ s' = (s.enroll c args).2) := by
  cases h with
  | value t => rw [Store.value]; split <;> exact ⟨⟨rfl, rfl, rfl, rfl, rfl⟩, Or.inl rfl⟩
  | typedNull t => rw [Store.typedNull]; split <;> exact ⟨⟨rfl, rfl, rfl, rfl, rfl⟩, Or.inl rfl⟩
  | settleAmbient hplain hr =>
      rw [Store.settleAmbient]
      split
      · exact ⟨.refl s, Or.inl rfl⟩
      · dsimp only
        split
        · exact ⟨⟨rfl, rfl, rfl, rfl, rfl⟩, Or.inl rfl⟩
        · split <;> exact ⟨⟨rfl, rfl, rfl, rfl, rfl⟩, Or.inl rfl⟩
  | push | record | cutCycle | forgetCycle => exact ⟨⟨rfl, rfl, rfl, rfl, rfl⟩, Or.inl rfl⟩
  | enroll hbatch hbusy hnew hargs =>
      exact ⟨⟨rfl, rfl, rfl, rfl, rfl⟩, Or.inr ⟨_, _, hbatch, hbusy, rfl⟩⟩

/-- A component of another name does not change the instance of a class. -/
theorem component?_append {c : Component} {name : TypeName} {r : StandInRef}
    (hname : c.name ≠ name) (heq : s'.components = s.components ++ [(c, r)]) :
    s'.component? name = s.component? name := by
  rw [component?, heq, List.find?_append, List.find?_singleton, beq_eq_false_iff_ne.2 hname,
    component?]
  simp

/-- Of the classes, only those of the batch are registered on the way, and none that is being
built. -/
theorem Effect.component?_kept (h : Effect n batch busy s s') {name : TypeName}
    (hname : name ∈ busy ∨ ∀ c ∈ batch, c.name ≠ name) :
    s'.component? name = s.component? name := by
  rcases h.tables.2 with heq | ⟨c, args, hc, hbusy, rfl⟩
  · rw [component?, heq, component?]
  · refine component?_append ?_ rfl
    rcases hname with hname | hname
    · rintro rfl
      exact hbusy hname
    · exact hname c hc

theorem Effect.weaken {busy' : List TypeName} (hsub : busy ⊆ busy')
    (h : Effect n batch busy' s s') : Effect n batch busy s s' := by
  cases h with
  | value t => exact .value s t
  | typedNull t => exact .typedNull s t
  | push origin hint hplain hargs => exact .push origin hint hplain hargs
  | record subject reason hr => exact .record subject reason hr
  | cutCycle origin hint hplain => exact .cutCycle origin hint hplain
  | forgetCycle t => exact .forgetCycle s t
  | settleAmbient hplain hr => exact .settleAmbient hplain hr
  | enroll hbatch hbusy hnew hargs =>
      exact .enroll hbatch (fun hmem => hbusy (hsub hmem)) hnew hargs

/-! ### Runs of effects -/

/-- Effects one after the other. -/
def Runs (n : Nat) (batch : List Component) (busy : List TypeName) : Store → Store → Prop :=
  Relation.ReflTransGen (Effect n batch busy)

theorem Runs.refl (s : Store) : Runs n batch busy s s := Relation.ReflTransGen.refl

theorem Runs.trans {a b c : Store} (h : Runs n batch busy a b) (h' : Runs n batch busy b c) :
    Runs n batch busy a c := Relation.ReflTransGen.trans h h'

theorem Effect.runs (h : Effect n batch busy s s') : Runs n batch busy s s' :=
  Relation.ReflTransGen.single h

/-- What every effect preserves, a run preserves. -/
theorem Runs.rel {R : Store → Store → Prop} (hrefl : ∀ s, R s s)
    (htrans : ∀ {a b c}, R a b → R b c → R a c)
    (heffect : ∀ {s s'}, Effect n batch busy s s' → R s s') (h : Runs n batch busy s s') :
    R s s' := by
  induction h with
  | refl => exact hrefl s
  | tail _ hlast ih => exact htrans ih (heffect hlast)

theorem Runs.grows (h : Runs n batch busy s s') : s.Grows s' :=
  h.rel .refl (fun h h' => h.trans h') Effect.grows

theorem Runs.sound (h : Runs n batch busy s s') (hs : s.Sound) : s'.Sound :=
  h.rel (R := fun s s' => s.Sound → s'.Sound) (fun _ hs => hs) (fun h h' hs => h' (h hs))
    Effect.sound hs

theorem Runs.sameLookups (h : Runs n batch busy s s') : s.SameLookups s' :=
  h.rel .refl (fun h h' => h.trans h') fun h => h.tables.1

theorem Runs.component?_kept (h : Runs n batch busy s s') {name : TypeName}
    (hname : name ∈ busy ∨ ∀ c ∈ batch, c.name ≠ name) :
    s'.component? name = s.component? name :=
  h.rel (R := fun s s' => s'.component? name = s.component? name) (fun _ => rfl)
    (fun h h' => h'.trans h) fun h => h.component?_kept hname

/-- Without a batch no component is registered. -/
theorem Runs.components (h : Runs n [] busy s s') : s'.components = s.components := by
  refine h.rel (R := fun s s' => s'.components = s.components) (fun _ => rfl)
    (fun h h' => h'.trans h) fun h => ?_
  rcases h.tables.2 with heq | ⟨c, args, hc, -⟩
  · exact heq
  · cases hc

theorem Runs.weaken {busy' : List TypeName} (hsub : busy ⊆ busy')
    (h : Runs n batch busy' s s') : Runs n batch busy s s' :=
  h.rel .refl (fun h h' => h.trans h') fun h => (h.weaken hsub).runs

end Store
end AppDriver
