import AppDriver.Proofs.RegistryGrowth

/-! Enrolling components. Registering adds one new stand-in for each class that is not registered
yet, its instance, and nothing else adds one. -/

namespace AppDriver

namespace Store

def originAt? (s : Store) (r : StandInRef) : Option Origin := (s.get? r).map (·.origin)

theorem originAt?_push (s : Store) (t : TypeName) (origin : Origin) (construction : Construction)
    (hint : String) :
    (s.push t origin construction hint).2.originAt? (s.push t origin construction hint).1 =
      some origin := by
  simp [push, originAt?, get?]

theorem originAt?_extend {s s' : Store} (harena : s.arena <+: s'.arena) {r : StandInRef}
    {origin : Origin} (h : s.originAt? r = some origin) : s'.originAt? r = some origin := by
  obtain ⟨more, hmore⟩ := harena
  obtain ⟨x, hx, -⟩ := Option.map_eq_some_iff.1 h
  have hlt : r.index < s.arena.length := (List.getElem?_eq_some_iff.1 hx).1
  rw [originAt?, get?, ← hmore, List.getElem?_append_left hlt]
  exact h

theorem Grows.originAt? {s s' : Store} (h : s.Grows s') {r : StandInRef} {origin : Origin}
    (hr : s.originAt? r = some origin) : s'.originAt? r = some origin :=
  originAt?_extend h.arena hr

/-! ### Enrolling -/

/-- On the way from one store to the other only components of the batch are enrolled, and the
instance of each is a new stand-in. -/
structure Enrolls (batch : List Component) (s s' : Store) : Prop where
  grows : s.Grows s'
  instances : ∀ e ∈ s'.components, e ∈ s.components ∨
    e.1 ∈ batch ∧ s.arena.length ≤ e.2.index ∧ s'.originAt? e.2 = some (.component e.1.kind)

variable {n : Nat} {batch : List Component} {busy : List TypeName} {s s' : Store}

theorem enrolls_of_components (hgrows : s.Grows s') (heq : s'.components = s.components) :
    s.Enrolls batch s' := by
  refine ⟨hgrows, ?_⟩
  intro e he
  rw [heq] at he
  exact Or.inl he

theorem Enrolls.refl (s : Store) : s.Enrolls batch s := enrolls_of_components (.refl s) rfl

theorem Enrolls.trans {a b c : Store} (h : a.Enrolls batch b) (h' : b.Enrolls batch c) :
    a.Enrolls batch c := by
  refine ⟨h.grows.trans h'.grows, ?_⟩
  intro e he
  rcases h'.instances e he with hold | ⟨hbatch, hfresh, horigin⟩
  · rcases h.instances e hold with hold | ⟨hbatch, hfresh, horigin⟩
    · exact Or.inl hold
    · exact Or.inr ⟨hbatch, hfresh, h'.grows.originAt? horigin⟩
  · have hlength : a.arena.length ≤ b.arena.length := h.grows.arena.length_le
    exact Or.inr ⟨hbatch, by omega, horigin⟩

theorem enroll_enrolls (s : Store) {c : Component} (hc : c ∈ batch) (args : List StandInRef) :
    s.Enrolls batch (s.enroll c args).2 := by
  refine ⟨s.enroll_grows c args, ?_⟩
  intro e he
  rcases List.mem_append.1 he with hold | hnew
  · exact Or.inl hold
  · obtain rfl := List.mem_singleton.1 hnew
    have horigin := s.originAt?_push c.name (.component c.kind) (.constructor args)
      (uncapitalized c.name.simpleName)
    exact Or.inr ⟨hc, Nat.le_refl _, horigin⟩

theorem Effect.enrolls (h : Effect n batch busy s s') : s.Enrolls batch s' := by
  rcases h.tables.2 with heq | ⟨c, args, hc, -, rfl⟩
  · exact enrolls_of_components h.grows heq
  · exact s.enroll_enrolls hc args

theorem Runs.enrolls (h : Runs n batch busy s s') : s.Enrolls batch s' :=
  h.rel .refl (fun h h' => h.trans h') Effect.enrolls

/-- The instance of a class that was not registered before is a new stand-in of one of the batch. -/
theorem Enrolls.fresh (h : s.Enrolls batch s') {t : TypeName} (hnew : s.component? t = none)
    {x : StandInRef} (hx : s'.component? t = some x) :
    ∃ c ∈ batch, c.name = t ∧ s.arena.length ≤ x.index ∧
      s'.originAt? x = some (.component c.kind) := by
  obtain ⟨e, he, rfl⟩ := Option.map_eq_some_iff.1 hx
  have hname : e.1.name = t := by simpa using List.find?_some he
  rcases h.instances e (List.mem_of_find?_eq_some he) with hold | ⟨hbatch, hfresh, horigin⟩
  · have hnone : s.components.find? (·.1.name == t) = none := Option.map_eq_none_iff.1 hnew
    have hne := List.find?_eq_none.1 hnone e hold
    exact (hne (by simpa using hname)).elim
  · exact ⟨e.1, hbatch, hname, hfresh, horigin⟩

end Store

/-! ### Registering -/

theorem Workshop.register_enrolls (w : Workshop) {batch : List Component} {s : Store}
    (hs : s.Sound) {c : Component} (hc : c ∈ batch) : s.Enrolls batch (w.register batch c s).2 := by
  rw [register]
  split
  · exact .refl s
  · obtain ⟨hruns, -⟩ := (w.fabrication_obtains batch).2.2.1 (Underway.enterClass {} c.name)
      (c.constructorParams.map .ofType) s hs
    exact hruns.enrolls.trans (Store.enroll_enrolls _ hc _)

namespace Registry

variable {r : Registry} (hr : r.store.Sound) (cs : List Component)

include hr in
theorem registerComponents_enrolls : r.store.Enrolls cs (r.registerComponents cs).2.store :=
  (registerComponents_rel hr .refl .trans fun _ hc _ hs => r.workshop.register_enrolls hs hc).2

include hr in
/-- What is returned for a component is its instance from then on. -/
theorem registerComponents_answers :
    List.Forall₂ (fun c x => (r.registerComponents cs).2.component? c.name = some x) cs
      (r.registerComponents cs).1 := by
  have hanswers := threadMap_answers
    (R := fun s s' : Store => s.Sound → s.Grows s' ∧ s'.Sound)
    (fun s hs => ⟨.refl s, hs⟩)
    (fun h h' hs => ⟨(h hs).1.trans (h' (h hs).2).1, (h' (h hs).2).2⟩)
    (f := r.workshop.register cs)
    (fun c s hs =>
      ⟨(r.workshop.register_grows cs c hs).1, (r.workshop.register_grows cs c hs).2.1⟩)
    cs r.store
  refine hanswers.imp ?_
  rintro c x ⟨s, hs, rfl, hlast⟩
  obtain ⟨-, hsound, hfound⟩ := r.workshop.register_grows cs c (hs hr).2
  exact (hlast hsound).1.component? hfound

end Registry

end AppDriver
