import AppDriver.Proofs.FiledRegistries

/-! Constructor wiring. Registering a list of components walks along their constructors depth first:
a class that a constructor needs is registered before the class that needs it, unless it is being
registered already. So the argument for a class is its instance if that comes first, and otherwise
the typed null with which the walk cut the cycle. -/

namespace AppDriver

namespace Store

variable {n : Nat} {batch : List Component} {busy : List TypeName} {s s' : Store} {t : TypeName}
  {x a : StandInRef}

theorem Effect.degradations (h : Effect n batch busy s s') :
    s.degradations <+: s'.degradations := by
  cases h with
  | value t => rw [Store.value]; split <;> exact List.prefix_rfl
  | typedNull t => rw [Store.typedNull]; split <;> exact List.prefix_rfl
  | push | forgetCycle | enroll => exact List.prefix_rfl
  | record | cutCycle => exact List.prefix_append _ _
  | settleAmbient =>
      obtain ⟨ambients, heq⟩ := s.settleAmbient_eq _ _
      rw [heq]

theorem Runs.degradations (h : Runs n batch busy s s') : s.degradations <+: s'.degradations :=
  h.rel (R := fun s s' => s.degradations <+: s'.degradations) (fun _ => List.prefix_rfl)
    (fun h h' => h.trans h') Effect.degradations

/-! ### Arguments -/

/-- Whether the cycle of a component class was cut with this typed null. -/
structure CutClass (s : Store) (t : TypeName) (a : StandInRef) : Prop where
  typedNull : s.typedNulls.lookup t = some a
  recorded : (⟨a, t.text, .cycle⟩ : Degradation) ∈ s.degradations

theorem CutClass.grow (h : s.CutClass t a) (hgrows : s.Grows s')
    (hdegradations : s.degradations <+: s'.degradations) : s'.CutClass t a :=
  ⟨hgrows.typedNulls t a h.typedNull, hdegradations.subset h.recorded⟩

/-- What a class is answered with while the classes `busy` are being registered. -/
inductive Answered (batch : List Component) (busy : List TypeName) (s : Store) (t : TypeName)
    (a : StandInRef) : Prop
  | registered : s.component? t = some a → Answered batch busy s t a
  | cut : s.CutClass t a → t ∈ busy → s.component? t = none → Answered batch busy s t a
  | foreign : (∀ c ∈ batch, c.name ≠ t) → s.component? t = none → Answered batch busy s t a

/-- What the instance `x` of a class has as its argument for a class. -/
inductive Wired (batch : List Component) (s : Store) (x : StandInRef) (t : TypeName)
    (a : StandInRef) : Prop
  | earlier : s.component? t = some a → a.index < x.index → Wired batch s x t a
  | cut : s.CutClass t a → (∀ z, s.component? t = some z → x.index ≤ z.index) →
    Wired batch s x t a
  | foreign : (∀ c ∈ batch, c.name ≠ t) → s.component? t = none → Wired batch s x t a

/-- Whether a registered component is the first of its name in the batch and its arguments for
other classes are wired. -/
structure IsWired (batch : List Component) (s : Store) (e : Component × StandInRef) : Prop where
  first : batch.find? (·.name == e.1.name) = some e.1
  arguments : ∃ y args, s.get? e.2 = some y ∧ y.construction = .constructor args ∧
    List.Forall₂ (fun t a => t.isPlainValue = false → Wired batch s e.2 t a)
      e.1.constructorParams args

/-- On the way from one store to the other, every component that is registered is wired. -/
structure Wires (batch : List Component) (s s' : Store) : Prop extends s.Enrolls batch s' where
  degradations : s.degradations <+: s'.degradations
  wired : ∀ e ∈ s'.components, e ∈ s.components ∨ IsWired batch s' e

theorem wires_of_runs (h : Runs n [] busy s s') : s.Wires batch s' where
  toEnrolls := enrolls_of_components h.grows h.components
  degradations := h.degradations
  wired _ he := Or.inl (h.components ▸ he)

theorem Wires.refl (s : Store) : s.Wires batch s where
  toEnrolls := .refl s
  degradations := List.prefix_rfl
  wired _ he := Or.inl he

/-- An answer stays right while the same classes are being registered. -/
theorem Answered.keep (h : Answered batch busy s t a) (hruns : Runs n batch busy s s') :
    Answered batch busy s' t a := by
  cases h with
  | registered hregistered => exact .registered (hruns.grows.component? hregistered)
  | cut hcut hbusy hnone =>
      refine .cut (hcut.grow hruns.grows hruns.degradations) hbusy ?_
      rw [hruns.component?_kept (.inl hbusy), hnone]
  | foreign hforeign hnone =>
      exact .foreign hforeign ((hruns.component?_kept (.inr hforeign)).trans hnone)

/-- The instance of a class that is registered later comes later, so an argument stays wired. -/
theorem Wired.grow (h : Wired batch s x t a) (hx : s.Has x) (hmore : s.Wires batch s') :
    Wired batch s' x t a := by
  cases h with
  | earlier hinstance hbefore => exact .earlier (hmore.grows.component? hinstance) hbefore
  | cut hcut hlater =>
      refine .cut (hcut.grow hmore.grows hmore.degradations) fun z hz => ?_
      cases hold : s.component? t with
      | none =>
          obtain ⟨-, -, -, hfresh, -⟩ := hmore.fresh hold hz
          exact Nat.le_of_lt (Nat.lt_of_lt_of_le hx hfresh)
      | some z' =>
          obtain rfl : z' = z := Option.some.inj ((hmore.grows.component? hold).symm.trans hz)
          exact hlater z' hold
  | foreign hforeign hnone =>
      refine .foreign hforeign ?_
      cases hlate : s'.component? t with
      | none => rfl
      | some z =>
          obtain ⟨c, hc, hname, -⟩ := hmore.fresh hnone hlate
          exact (hforeign c hc hname).elim

theorem IsWired.grow {e : Component × StandInRef} (h : s.IsWired batch e)
    (hmore : s.Wires batch s') : s'.IsWired batch e := by
  obtain ⟨y, args, hy, hconstruction, hargs⟩ := h.arguments
  have hhas : s.Has e.2 := has_of_get? hy
  refine ⟨h.first, y, args, hmore.grows.get?_some hy, hconstruction, ?_⟩
  exact hargs.imp fun t a hwired hplain => (hwired hplain).grow hhas hmore

theorem Wires.trans {u : Store} (h : s.Wires batch u) (h' : u.Wires batch s') :
    s.Wires batch s' where
  toEnrolls := h.toEnrolls.trans h'.toEnrolls
  degradations := h.degradations.trans h'.degradations
  wired e he := by
    rcases h'.wired e he with hold | hnew
    · exact (h.wired e hold).imp_right fun hwired => hwired.grow h'
    · exact Or.inr hnew

/-- A class whose arguments are answered is wired when it is enrolled. -/
theorem enroll_wires (hs : s.Sound) {c : Component}
    (hfirst : batch.find? (·.name == c.name) = some c) {args : List StandInRef}
    (hargs : List.Forall₂ (fun t a => t.isPlainValue = false → Answered batch busy s t a)
      c.constructorParams args) : s.Wires batch (s.enroll c args).2 := by
  have hc : c ∈ batch := List.mem_of_find?_eq_some hfirst
  have henrolls := s.enroll_enrolls hc args
  refine { henrolls with degradations := List.prefix_rfl, wired := fun e he => ?_ }
  rcases List.mem_append.1 he with hold | hnew
  · exact Or.inl hold
  · obtain rfl := List.mem_singleton.1 hnew
    refine Or.inr ⟨hfirst, _, args, get?_push_new, rfl, hargs.imp fun t a hanswered hplain => ?_⟩
    -- Of the classes that were busy, that of `c` comes in place now and the others come later.
    cases hanswered hplain with
    | registered hregistered =>
        exact .earlier (henrolls.grows.component? hregistered) (hs.has_component hregistered)
    | cut hcut hbusy hnone =>
        refine .cut (hcut.grow henrolls.grows List.prefix_rfl) fun z hz => ?_
        obtain ⟨-, -, -, hfresh, -⟩ := henrolls.fresh hnone hz
        exact hfresh
    | foreign hforeign hnone =>
        exact .foreign hforeign ((component?_append (hforeign c hc) rfl).trans hnone)

end Store

open Store (Answered Wires)

namespace Workshop

variable (w : Workshop) {batch : List Component} {s : Store}

/-- The arguments for parameters of which only the type is known. -/
theorem answered_ofType {busy : List TypeName} {params : List TypeName} {args : List StandInRef}
    (h : List.Forall₂ (fun (p : ParamSource) a => p.isShared = true →
      Answered batch busy s p.typeName a) (params.map .ofType) args) :
    List.Forall₂ (fun t a => t.isPlainValue = false → Answered batch busy s t a) params args := by
  refine (List.forall₂_map_left_iff.1 h).imp fun t a hanswered hplain => ?_
  rw [ParamSource.ofType, hplain] at hanswered
  exact hanswered rfl

variable (batch) in
/-- Fabrication wires what it registers, and answers a class as registration has come. -/
theorem fabrication_wires :
    (∀ u t (s : Store), s.Sound → s.Wires batch (w.ambient batch u t s).2 ∧
      Answered batch u.classes (w.ambient batch u t s).2 t (w.ambient batch u t s).1) ∧
    (∀ u t origin hint (s : Store), s.Sound →
      s.Wires batch (w.fabricate batch u t origin hint s).2) ∧
    (∀ u params (s : Store), s.Sound → s.Wires batch (w.materialize batch u params s).2 ∧
      List.Forall₂ (fun (p : ParamSource) a => p.isShared = true →
        Answered batch u.classes (w.materialize batch u params s).2 p.typeName a)
        params (w.materialize batch u params s).1) ∧
    (∀ u p (s : Store), s.Sound → s.Wires batch (w.supply batch u p s).2 ∧ (p.isShared = true →
      Answered batch u.classes (w.supply batch u p s).2 p.typeName (w.supply batch u p s).1)) := by
  have hforeign : ∀ {t : TypeName}, batch.find? (·.name == t) = none →
      ∀ c ∈ batch, c.name ≠ t := by
    intro t hfind c hc
    simpa using List.find?_eq_none.1 hfind c hc
  apply w.fabrication_induction batch
    (fun u t s out => s.Wires batch out.2 ∧ Answered batch u.classes out.2 t out.1)
    (fun _ _ _ _ s out => s.Wires batch out.2)
    (fun u params s out => s.Wires batch out.2 ∧ List.Forall₂
      (fun p a => p.isShared = true → Answered batch u.classes out.2 p.typeName a) params out.1)
    (fun u p s out => s.Wires batch out.2 ∧
      (p.isShared = true → Answered batch u.classes out.2 p.typeName out.1))
  case registered =>
      intro u t s x hs hx
      exact ⟨.refl s, .registered hx⟩
  case cutClass =>
      intro u s c hs hnew hfind hbusy
      have hruns : Store.Runs 0 [] [] s (s.cutComponentCycle c.name).2 :=
        (Store.cutComponentCycle_runs hs c.name).1
      refine ⟨Store.wires_of_runs hruns, .cut ⟨s.lookup_typedNull c.name, ?_⟩ hbusy ?_⟩
      · exact List.mem_append_right _ (List.mem_singleton.2 rfl)
      · rw [Store.component?, hruns.components]
        exact hnew
  case enrolled =>
      intro u s c args hs hnew hfind hbusy hargs hstill ih
      have hsound := (hargs hs).1.sound hs
      exact ⟨ih.1.trans (Store.enroll_wires hsound hfind (answered_ofType ih.2)),
        .registered (Store.component?_enroll hstill _)⟩
  case known =>
      intro u t s x hs hnew hfind hx
      exact ⟨.refl s, .foreign (hforeign hfind) hnew⟩
  case plain =>
      intro u t s hs hnew hfind hambient hplain
      have hvalue : Store.Effect w.arrayLength [] [] s _ := .value s t
      refine ⟨Store.wires_of_runs hvalue.runs, .foreign (hforeign hfind) ?_⟩
      rw [Store.component?, hvalue.runs.components]
      exact hnew
  case settled =>
      intro u t s made hs hnew hfind hambient hplain hmade ih
      obtain ⟨hruns, hholds⟩ := hmade hs
      have hsettle : Store.Effect w.arrayLength [] [] made.2 _ := .settleAmbient hplain hholds
      refine ⟨ih.trans (Store.wires_of_runs hsettle.runs), .foreign (hforeign hfind) ?_⟩
      rw [Store.component?, hsettle.runs.components]
      exact (hruns.component?_kept (.inr (hforeign hfind))).trans hnew
  case fabricatedPlain =>
      intro u t origin hint s hs hplain
      have hvalue : Store.Effect w.arrayLength [] [] s _ := .value s t
      exact Store.wires_of_runs hvalue.runs
  case cutType =>
      intro u t origin hint s hs hplain hbusy
      have hruns : Store.Runs 0 [] [] s _ := (Store.cutCycle_runs hplain origin hint).1
      exact Store.wires_of_runs hruns
  case noRecipe =>
      intro u t origin hint s hs hplain hbusy hrecipe
      have hruns : Store.Runs 0 [] [] s _ :=
        (Store.pushDegenerate_runs hplain origin hint t.text .noRecipe).1
      exact Store.wires_of_runs hruns
  case unfabricable =>
      intro u t origin hint s hs hplain hbusy hrecipe
      have hruns : Store.Runs 0 [] [] s _ :=
        (Store.forgetCycle_runs t
          (Store.pushDegenerate_runs hplain origin hint t.text .unfabricable)).1
      exact Store.wires_of_runs hruns
  case staticField =>
      intro u t origin hint s owner field hs hplain hbusy hrecipe
      have hpush : Store.Effect 0 [] [] s (s.push t origin (.staticField owner field) hint).2 :=
        .push origin hint hplain fun x hx => by cases hx
      exact Store.wires_of_runs (hpush.runs.trans (Store.Effect.forgetCycle _ t).runs)
  case substituted =>
      intro u t origin hint s concrete made hs hplain hbusy hrecipe hmade ih
      have hforget : Store.Effect 0 [] [] made.2 _ := .forgetCycle made.2 t
      exact ih.trans (Store.wires_of_runs hforget.runs)
  case completed =>
      intro u t origin hint s recipe args construction hs hplain hbusy hrecipe hbuilds hargs ih
      obtain ⟨hruns, hhas⟩ := hargs hs
      have hcomplete : Store.Runs 0 [] [] args.2 _ := (Store.forgetCycle_runs t
        (Store.complete_runs (hruns.sound hs) hplain origin hint (hbuilds.dependencies ▸ hhas))).1
      exact ih.1.trans (Store.wires_of_runs hcomplete)
  case nil =>
      intro u s hs
      exact ⟨.refl s, .nil⟩
  case cons =>
      intro u p ps s first rest hs hfirst hrest ihfirst ihrest
      obtain ⟨hruns, -⟩ := hrest ((hfirst hs).1.sound hs)
      exact ⟨ihfirst.1.trans ihrest.1,
        .cons (fun hshared => (ihfirst.2 hshared).keep hruns) ihrest.2⟩
  case object =>
      intro u p s out hs hshared ih
      exact ⟨ih.1, fun _ => ih.2⟩
  case typedNull =>
      intro u t s hs
      have hnull : Store.Effect 0 [] [] s _ := .typedNull s t
      exact ⟨Store.wires_of_runs hnull.runs, fun hshared => by cases hshared⟩
  case value =>
      intro u t s hs
      have hvalue : Store.Effect w.arrayLength [] [] s _ := .value s t
      exact ⟨Store.wires_of_runs hvalue.runs, fun hshared => by cases hshared⟩

theorem register_wires (hs : s.Sound) {c : Component}
    (hfirst : s.component? c.name = none → batch.find? (·.name == c.name) = some c) :
    s.Wires batch (w.register batch c s).2 := by
  rw [register]
  split
  · exact .refl s
  · rename_i hnew
    obtain ⟨hruns, -⟩ := (w.fabrication_obtains batch).2.2.1 (Underway.enterClass {} c.name)
      (c.constructorParams.map .ofType) s hs
    obtain ⟨hwires, hargs⟩ := (w.fabrication_wires batch).2.2.1 (Underway.enterClass {} c.name)
      (c.constructorParams.map .ofType) s hs
    exact hwires.trans
      (Store.enroll_wires (hruns.sound hs) (hfirst hnew) (answered_ofType hargs))

/-- Of several declarations of a class, the first one counts: when another one is reached, the class
is registered. -/
theorem registerAll_wires (before rest : List Component) (hbatch : before ++ rest = batch)
    (hs : s.Sound) (hbefore : ∀ c ∈ before, ∃ x, s.component? c.name = some x) :
    s.Wires batch (threadMap (w.register batch) rest s).2 := by
  induction rest generalizing before s with
  | nil => exact .refl s
  | cons c rest ih =>
      obtain ⟨hgrows, hsound, hfound⟩ := w.register_grows batch c hs
      have hstep : s.Wires batch (w.register batch c s).2 := by
        -- No earlier declaration has this name, as its class would be registered.
        refine w.register_wires hs fun hnew => ?_
        have hnone : before.find? (·.name == c.name) = none := by
          refine List.find?_eq_none.2 fun b hb hname => ?_
          obtain ⟨x, hx⟩ := hbefore b hb
          rw [beq_iff_eq.1 hname, hnew] at hx
          cases hx
        rw [← hbatch, List.find?_append, hnone]
        simp
      refine hstep.trans (ih (before ++ [c]) ?_ hsound fun b hb => ?_)
      · rw [List.append_assoc]
        exact hbatch
      · rcases List.mem_append.1 hb with hb | hb
        · obtain ⟨x, hx⟩ := hbefore b hb
          exact ⟨x, hgrows.component? hx⟩
        · obtain rfl := List.mem_singleton.1 hb
          exact ⟨_, hfound⟩

end Workshop

namespace Registry

variable {r : Registry}

/-- Whether a stand-in is one of the component origin for a class. -/
def IsInstance (r : Registry) (t : TypeName) (x : StandInRef) : Prop :=
  ∃ y kind, r.get? x = some y ∧ y.typeName = t ∧ y.origin = .component kind

/-- Whether a stand-in is the typed null of a type. -/
def IsTypedNull (r : Registry) (t : TypeName) (x : StandInRef) : Prop :=
  r.store.typedNulls.lookup t = some x ∧ ∃ y, r.get? x = some y ∧ y.typeName = t ∧
    y.origin = .ambient ∧ y.construction = .degenerate

/-- The one stand-in of the component origin for a class is what the class is answered with. -/
theorem Reachable.isInstance_iff (h : Reachable r) {t : TypeName} {x : StandInRef} :
    r.IsInstance t x ↔ r.component? t = some x := by
  constructor
  · rintro ⟨y, kind, hy, rfl, horigin⟩
    have hfile := h.onFile hy
    rw [Store.OnFile, horigin] at hfile
    exact hfile
  · intro hx
    obtain ⟨e, he, rfl⟩ := Option.map_eq_some_iff.1 hx
    obtain ⟨y, hy, htype, horigin⟩ := h.orderly.instances e (List.mem_of_find?_eq_some he)
    have hname : e.1.name = t := by simpa using List.find?_some he
    exact ⟨y, e.1.kind, hy, htype.trans hname, horigin⟩

theorem Reachable.isTypedNull (h : Reachable r) {t : TypeName} {x : StandInRef}
    (hx : r.store.typedNulls.lookup t = some x) : r.IsTypedNull t x :=
  ⟨hx, h.orderly.typedNulls (t, x) (Workshop.mem_of_lookup hx)⟩

theorem registerComponents_wires (hr : r.store.Sound) (cs : List Component) :
    r.store.Wires cs (r.registerComponents cs).2.store :=
  r.workshop.registerAll_wires [] cs rfl hr fun _ hc => (List.not_mem_nil hc).elim

/-- **Constructor wiring.** When a list of components is registered, each of its classes has one
stand-in of the component origin, and it is what the list is answered with there. The first
declaration of a class that was not registered before is the one that counts, and the argument of
its instance for a registered class is the instance of that class if it precedes, and otherwise its
typed null, recorded as the cut of a cycle. -/
theorem constructors_wired (h : Reachable r) (cs : List Component) :
    List.Forall₂ (fun c x => ∀ z, (r.registerComponents cs).2.IsInstance c.name z ↔ z = x) cs
      (r.registerComponents cs).1 ∧
    ∀ t x, r.component? t = none → (r.registerComponents cs).2.component? t = some x →
      ∃ c y args, cs.find? (·.name == t) = some c ∧
        (r.registerComponents cs).2.get? x = some y ∧ y.construction = .constructor args ∧
        List.Forall₂ (fun d a => d.isPlainValue = false →
          ∀ z, (r.registerComponents cs).2.component? d = some z →
            (z.index < x.index → a = z) ∧
            (x.index ≤ z.index → (r.registerComponents cs).2.IsTypedNull d a ∧
              (⟨a, d.text, .cycle⟩ : Degradation) ∈ (r.registerComponents cs).2.degradations))
          c.constructorParams args := by
  have hreached : Reachable (r.registerComponents cs).2 := h.step (.registerComponents cs) rfl
  constructor
  · refine (registerComponents_answers h.sound cs).imp fun c x hx z => ?_
    rw [hreached.isInstance_iff, hx]
    exact ⟨fun hz => (Option.some.inj hz).symm, fun hz => hz ▸ rfl⟩
  · intro t x hnew hx
    obtain ⟨e, he, rfl⟩ := Option.map_eq_some_iff.1 hx
    obtain rfl : e.1.name = t := by simpa using List.find?_some he
    have hwired := (registerComponents_wires h.sound cs).wired e (List.mem_of_find?_eq_some he)
    have hgained : e ∉ r.store.components := fun hold =>
      List.find?_eq_none.1 (Option.map_eq_none_iff.1 hnew) e hold (beq_self_eq_true _)
    obtain ⟨hfirst, y, args, hy, hconstruction, hargs⟩ := hwired.resolve_left hgained
    refine ⟨e.1, y, args, hfirst, hy, hconstruction, hargs.imp fun d a hwired hplain z hz => ?_⟩
    cases hwired hplain with
    | earlier hinstance hbefore =>
        obtain rfl : a = z := Option.some.inj (hinstance.symm.trans hz)
        exact ⟨fun _ => rfl, fun hlater => absurd hbefore (Nat.not_lt_of_le hlater)⟩
    | cut hcut hlater =>
        exact ⟨fun hbefore => absurd (hlater z hz) (Nat.not_le_of_lt hbefore),
          fun _ => ⟨hreached.isTypedNull hcut.typedNull, hcut.recorded⟩⟩
    | foreign hforeign hnone =>
        rw [show (r.registerComponents cs).2.component? d = none from hnone] at hz
        cases hz

/-- Of the two components that need each other, the one that is enrolled first is constructed with
the typed null of the other one. -/
theorem knot_wired : Reachable (new {}) ∧ (new {}).component? ⟨"app.Right"⟩ = none ∧
    knotRegistry.component? ⟨"app.Right"⟩ = some ⟨1⟩ ∧
    knotRegistry.component? ⟨"app.Left"⟩ = some ⟨2⟩ ∧
    ∃ y a, knotRegistry.get? ⟨1⟩ = some y ∧ y.construction = .constructor [a] ∧
      knotRegistry.IsTypedNull ⟨"app.Left"⟩ a ∧
      (⟨a, "app.Left", .cycle⟩ : Degradation) ∈ knotRegistry.degradations := by
  have hstart : Reachable (new {}) := .new {} 1
  have hright : knotRegistry.component? ⟨"app.Right"⟩ = some ⟨1⟩ := by decide +kernel
  have hleft : knotRegistry.component? ⟨"app.Left"⟩ = some ⟨2⟩ := by decide +kernel
  refine ⟨hstart, rfl, hright, hleft, ?_⟩
  obtain ⟨c, y, args, hfirst, hy, hconstruction, hargs⟩ :=
    (constructors_wired hstart knot).2 ⟨"app.Right"⟩ ⟨1⟩ rfl hright
  obtain rfl := Option.some.inj hfirst
  obtain ⟨a, more, hwired, hmore, rfl⟩ := List.forall₂_cons_left_iff.1 hargs
  obtain rfl := List.forall₂_nil_left_iff.1 hmore
  obtain ⟨hnull, hrecorded⟩ := (hwired (by decide) ⟨2⟩ hleft).2 (by decide)
  exact ⟨y, a, hy, hconstruction, hnull, hrecorded⟩

end Registry
end AppDriver
