import AppDriver.Proofs.CallBlocks
import AppDriver.Proofs.PlacementOrder
import AppDriver.Proofs.TargetDiscovery
import Mathlib.Data.List.TakeWhile

/-! The order of the calls in a component's section. The lifecycle calls follow the protocol in
effect, phase by phase and edge by edge, and the callbacks stand between the first lifecycle call and
the teardown. -/

namespace AppDriver

/-! ### One kind of calls before another -/

/-- Whether every call with `P` comes before every call with `Q`; both are read off the origin and
the method. -/
def Before (P Q : CallOrigin → Signature → Prop) (steps : List CallStep) : Prop :=
  ∀ (i j : Nat) (hi : i < steps.length) (hj : j < steps.length),
    P steps[i].origin steps[i].method → Q steps[j].origin steps[j].method → i < j

/-- Targets in an order bring their calls in this order, as the calls of one target are alike. -/
theorem before_flatten {P Q : CallOrigin → Signature → Prop} (hapart : ∀ o m, P o m → ¬Q o m)
    {c : Component} {ts : List CallbackTarget} {blocks : List (List CallStep)}
    (hblocks : List.Forall₂ (CallBlock c) ts blocks)
    (hts : ts.Pairwise fun s t => Q s.origin s.method → ¬P t.origin t.method) :
    Before P Q blocks.flatten := by
  have hsteps : blocks.flatten.Pairwise fun x y => Q x.origin x.method → ¬P y.origin y.method := by
    induction hblocks with
    | nil => exact .nil
    | @cons t block ts blocks hblock hrest ih =>
        obtain ⟨hfirst, hothers⟩ := List.pairwise_cons.1 hts
        rw [List.flatten_cons]
        refine List.pairwise_append.2 ⟨?_, ih hothers, ?_⟩
        · refine List.pairwise_of_forall_mem_list fun x hx y hy => ?_
          rw [hblock.origin x hx, hblock.method x hx, hblock.origin y hy, hblock.method y hy]
          exact fun hQ hP => hapart _ _ hP hQ
        · intro x hx y hy
          obtain ⟨other, hother, hy⟩ := List.mem_flatten.1 hy
          obtain ⟨t', ht', hblock'⟩ := forall₂_left hrest.flip hother
          rw [hblock.origin x hx, hblock.method x hx, hblock'.origin y hy, hblock'.method y hy]
          exact hfirst t' ht'
  intro i j hi hj hP hQ
  rcases Nat.lt_trichotomy i j with hlt | heq | hgt
  · exact hlt
  · subst heq
    exact (hapart _ _ hP hQ).elim
  · exact (List.pairwise_iff_getElem.1 hsteps j i hj hi hgt hQ hP).elim

/-! ### The schedule of a component -/

namespace Component

section Schedule

variable {c : Component} {placed : List PlacedOverride} {callbacks : List CallbackTarget}
  (hcallbacks : ∀ t ∈ callbacks, t.origin.isLifecycle = false)
  (hphases : placed.Pairwise fun a b => a.phase.rank ≤ b.phase.rank)

theorem filter_map_lifecycleTarget (c : Component) (os : List PlacedOverride) :
    (os.map c.lifecycleTarget).filter (·.origin.isLifecycle) = os.map c.lifecycleTarget := by
  refine List.filter_eq_self.2 fun t ht => ?_
  obtain ⟨o, -, rfl⟩ := List.mem_map.1 ht
  rfl

include hcallbacks in
/-- The lifecycle targets of a schedule are the placed overrides in their order. -/
theorem filter_schedule (placement : CallbackPlacement) :
    (c.schedule placement placed callbacks).filter (·.origin.isLifecycle) =
      placed.map c.lifecycleTarget := by
  have hnone : callbacks.filter (·.origin.isLifecycle) = [] :=
    List.filter_eq_nil_iff.2 fun t ht => by simp [hcallbacks t ht]
  rcases c.schedule_cases placement placed callbacks with ⟨heq, -⟩ | ⟨heq, -⟩ <;> rw [heq]
  · rw [scheduleOnce, List.filter_append, List.filter_append, filter_map_lifecycleTarget,
      filter_map_lifecycleTarget, hnone, List.append_nil, ← List.map_append,
      List.takeWhile_append_dropWhile]
  · have hblock : ∀ o : PlacedOverride,
        (c.lifecycleTarget o :: if o.phase = .teardown then [] else callbacks).filter
          (·.origin.isLifecycle) = [c.lifecycleTarget o] := by
      intro o
      rw [List.filter_cons_of_pos rfl]
      split
      · rfl
      · rw [hnone]
    rw [scheduleRepeated, List.filter_flatMap, List.map_eq_flatMap]
    simp only [hblock]

include hcallbacks in
/-- What holds between the placed overrides in their order holds between the lifecycle targets. -/
theorem schedule_lifecycle {R : CallbackTarget → CallbackTarget → Prop}
    (h : placed.Pairwise fun a b => R (c.lifecycleTarget a) (c.lifecycleTarget b))
    (placement : CallbackPlacement) :
    (c.schedule placement placed callbacks).Pairwise fun s t =>
      s.origin.isLifecycle = true → t.origin.isLifecycle = true → R s t := by
  have hfiltered := List.pairwise_map.2 h
  rw [← filter_schedule hcallbacks placement] at hfiltered
  exact List.pairwise_filter.1 hfiltered

include hphases in
theorem phase_of_mem_dropWhile {o : PlacedOverride}
    (ho : o ∈ placed.dropWhile (·.phase != .teardown)) : o.phase = .teardown := by
  induction placed with
  | nil => cases ho
  | cons a placed ih =>
      obtain ⟨hfirst, hrest⟩ := List.pairwise_cons.1 hphases
      by_cases ha : a.phase = .teardown
      · rw [List.dropWhile_cons_of_neg (by simp [ha])] at ho
        rcases List.mem_cons.1 ho with rfl | ho
        · exact ha
        · exact Phase.eq_teardown ha (hfirst o ho)
      · rw [List.dropWhile_cons_of_pos (by simp [ha])] at ho
        exact ih hrest ho

theorem phase_of_mem_takeWhile {o : PlacedOverride}
    (ho : o ∈ placed.takeWhile (·.phase != .teardown)) : o.phase ≠ .teardown := by
  simpa using List.mem_takeWhile_imp ho

include hcallbacks in
theorem callback_origin_ne {t : CallbackTarget} (ht : t ∈ callbacks) (phase : Phase) :
    t.origin ≠ .lifecycle phase := by
  intro heq
  have hnot := hcallbacks t ht
  rw [heq] at hnot
  cases hnot

include hcallbacks in
/-- Where the callbacks stand once, only lifecycle targets follow a teardown. -/
theorem scheduleOnce_teardown : (c.scheduleOnce placed callbacks).Pairwise fun s t =>
    s.origin = .lifecycle .teardown → t.origin.isLifecycle = true := by
  refine List.pairwise_append.2 ⟨?_, ?_, ?_⟩
  · refine List.pairwise_of_forall_mem_list fun s hs t _ hteardown => ?_
    rcases List.mem_append.1 hs with hs | hs
    · obtain ⟨o, ho, rfl⟩ := List.mem_map.1 hs
      exact (phase_of_mem_takeWhile ho (CallOrigin.lifecycle.inj hteardown)).elim
    · exact (callback_origin_ne hcallbacks hs .teardown hteardown).elim
  · refine List.pairwise_of_forall_mem_list fun s _ t ht _ => ?_
    obtain ⟨o, -, rfl⟩ := List.mem_map.1 ht
    rfl
  · intro s _ t ht _
    obtain ⟨o, -, rfl⟩ := List.mem_map.1 ht
    rfl

include hcallbacks in
/-- A teardown target stands with an override of the teardown only. -/
theorem phase_of_mem_repeated {o : PlacedOverride} {s : CallbackTarget}
    (hs : s ∈ c.lifecycleTarget o :: if o.phase = .teardown then [] else callbacks)
    (hteardown : s.origin = .lifecycle .teardown) : o.phase = .teardown := by
  by_contra hphase
  rw [if_neg hphase] at hs
  rcases List.mem_cons.1 hs with rfl | hs
  · exact hphase (CallOrigin.lifecycle.inj hteardown)
  · exact callback_origin_ne hcallbacks hs .teardown hteardown

/-- With an override of the teardown stands no callback. -/
theorem isLifecycle_of_mem_repeated {o : PlacedOverride} (ho : o.phase = .teardown)
    {t : CallbackTarget}
    (ht : t ∈ c.lifecycleTarget o :: if o.phase = .teardown then [] else callbacks) :
    t.origin.isLifecycle = true := by
  rw [if_pos ho, List.mem_singleton] at ht
  rw [ht]
  rfl

include hcallbacks hphases in
/-- So it is where the callbacks follow every override outside the teardown. -/
theorem scheduleRepeated_teardown : (c.scheduleRepeated placed callbacks).Pairwise fun s t =>
    s.origin = .lifecycle .teardown → t.origin.isLifecycle = true := by
  refine List.pairwise_flatMap.2 ⟨fun o _ => ?_, hphases.imp fun {a b} hle s hs t ht h => ?_⟩
  · refine List.pairwise_of_forall_mem_list fun s hs t ht hteardown => ?_
    exact isLifecycle_of_mem_repeated (phase_of_mem_repeated hcallbacks hs hteardown) ht
  · have ha := phase_of_mem_repeated hcallbacks hs h
    exact isLifecycle_of_mem_repeated (Phase.eq_teardown ha hle) ht

include hcallbacks hphases in
/-- Only lifecycle targets follow a teardown. -/
theorem schedule_teardown (placement : CallbackPlacement) :
    (c.schedule placement placed callbacks).Pairwise fun s t =>
      s.origin = .lifecycle .teardown → t.origin.isLifecycle = true := by
  rcases c.schedule_cases placement placed callbacks with ⟨heq, -⟩ | ⟨heq, -⟩ <;> rw [heq]
  · exact scheduleOnce_teardown hcallbacks
  · exact scheduleRepeated_teardown hcallbacks hphases

include hcallbacks hphases in
/-- Placed before the teardown, the callbacks follow every other lifecycle target. -/
theorem schedule_callbacks :
    (c.schedule .beforeTeardown placed callbacks).Pairwise fun s t =>
      s.origin.isLifecycle = false → ∀ phase, t.origin = .lifecycle phase → phase = .teardown := by
  refine List.pairwise_append.2 ⟨List.pairwise_append.2 ⟨?_, ?_, ?_⟩, ?_, ?_⟩
  · refine List.pairwise_of_forall_mem_list fun s hs t _ hnot => ?_
    obtain ⟨o, -, rfl⟩ := List.mem_map.1 hs
    cases hnot
  · refine List.pairwise_of_forall_mem_list fun s _ t ht _ phase heq => ?_
    exact (callback_origin_ne hcallbacks ht phase heq).elim
  · intro s hs t _ hnot
    obtain ⟨o, -, rfl⟩ := List.mem_map.1 hs
    cases hnot
  · refine List.pairwise_of_forall_mem_list fun s hs t _ hnot => ?_
    obtain ⟨o, -, rfl⟩ := List.mem_map.1 hs
    cases hnot
  · intro s _ t ht _ phase heq
    obtain ⟨o, ho, rfl⟩ := List.mem_map.1 ht
    rw [← CallOrigin.lifecycle.inj heq]
    exact phase_of_mem_dropWhile hphases ho

include hphases in
/-- With an override outside the teardown, a schedule begins with a lifecycle target. -/
theorem schedule_head (hsome : ∃ o ∈ placed, o.phase ≠ .teardown) (placement : CallbackPlacement) :
    ∃ o, (c.schedule placement placed callbacks).head? = some (c.lifecycleTarget o) := by
  obtain ⟨o, ho, hphase⟩ := hsome
  obtain ⟨first, others, rfl⟩ := List.exists_cons_of_ne_nil (List.ne_nil_of_mem ho)
  rcases c.schedule_cases placement (first :: others) callbacks with ⟨heq, -⟩ | ⟨heq, -⟩ <;>
    rw [heq]
  · have hfirst : first.phase ≠ .teardown := by
      intro hteardown
      rcases List.mem_cons.1 ho with rfl | ho
      · exact hphase hteardown
      · exact hphase (Phase.eq_teardown hteardown ((List.pairwise_cons.1 hphases).1 o ho))
    refine ⟨first, ?_⟩
    rw [scheduleOnce, List.takeWhile_cons_of_pos (by simpa using hfirst)]
    rfl
  · exact ⟨first, rfl⟩

end Schedule

end Component

/-! ### Configurations -/

theorem builtIn_valid (k : ComponentKind) : (Protocol.builtIn k).Valid := by
  apply Protocol.valid_of_fault?
  cases k <;> decide +kernel

theorem ofDefinition_valid {d : ProtocolDefinition} {p : Protocol}
    (h : Protocol.ofDefinition d = .ok p) : p.Valid := by
  rw [Protocol.ofDefinition] at h
  split at h
  · cases h
  · split at h
    · cases h
    · split at h
      · cases h
      · split at h
        · cases h
        · rename_i hfault
          cases h
          exact Protocol.valid_of_fault? hfault

theorem addProtocols_valid {ds : List ProtocolDefinition} {set set' : ProtocolSet}
    {seen : List ComponentKind} (hset : ∀ k, (set.get k).Valid)
    (h : HarnessConfig.addProtocols set seen ds = .ok set') (k : ComponentKind) :
    (set'.get k).Valid := by
  induction ds generalizing set seen with
  | nil =>
      cases h
      exact hset k
  | cons d ds ih =>
      rw [HarnessConfig.addProtocols] at h
      split at h
      · cases h
      · rename_i p hp
        split at h
        · cases h
        · refine ih (fun k' => ?_) h
          rw [ProtocolSet.get_insert]
          split
          · exact ofDefinition_valid hp
          · exact hset k'

/-- Every protocol of a configuration that is accepted is valid, built in or not. -/
theorem build_valid {source : HarnessConfig} {config : ValidConfig}
    (h : source.build = .ok config) (k : ComponentKind) : (config.protocols.get k).Valid := by
  rw [HarnessConfig.build] at h
  split at h
  · cases h
  · split at h
    · cases h
    · rename_i protocols hprotocols
      cases h
      have hbuiltIn : ∀ k, (ProtocolSet.get {} k).Valid := builtIn_valid
      exact addProtocols_valid hbuiltIn hprotocols k

/-! ### Sections -/

/-- Calls of lifecycle overrides that are placed in a phase. -/
def InPhase (phase : Phase) (origin : CallOrigin) (_ : Signature) : Prop :=
  origin = .lifecycle phase

/-- Calls of listener methods and handlers. -/
def IsCallback (origin : CallOrigin) (_ : Signature) : Prop := origin.isLifecycle = false

/-- Calls of lifecycle overrides with the signature of a step. -/
def Overrides (step : LifecycleStep) (origin : CallOrigin) (method : Signature) : Prop :=
  origin.isLifecycle = true ∧ method.same step.method = true

/-- The calls on a component in the order of its lifecycle. -/
structure FollowsLifecycle (config : ValidConfig) (c : Component) (steps : List CallStep) :
    Prop where
  component : ∀ x ∈ steps, x.component = c.name
  phases : ∀ p q : Phase, p.rank < q.rank → Before (InPhase p) (InPhase q) steps
  teardownLast : Before IsCallback (InPhase .teardown) steps
  lifecycleFirst : (∃ o ∈ (config.protocols.get c.kind).place c.lifecycle, o.phase ≠ .teardown) →
    ∃ first, steps.head? = some first ∧ first.origin.isLifecycle = true
  callbacksLast : config.ordering.callbackPlacement = .beforeTeardown →
    ∀ p : Phase, p ≠ .teardown → Before (InPhase p) IsCallback steps
  edges : ∀ a b s t, (a, b) ∈ (config.protocols.get c.kind).edges →
    (config.protocols.get c.kind).steps[a]? = some s →
    (config.protocols.get c.kind).steps[b]? = some t → Before (Overrides s) (Overrides t) steps

namespace Synthesizer

variable (y : Synthesizer) (handlers : List HandlerBinding)

section Blocks

variable {y handlers} {c : Component} (hvalid : (y.config.protocols.get c.kind).Valid)
  {blocks : List (List CallStep)}
  (hblocks : List.Forall₂ (CallBlock c) (y.scheduled handlers c) blocks)

theorem callbacks_not_lifecycle : ∀ t ∈ y.callbacks handlers c, t.origin.isLifecycle = false :=
  fun _ ht => Component.isLifecycle_of_mem_callbackTargets ht

include hvalid hblocks in
/-- The phases never decrease. -/
theorem before_of_phase {p q : Phase} (hpq : p.rank < q.rank) :
    Before (InPhase p) (InPhase q) blocks.flatten := by
  refine before_flatten ?_ hblocks ?_
  · rintro o m rfl hq
    rw [CallOrigin.lifecycle.inj hq] at hpq
    exact Nat.lt_irrefl _ hpq
  · have hplaced : ((y.config.protocols.get c.kind).place c.lifecycle).Pairwise fun a b =>
        InPhase q (c.lifecycleTarget a).origin a.method →
          ¬InPhase p (c.lifecycleTarget b).origin b.method := by
      refine (Protocol.place_phases hvalid c.lifecycle).imp fun {a b} hle ha hb => ?_
      rw [CallOrigin.lifecycle.inj ha, CallOrigin.lifecycle.inj hb] at hle
      omega
    refine (Component.schedule_lifecycle
      (R := fun s t => InPhase q s.origin s.method → ¬InPhase p t.origin t.method)
      callbacks_not_lifecycle hplaced _).imp fun {s t} h hs ht => ?_
    exact h (congrArg CallOrigin.isLifecycle hs) (congrArg CallOrigin.isLifecycle ht) hs ht

include hvalid hblocks in
/-- No callback comes after the teardown has begun. -/
theorem callbacks_before_teardown : Before IsCallback (InPhase .teardown) blocks.flatten := by
  refine before_flatten ?_ hblocks ?_
  · rintro o m hnot rfl
    cases hnot
  · refine (Component.schedule_teardown callbacks_not_lifecycle
      (Protocol.place_phases hvalid c.lifecycle) _).imp fun {s t} h hs ht => ?_
    rw [IsCallback, h hs] at ht
    cases ht

include hvalid hblocks in
/-- With an override outside the teardown, the first call is one of the lifecycle. -/
theorem head_isLifecycle
    (hsome : ∃ o ∈ (y.config.protocols.get c.kind).place c.lifecycle, o.phase ≠ .teardown) :
    ∃ first, blocks.flatten.head? = some first ∧ first.origin.isLifecycle = true := by
  obtain ⟨o, ho⟩ : ∃ o, (y.scheduled handlers c).head? = some (c.lifecycleTarget o) :=
    Component.schedule_head (Protocol.place_phases hvalid c.lifecycle) hsome _
  obtain ⟨rest, hrest⟩ := List.head?_eq_some_iff.1 ho
  rw [hrest] at hblocks
  obtain ⟨block, others, hblock, -, rfl⟩ := List.forall₂_cons_left_iff.1 hblocks
  obtain ⟨first, more, rfl⟩ := List.exists_cons_of_ne_nil hblock.nonempty
  refine ⟨first, rfl, ?_⟩
  rw [hblock.origin first List.mem_cons_self]
  rfl

include hvalid hblocks in
/-- Placed before the teardown, the callbacks come after every other lifecycle call. -/
theorem callbacks_after_phase (hplacement : y.config.ordering.callbackPlacement = .beforeTeardown)
    {p : Phase} (hp : p ≠ .teardown) : Before (InPhase p) IsCallback blocks.flatten := by
  refine before_flatten ?_ hblocks ?_
  · rintro o m rfl hnot
    cases hnot
  · rw [scheduled, hplacement]
    exact (Component.schedule_callbacks callbacks_not_lifecycle
      (Protocol.place_phases hvalid c.lifecycle)).imp fun h hs ht => hp (h hs p ht)

include hvalid hblocks in
/-- Overrides of the steps of an edge come in its order. -/
theorem before_of_edge {a b : Nat} {s t : LifecycleStep}
    (hedge : (a, b) ∈ (y.config.protocols.get c.kind).edges)
    (hs : (y.config.protocols.get c.kind).steps[a]? = some s)
    (ht : (y.config.protocols.get c.kind).steps[b]? = some t) :
    Before (Overrides s) (Overrides t) blocks.flatten := by
  refine before_flatten ?_ hblocks ?_
  · rintro o m ⟨-, hm⟩ ⟨-, hm'⟩
    have hsame : s.method.same t.method = true :=
      Signature.same_trans (by rwa [Signature.same_comm]) hm'
    rw [hvalid.edge_not_same hedge hs ht] at hsame
    cases hsame
  · refine (Component.schedule_lifecycle
      (R := fun u v => ¬(u.method.same t.method = true ∧ v.method.same s.method = true))
      callbacks_not_lifecycle (Protocol.place_edge hvalid hedge hs ht c.lifecycle) _).imp
      fun {u v} h hu hv => ?_
    exact h hu.1 hv.1 ⟨hu.2, hv.2⟩

include hvalid hblocks in
/-- The calls of a component's scheduled targets follow its lifecycle. -/
theorem followsLifecycle : FollowsLifecycle y.config c blocks.flatten where
  component := by
    intro x hx
    obtain ⟨block, hblock, hx⟩ := List.mem_flatten.1 hx
    obtain ⟨t, -, ht⟩ := forall₂_left hblocks.flip hblock
    exact ht.component x hx
  phases := fun _ _ => before_of_phase hvalid hblocks
  teardownLast := callbacks_before_teardown hvalid hblocks
  lifecycleFirst := head_isLifecycle hvalid hblocks
  callbacksLast := fun hplacement _ => callbacks_after_phase hvalid hblocks hplacement
  edges := fun _ _ _ _ => before_of_edge hvalid hblocks

end Blocks

variable (components : List Component) (registry : Registry) (findings : List Finding)

/-- The sections of the ordered part are ordered ones. -/
theorem isUnordered_of_mem_orderedPart {sec : Section}
    (hsec : sec ∈ (y.orderedPart handlers components registry findings).1) :
    sec.isUnordered = false := by
  obtain ⟨-, -, hkind, -⟩ := forall₂_left
    (orderedPart_sections handlers y.kept_true components registry findings).flip hsec
  exact hkind

/-- The ordered sections of a procedure, without the unordered one at its end. -/
theorem ordered_sections :
    (y.procedure components handlers registry findings).sections.filter (!·.isUnordered) =
      (y.orderedPart handlers components registry findings).1 := by
  have hlast : ∀ s : Progress, ∀ sec ∈ (y.unorderedSection handlers
      (y.instances components registry) s).1.toList, sec.isUnordered = true := by
    intro s sec hsec
    obtain ⟨steps, rfl⟩ := eq_callbacks_of_mem hsec
    rfl
  change List.filter _ ((y.orderedPart handlers components registry findings).1 ++
    (y.unorderedSection handlers (y.instances components registry)
      (y.orderedPart handlers components registry findings).2).1.toList) = _
  rw [List.filter_append, List.filter_eq_self.2 fun sec hsec => by
      rw [isUnordered_of_mem_orderedPart y handlers components registry findings hsec]; rfl,
    List.filter_eq_nil_iff.2 fun sec hsec => by rw [hlast _ sec hsec]; simp, List.append_nil]

/-- **Lifecycle order.** With a configuration that was accepted, every driven component has one
ordered section, and its calls follow the lifecycle: the phases never decrease, the callbacks stand
between the first lifecycle call and the teardown, and every edge of the protocol is respected. -/
theorem sections_follow_lifecycle {source : HarnessConfig} (hbuild : source.build = .ok y.config) :
    List.Forall₂ (fun c sec => FollowsLifecycle y.config c sec.steps) (y.driven components)
      ((y.procedure components handlers registry findings).sections.filter (!·.isUnordered)) := by
  rw [ordered_sections, ← y.map_fst_instances components registry, List.forall₂_map_left_iff]
  refine (orderedPart_sections handlers y.kept_true components registry findings).imp ?_
  rintro d sec ⟨-, blocks, hsteps, hblocks⟩
  rw [hsteps]
  exact followsLifecycle (build_valid hbuild d.1.kind) (hblocks.imp fun _ _ h => h.block)

/-- With the standard configuration, the creation of an activity is driven before its destruction,
whatever the order of its declarations. -/
theorem activity_follows_lifecycle :
    List.Forall₂ (fun c sec => FollowsLifecycle (Synthesizer.config {}) c sec.steps)
      (Synthesizer.driven {} [{ name := ⟨"app.Main"⟩, kind := .activity
                                lifecycle := [{ name := "onDestroy" }, { name := "onStart" }] }])
      ((Synthesizer.procedure {} [{ name := ⟨"app.Main"⟩, kind := .activity
                                    lifecycle := [{ name := "onDestroy" }, { name := "onStart" }] }]
        [] {} []).sections.filter (!·.isUnordered)) :=
  sections_follow_lifecycle {} [] _ {} [] (show HarnessConfig.build {} = _ by decide +kernel)

end Synthesizer
end AppDriver
