import AppDriver.Proofs.ClosedProcedures
import AppDriver.Proofs.Findings

/-! The record of degradations against the arena. Stand-ins are degenerate for several reasons: what
a recipe cannot make is recorded when it is added, a typed null may be recorded every time it cuts a
cycle or never, and the answer to the lookup of no known identifier is not recorded at all. Apart
from the last two the record and the degenerate stand-ins correspond one to one, and synthesis
reports the whole record at the end of its findings. -/

namespace AppDriver

open Registry (Reachable)

namespace Store

variable {s s' : Store} {t : TypeName} {origin : Origin} {construction : Construction}
  {hint subject : String} {reason : DegradationReason} {x : StandInRef} {y : StandIn}

/-- Whether a reference denotes a degenerate stand-in. -/
def IsDegenerate (s : Store) (x : StandInRef) : Prop :=
  ∃ y, s.get? x = some y ∧ y.isDegenerate = true

theorem IsDegenerate.grow (hgrows : s.Grows s') (h : s.IsDegenerate x) : s'.IsDegenerate x := by
  obtain ⟨y, hy, hdegenerate⟩ := h
  exact ⟨y, hgrows.get?_some hy, hdegenerate⟩

theorem IsDegenerate.has (h : s.IsDegenerate x) : s.Has x := by
  obtain ⟨y, hy, -⟩ := h
  exact has_of_get? hy

theorem isDegenerate_push (s : Store) (t : TypeName) (origin : Origin) (hint : String) :
    (s.push t origin .degenerate hint).2.IsDegenerate (s.push t origin .degenerate hint).1 :=
  ⟨_, get?_push_new, rfl⟩

/-- How often the degradation of a stand-in is recorded. -/
def timesRecorded (s : Store) (x : StandInRef) : Nat := s.degradations.countP (·.standIn == x)

theorem timesRecorded_record (s : Store) (x z : StandInRef) (subject : String)
    (reason : DegradationReason) :
    (s.record x subject reason).timesRecorded z = s.timesRecorded z + if x = z then 1 else 0 := by
  simp [timesRecorded, record, List.countP_singleton]

/-- Whether the record is one of degenerate stand-ins, and has each of them once that is neither a
typed null nor the answer to the lookup of no known identifier. -/
structure Accounted (s : Store) : Prop where
  refers : ∀ d ∈ s.degradations, s.IsDegenerate d.standIn
  nulls : ∀ e ∈ s.typedNulls, s.IsDegenerate e.2
  once : ∀ x y, s.get? x = some y → y.isDegenerate = true → y.origin ≠ .unresolved none →
    (∀ t, s.typedNulls.lookup t ≠ some x) → s.timesRecorded x = 1

theorem accounted_empty : Accounted {} := by
  constructor <;> simp [get?]

/-! ### What is added -/

theorem Accounted.push (h : s.Accounted)
    (hfree : construction ≠ .degenerate ∨ origin = .unresolved none) :
    (s.push t origin construction hint).2.Accounted := by
  have hgrows := s.push_grows t origin construction hint
  refine ⟨fun d hd => (h.refers d hd).grow hgrows, fun e he => (h.nulls e he).grow hgrows, ?_⟩
  intro x y hy hdegenerate horigin hnull
  rcases get?_push hy with hold | ⟨rfl, rfl⟩
  · exact h.once x y hold hdegenerate horigin hnull
  · rcases hfree with hfree | hfree
    · exact absurd (beq_iff_eq.1 hdegenerate) hfree
    · exact absurd hfree horigin

/-- A new stand-in is not recorded yet. -/
theorem Accounted.timesRecorded_new (h : s.Accounted) :
    s.timesRecorded (s.push t origin construction hint).1 = 0 := by
  rw [timesRecorded, List.countP_eq_zero]
  intro d hd hnew
  have hlt : d.standIn.index < s.arena.length := (h.refers d hd).has
  rw [beq_iff_eq.1 hnew] at hlt
  exact lt_irrefl _ hlt

theorem Accounted.pushDegenerate (h : s.Accounted) :
    (s.pushDegenerate t origin hint subject reason).2.Accounted := by
  have hgrows : s.Grows (s.pushDegenerate t origin hint subject reason).2 :=
    { s.push_grows t origin .degenerate hint with }
  constructor
  · intro d hd
    rcases List.mem_append.1 hd with hold | hnew
    · exact (h.refers d hold).grow hgrows
    · obtain rfl := List.mem_singleton.1 hnew
      exact s.isDegenerate_push t origin hint
  · exact fun e he => (h.nulls e he).grow hgrows
  · intro x y hy hdegenerate horigin hnull
    rw [Store.pushDegenerate, timesRecorded_record]
    rcases get?_push hy with hold | ⟨rfl, rfl⟩
    · have hne : (s.push t origin .degenerate hint).1 ≠ x := by
        rintro rfl
        exact lt_irrefl _ (has_of_get? hold)
      rw [if_neg hne]
      exact h.once x y hold hdegenerate horigin hnull
    · rw [if_pos rfl]
      exact congrArg (· + 1) h.timesRecorded_new

theorem Accounted.typedNull (h : s.Accounted) : (s.typedNull t).2.Accounted := by
  have hgrows := s.typedNull_grows t
  rw [Store.typedNull] at hgrows ⊢
  split at hgrows
  · exact h
  · rename_i hnew
    refine ⟨fun d hd => (h.refers d hd).grow hgrows, ?_, ?_⟩
    · intro e he
      rcases List.mem_cons.1 he with rfl | he
      · exact s.isDegenerate_push t .ambient _
      · exact (h.nulls e he).grow hgrows
    · intro x y hy hdegenerate horigin hnull
      rcases get?_push hy with hold | ⟨rfl, -⟩
      · exact h.once x y hold hdegenerate horigin
          fun t' ht' => hnull t' (keeps_cons hnew _ t' x ht')
      · exact absurd List.lookup_cons_self (hnull t)

/-- A typed null may be recorded any number of times. -/
theorem Accounted.record_null (h : s.Accounted) (hx : s.typedNulls.lookup t = some x) :
    (s.record x subject reason).Accounted := by
  constructor
  · intro d hd
    rcases List.mem_append.1 hd with hold | hnew
    · exact h.refers d hold
    · obtain rfl := List.mem_singleton.1 hnew
      exact h.nulls _ (Workshop.mem_of_lookup hx)
  · exact h.nulls
  · intro z y hy hdegenerate horigin hnull
    have hne : x ≠ z := by
      rintro rfl
      exact hnull t hx
    rw [timesRecorded_record, if_neg hne]
    exact h.once z y hy hdegenerate horigin hnull

theorem Accounted.cutComponentCycle (h : s.Accounted) : (s.cutComponentCycle t).2.Accounted :=
  h.typedNull.record_null (s.lookup_typedNull t)

theorem Accounted.value {n : Nat} (h : s.Accounted) : (s.value n t).2.Accounted := by
  rw [Store.value]
  split
  · exact h
  · refine { h.push (.inl ?_) with }
    split <;> simp

theorem Accounted.complete (h : s.Accounted) (hmade : construction ≠ .degenerate) :
    (s.complete t origin construction hint).2.Accounted := by
  have hforget : (s.forgetCycle t).Accounted := { h with }
  rw [Store.complete]
  split
  · split
    · exact hforget
    · exact hforget.push (.inl hmade)
  · exact h.push (.inl hmade)

theorem Accounted.settleAmbient (h : s.Accounted) : (s.settleAmbient t x).2.Accounted := by
  obtain ⟨ambients, heq⟩ := s.settleAmbient_eq t x
  rw [heq]
  exact { h with }

theorem Accounted.enroll (h : s.Accounted) (c : Component) (args : List StandInRef) :
    (s.enroll c args).2.Accounted :=
  { h.push (.inl Construction.noConfusion) with }

end Store

/-! ### What fabrication and operations keep -/

namespace Workshop

variable (w : Workshop) (batch : List Component)

theorem fabrication_accounted :
    (∀ u t s, s.Sound → s.Accounted → (w.ambient batch u t s).2.Accounted) ∧
    (∀ u t origin hint s, s.Sound → s.Accounted →
      (w.fabricate batch u t origin hint s).2.Accounted) ∧
    (∀ u params s, s.Sound → s.Accounted → (w.materialize batch u params s).2.Accounted) ∧
    (∀ u p s, s.Sound → s.Accounted → (w.supply batch u p s).2.Accounted) := by
  apply w.fabrication_induction batch
    (fun _ _ s out => s.Accounted → out.2.Accounted)
    (fun _ _ _ _ s out => s.Accounted → out.2.Accounted)
    (fun _ _ s out => s.Accounted → out.2.Accounted)
    (fun _ _ s out => s.Accounted → out.2.Accounted)
  case registered =>
      intro u t s x hs hx h
      exact h
  case cutClass =>
      intro u s c hs hnew hfind hbusy h
      exact h.cutComponentCycle
  case enrolled =>
      intro u s c args hs hnew hfind hbusy hargs hstill ih h
      exact (ih h).enroll c args.1
  case known =>
      intro u t s x hs hnew hfind hx h
      exact h
  case plain =>
      intro u t s hs hnew hfind hambient hplain h
      exact h.value
  case settled =>
      intro u t s made hs hnew hfind hambient hplain hmade ih h
      exact (ih h).settleAmbient
  case fabricatedPlain =>
      intro u t origin hint s hs hplain h
      exact h.value
  case cutType =>
      intro u t origin hint s hs hplain hbusy h
      exact { h.pushDegenerate with }
  case noRecipe =>
      intro u t origin hint s hs hplain hbusy hrecipe h
      exact h.pushDegenerate
  case unfabricable =>
      intro u t origin hint s hs hplain hbusy hrecipe h
      exact { h.pushDegenerate with }
  case staticField =>
      intro u t origin hint s owner field hs hplain hbusy hrecipe h
      exact { h.push (.inl Construction.noConfusion) with }
  case substituted =>
      intro u t origin hint s concrete made hs hplain hbusy hrecipe hmade ih h
      exact { ih h with }
  case completed =>
      intro u t origin hint s recipe args construction hs hplain hbusy hrecipe hbuilds hargs ih h
      have hmade : construction ≠ .degenerate := by
        cases hbuilds <;> exact Construction.noConfusion
      exact { (ih h).complete hmade with }
  case nil =>
      intro u s hs h
      exact h
  case cons =>
      intro u p ps s first rest hs hfirst hrest ihfirst ihrest h
      exact ihrest (ihfirst h)
  case object =>
      intro u p s out hs hshared ih h
      exact ih h
  case typedNull =>
      intro u t s hs h
      exact h.typedNull
  case value =>
      intro u t s hs h
      exact h.value

theorem register_accounted {s : Store} (hs : s.Sound) (c : Component) (h : s.Accounted) :
    (w.register batch c s).2.Accounted := by
  rw [register]
  split
  · exact h
  · have hargs := (w.fabrication_accounted batch).2.2.1 (Underway.enterClass {} c.name)
      (c.constructorParams.map .ofType) s hs h
    exact hargs.enroll c _

end Workshop

theorem Store.Change.accounted {w : Workshop} {s s' : Store} (hchange : Store.Change w s s')
    (hs : s.Sound) (h : s.Accounted) : s'.Accounted := by
  cases hchange with
  | remember hsame hsound =>
      have hget := Store.get?_of_arena hsame.arena
      constructor
      · simpa only [hsame.degradations, Store.IsDegenerate, hget] using h.refers
      · simpa only [hsame.typedNulls, Store.IsDegenerate, hget] using h.nulls
      · simpa only [hsame.typedNulls, hsame.degradations, Store.timesRecorded, hget] using h.once
  | fabricate t id hint =>
      exact (w.fabrication_accounted []).2.1 {} t (.identifier id) hint s hs h
  | ambient t => exact (w.fabrication_accounted []).1 {} t s hs h
  | value t => exact h.value
  | register batch c => exact w.register_accounted batch hs c h
  | missing t id subject => exact h.pushDegenerate
  | service name subject hnew => exact { h.pushDegenerate with }
  | unresolved t => exact h.push (.inr rfl)
  | derived parent step hint => exact h.push (.inl Construction.noConfusion)

namespace Registry

variable {r : Registry}

/-- Whether the record of degradations and the degenerate stand-ins of a registry correspond: every
entry is one of a degenerate stand-in, and each of these that is neither a typed null nor the answer
to the lookup of no known identifier has one entry. -/
structure Accounts (r : Registry) : Prop where
  refers : ∀ d ∈ r.degradations, ∃ y, r.get? d.standIn = some y ∧ y.isDegenerate = true
  once : ∀ x y, r.get? x = some y → y.isDegenerate = true →
    (∀ t, r.store.typedNulls.lookup t ≠ some x) → (∀ t, r.store.unresolved.lookup t ≠ some x) →
    r.degradations.countP (·.standIn == x) = 1

theorem Reachable.accounts (h : Reachable r) : r.Accounts := by
  have haccounted := h.of_changes Store.accounted_empty Store.Change.accounted
  refine ⟨haccounted.refers, fun x y hy hdegenerate hnull hanswer => ?_⟩
  refine haccounted.once x y hy hdegenerate (fun horigin => ?_) hnull
  -- The answer to the lookup of no known identifier is on file as such.
  have hfile := h.onFile hy
  simp only [Store.OnFile, horigin] at hfile
  exact hanswer y.typeName hfile

end Registry

/-! ### What synthesis reports -/

/-- Whether a list of findings is without entries for degradations. -/
def Undegraded (fs : List Finding) : Prop := ∀ d, .degraded d ∉ fs

theorem Undegraded.append {fs more : List Finding} (h : Undegraded fs) (hmore : Undegraded more) :
    Undegraded (fs ++ more) := fun d hd => (List.mem_append.1 hd).elim (h d) (hmore d)

theorem undegraded_map {f : α → Finding} (h : ∀ a d, f a ≠ .degraded d) (as : List α) :
    Undegraded (as.map f) := by
  intro d hd
  obtain ⟨a, -, ha⟩ := List.mem_map.1 hd
  exact h a d ha

namespace Synthesizer

variable (y : Synthesizer) (handlers : List HandlerBinding)

theorem closing_undegraded (components : List Component) (registry : Registry)
    {findings : List Finding} (h : Undegraded findings) :
    Undegraded (y.closing handlers components registry findings).findings := by
  obtain ⟨more, heq, hcalls⟩ := y.closing_findings handlers components registry findings
  rw [heq]
  refine ((h.append fun d hd => ?_).append ?_).append fun d hd => ?_
  · obtain ⟨name, hname⟩ := acceptComponents_findings hd
    cases hname
  · exact undegraded_map (fun b d => Finding.noConfusion) _
  · cases hcalls _ hd

end Synthesizer

/-- Whether the findings of a procedure end with one informational entry for each degradation, in
order, and have no other such entry. -/
def Procedure.EndsWithDegradations (p : Procedure) : Prop :=
  ∃ front, p.findings = front ++ p.degradations.map .degraded ∧ Undegraded front ∧
    ∀ f ∈ p.degradations.map Finding.degraded, f.severity = .info

namespace Synthesizer

variable (y : Synthesizer)

theorem procedure_endsWithDegradations (handlers : List HandlerBinding)
    (components : List Component) (registry : Registry) {findings : List Finding}
    (h : Undegraded findings) :
    (y.procedure components handlers registry findings).EndsWithDegradations := by
  refine ⟨_, rfl, y.closing_undegraded handlers components registry h, fun f hf => ?_⟩
  obtain ⟨d, -, rfl⟩ := List.mem_map.1 hf
  rfl

/-- **The record of degradations.** In every registry that operations reach, each entry of the
record is one of a degenerate stand-in, and each degenerate stand-in has one entry, unless it is a
typed null or the answer to the lookup of no known identifier. The findings of a procedure end with
this record, whether it is synthesized over such a registry or from a document. -/
theorem degradations_accounted {r : Registry} (h : Reachable r) :
    r.Accounts ∧
    (∀ components handlers, (y.synthesize components handlers r).registry.Accounts ∧
      (y.synthesize components handlers r).EndsWithDegradations) ∧
    ∀ d : Facts, (y.synthesizeFacts d).registry.Accounts ∧
      (y.synthesizeFacts d).EndsWithDegradations := by
  refine ⟨h.accounts, fun components handlers => ⟨?_, ?_⟩, fun d => ⟨?_, ?_⟩⟩
  · exact (y.procedure_reachable handlers components [] h).accounts
  · exact y.procedure_endsWithDegradations handlers components r fun d => List.not_mem_nil
  · have hservices := y.servicesRegistry_reachable d
    exact (y.procedure_reachable d.handlers d.components _ hservices).accounts
  · apply y.procedure_endsWithDegradations
    exact undegraded_map (fun c d => Finding.noConfusion) _

/-- Two components that need each other, an object of a type without a recipe, and the answer to the
lookup of no known identifier. -/
def mixedRegistry : Registry :=
  let registered := ((Registry.new {}).registerComponents Registry.knot).2
  ((registered.ambient ⟨"app.Unknown"⟩).2.unresolved TypeName.view).2

theorem mixedRegistry_reachable : Reachable mixedRegistry :=
  ((Registry.knotRegistry_reachable.step (.ambient ⟨"app.Unknown"⟩) rfl).step
    (.unresolved TypeName.view) rfl)

/-- All but the last of its degenerate stand-ins are recorded; the object has to be, as it is neither
a typed null nor such an answer. -/
theorem mixed_accounted : Reachable mixedRegistry ∧
    (mixedRegistry.standIns.filter (·.isDegenerate)).map (·.id) = [⟨0⟩, ⟨3⟩, ⟨4⟩] ∧
    mixedRegistry.degradations.map (·.standIn) = [⟨0⟩, ⟨3⟩] ∧
    mixedRegistry.degradations.countP (·.standIn == ⟨3⟩) = 1 ∧
    (synthesize {} [] [] mixedRegistry).EndsWithDegradations := by
  obtain ⟨haccounts, hsynthesized, -⟩ := degradations_accounted {} mixedRegistry_reachable
  obtain ⟨y, hy, hdegenerate⟩ : ∃ y, mixedRegistry.get? ⟨3⟩ = some y ∧ y.isDegenerate = true :=
    ⟨⟨⟨3⟩, ⟨"app.Unknown"⟩, .ambient, .degenerate, "ambientUnknown"⟩, by decide +kernel, rfl⟩
  have hnulls : mixedRegistry.store.typedNulls = [(⟨"app.Left"⟩, ⟨0⟩)] := by decide +kernel
  have hanswers : mixedRegistry.store.unresolved = [(TypeName.view, ⟨4⟩)] := by decide +kernel
  refine ⟨mixedRegistry_reachable, by decide +kernel, by decide +kernel, ?_,
    (hsynthesized [] []).2⟩
  refine haccounts.once ⟨3⟩ y hy hdegenerate (fun t ht => ?_) (fun t ht => ?_)
  · have hmem := Workshop.mem_of_lookup ht
    simp [hnulls] at hmem
  · have hmem := Workshop.mem_of_lookup ht
    simp [hanswers] at hmem

end Synthesizer
end AppDriver
