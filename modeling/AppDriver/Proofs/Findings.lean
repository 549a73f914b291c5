import AppDriver.Proofs.CallBlocks

/-! What synthesis reports, and when. The findings only grow. What is wrong with the declarations of
identifiers, components and handlers is reported before the first section is begun; from then on
only listeners, overrides and arguments are reported on. -/

namespace AppDriver

/-- The findings that can be reported while the sections are made. -/
inductive Finding.IsOnCalls : Finding → Prop
  | listener (component interface : TypeName) : IsOnCalls (.unknownListener component interface)
  | override (component : TypeName) (method : Signature) (kind : ComponentKind) :
    IsOnCalls (.unmatchedOverride component method kind)
  | view (id : ResourceId) (method : Signature) (type : TypeName) :
    IsOnCalls (.componentIdentifier id method type)
  | parameter (index : Nat) (method : Signature) (count fanout : Nat) :
    IsOnCalls (.cappedParameter index method count fanout)
  | tuples (method : Signature) (fanout : Nat) : IsOnCalls (.cappedTuples method fanout)

namespace Progress

variable {a b c s s' : Progress}

/-- Whether only findings on calls are added between two states. -/
def AddsOnCalls (s s' : Progress) : Prop :=
  ∃ more, s'.findings = s.findings ++ more ∧ ∀ f ∈ more, f.IsOnCalls

theorem AddsOnCalls.of_eq (h : s'.findings = s.findings) : s.AddsOnCalls s' :=
  ⟨[], by rw [h, List.append_nil], fun _ hf => (List.not_mem_nil hf).elim⟩

theorem AddsOnCalls.refl (s : Progress) : s.AddsOnCalls s := .of_eq rfl

theorem AddsOnCalls.trans (h : a.AddsOnCalls b) (h' : b.AddsOnCalls c) : a.AddsOnCalls c := by
  obtain ⟨more, hmore, hcalls⟩ := h
  obtain ⟨more', hmore', hcalls'⟩ := h'
  refine ⟨more ++ more', by rw [hmore', hmore, List.append_assoc], fun f hf => ?_⟩
  exact (List.mem_append.1 hf).elim (hcalls f) (hcalls' f)

theorem addsOnCalls_reportAll (s : Progress) {fs : List Finding} (h : ∀ f ∈ fs, f.IsOnCalls) :
    s.AddsOnCalls (s.reportAll fs) := ⟨fs, rfl, h⟩

theorem addsOnCalls_report (s : Progress) {f : Finding} (h : f.IsOnCalls) :
    s.AddsOnCalls (s.report f) :=
  ⟨[f], rfl, fun _ hg => List.mem_singleton.1 hg ▸ h⟩

end Progress

open Progress (AddsOnCalls)

/-! ### Arguments -/

namespace CallbackTarget

variable (t : CallbackTarget) (fanout : Nat) (s : Progress)

theorem candidatesByType_adds (index : Nat) (param : TypeName) :
    s.AddsOnCalls (t.candidatesByType fanout index param s).2 := by
  rw [candidatesByType]
  split
  · exact .of_eq rfl
  · dsimp only
    split
    · exact .of_eq rfl
    · split
      · exact s.addsOnCalls_report (.parameter _ _ _ _)
      · exact .refl s

theorem candidates_adds (slot : TypeName × Nat) :
    s.AddsOnCalls (t.candidates fanout slot s).2 := by
  rw [candidates]
  dsimp only
  split
  · exact .of_eq rfl
  · split
    · exact t.candidatesByType_adds fanout s _ _
    · rename_i id _
      have hview : s.AddsOnCalls (s.withRegistry (s.registry.resolveDeclared id slot.1)).2 :=
        .of_eq rfl
      split
      · exact hview
      · exact (hview.trans (Progress.addsOnCalls_report _ (.view _ _ _))).trans
          (t.candidatesByType_adds fanout _ _ _)

theorem tuples_adds : s.AddsOnCalls (t.tuples fanout s).2 := by
  have hvalues := threadMap_rel AddsOnCalls.refl AddsOnCalls.trans t.method.params.zipIdx
    (fun slot _ s => t.candidates_adds (max fanout 1) s slot) s
  rw [tuples]
  dsimp only
  split
  · exact hvalues.trans (Progress.addsOnCalls_report _ (.tuples _ _))
  · exact hvalues

end CallbackTarget

/-! ### Sections -/

namespace Synthesizer

variable (y : Synthesizer) (handlers : List HandlerBinding)

theorem targets_adds (c : Component) (receiver : StandInRef) (ts : List CallbackTarget)
    (s : Progress) : s.AddsOnCalls (threadFlatMap (y.calls c receiver) ts s).2 :=
  threadMap_rel AddsOnCalls.refl AddsOnCalls.trans (f := y.calls c receiver) ts
    (fun t _ s => t.tuples_adds y.config.fabrication.maxArgumentFanout s) s

theorem orderedSection_adds (d : Component × StandInRef) (s : Progress) :
    s.AddsOnCalls (y.orderedSection handlers d s).2 := by
  refine (s.addsOnCalls_reportAll fun f hf => ?_).trans (y.targets_adds d.1 d.2 _ _)
  rcases List.mem_append.1 hf with hf | hf
  · obtain ⟨l, -, rfl⟩ := List.mem_map.1 hf
    exact .listener _ _
  · obtain ⟨p, -, rfl⟩ := List.mem_map.1 hf
    exact .override _ _ _

theorem unorderedSection_adds (ds : List (Component × StandInRef)) (s : Progress) :
    s.AddsOnCalls (y.unorderedSection handlers ds s).2 :=
  threadMap_rel AddsOnCalls.refl AddsOnCalls.trans
    (f := fun (e : Reentry) => threadFlatMap (y.calls e.component e.receiver) e.targets) _
    (fun e _ s => y.targets_adds e.component e.receiver e.targets s) s

/-- The findings of a synthesis: those made before, what its declarations are reported for, and then
findings on calls. -/
theorem closing_findings (components : List Component) (registry : Registry)
    (findings : List Finding) :
    ∃ more, (y.closing handlers components registry findings).findings =
        findings ++ (acceptComponents [] components).2 ++
          y.unreachedHandlers handlers (y.driven components) ++ more ∧
      ∀ f ∈ more, f.IsOnCalls := by
  have hordered := threadMap_rel AddsOnCalls.refl AddsOnCalls.trans
    (y.instances components registry) (fun d _ s => y.orderedSection_adds handlers d s)
    (y.opening handlers components registry findings)
  exact hordered.trans (y.unorderedSection_adds handlers _ _)

theorem acceptComponents_findings {seen : List TypeName} {cs : List Component} {f : Finding}
    (hf : f ∈ (acceptComponents seen cs).2) : ∃ name, f = .duplicateComponent name := by
  induction cs generalizing seen with
  | nil => exact (List.not_mem_nil hf).elim
  | cons c cs ih =>
      rw [acceptComponents] at hf
      split at hf
      · rcases List.mem_cons.1 hf with rfl | hf
        · exact ⟨c.name, rfl⟩
        · exact ih hf
      · exact ih hf

end Synthesizer
end AppDriver
