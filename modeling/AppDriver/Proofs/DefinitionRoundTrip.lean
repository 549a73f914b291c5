import AppDriver.Lifecycle.Definition
import AppDriver.Proofs.LinearExtensions
import AppDriver.Proofs.Threading

/-!
Protocols that are written down and read again. An edge is written as the names of its steps, and a
name is read as the first step that has it. So an edge comes back as the edge between the first steps
of these names, and a protocol comes back as it was exactly if its edges join such steps only. An
edge between two steps of one name is never read back: it becomes a loop.
-/

namespace AppDriver

/-- A step as a definition keeps it: the return type is not written. -/
def LifecycleStep.written (s : LifecycleStep) : LifecycleStep :=
  { s with method := { s.method with returns := none } }

/-- A step as it is written. -/
def LifecycleStep.definition (s : LifecycleStep) : StepDefinition :=
  ⟨s.method.name, s.method.params.map (·.text), s.phase⟩

namespace Protocol

/-- The index at which the name of the step at `i` is found. -/
def firstNamed (p : Protocol) (i : Nat) : Nat :=
  ((p.steps[i]?).bind fun s => p.indexOf? s.method.name).getD i

/-- Whether the step at `i` exists and no step before it has its name. -/
def IsFirstNamed (p : Protocol) (i : Nat) : Prop :=
  ∃ s, p.steps[i]? = some s ∧ p.indexOf? s.method.name = some i

/-- Whether two protocols agree in kind, in steps by name, parameters and phase, and in edges. -/
structure Agrees (p q : Protocol) : Prop where
  kind : q.kind = p.kind
  steps : q.steps.map (fun s => (s.method.name, s.method.params, s.phase)) =
    p.steps.map fun s => (s.method.name, s.method.params, s.phase)
  edges : q.edges = p.edges

/-- What is written comes back unchanged, step by step: names without blanks at their ends, and
types in the form in which they are read. -/
structure Legible (p : Protocol) : Prop where
  names : ∀ s ∈ p.steps, trimBlanks s.method.name = s.method.name
  params : ∀ s ∈ p.steps, ∀ t ∈ s.method.params, TypeName.ofText t.text = t

/-- The protocol that is read from the definition of another one. -/
def reread (p : Protocol) : Protocol where
  kind := p.kind
  steps := p.steps.map LifecycleStep.written
  edges := p.edges.map fun e => (p.firstNamed e.1, p.firstNamed e.2)

variable {p : Protocol}

/-! ### Reading the steps -/

theorem parse?_name (k : ComponentKind) : ComponentKind.parse? k.name = some k := by
  cases k <;> decide +kernel

theorem step?_definition {s : LifecycleStep} (hnamed : s.method.name ≠ "")
    (hname : trimBlanks s.method.name = s.method.name)
    (hparams : ∀ t ∈ s.method.params, TypeName.ofText t.text = t) :
    s.definition.step? = some s.written := by
  have htypes : (s.method.params.map (·.text)).map TypeName.ofText = s.method.params := by
    rw [List.map_map]
    exact (List.map_congr_left hparams).trans (List.map_id _)
  simp only [StepDefinition.step?, LifecycleStep.definition, hname, htypes]
  rw [if_neg (by simpa using hnamed)]
  rfl

/-! ### Reading the edges -/

theorem indexOf?_reread (p : Protocol) (edges : List (Nat × Nat)) (name : String) :
    Protocol.indexOf? ⟨p.kind, p.steps.map LifecycleStep.written, edges⟩ name = p.indexOf? name := by
  rw [indexOf?, List.findIdx?_map]
  rfl

/-- The name of a step finds a step. -/
theorem indexOf?_name {i : Nat} {s : LifecycleStep} (hs : p.steps[i]? = some s) :
    p.indexOf? s.method.name = some (p.firstNamed i) := by
  have hfound : (p.indexOf? s.method.name).isSome = true := by
    rw [indexOf?, List.findIdx?_isSome, List.any_eq_true]
    exact ⟨s, List.mem_of_getElem? hs, beq_self_eq_true _⟩
  obtain ⟨j, hj⟩ := Option.isSome_iff_exists.1 hfound
  rw [firstNamed, hs, Option.bind_some, hj]
  rfl

theorem firstNamed_eq_iff {i : Nat} (hi : i < p.steps.length) :
    p.firstNamed i = i ↔ p.IsFirstNamed i := by
  have hs := List.getElem?_eq_getElem hi
  constructor
  · intro hfirst
    exact ⟨_, hs, (indexOf?_name hs).trans (congrArg some hfirst)⟩
  · rintro ⟨s, hs', hindex⟩
    rw [hs, Option.some.injEq] at hs'
    rw [← hs', indexOf?_name hs] at hindex
    exact Option.some.inj hindex

/-- A written edge is read as the edge between the first steps of its two names. -/
theorem chain_written {e : Nat × Nat} {s t : LifecycleStep} (hs : p.steps[e.1]? = some s)
    (ht : p.steps[e.2]? = some t) (edges : List (Nat × Nat)) :
    Protocol.chain ⟨p.kind, p.steps.map LifecycleStep.written, edges⟩
        [s.method.name, t.method.name] =
      .ok ⟨p.kind, p.steps.map LifecycleStep.written,
        edges ++ [(p.firstNamed e.1, p.firstNamed e.2)]⟩ := by
  simp only [chain, indices, indexOf?_reread, indexOf?_name hs, indexOf?_name ht]
  rfl

/-- The name of the step at an index, where there is one. -/
def nameAt (p : Protocol) (i : Nat) : String := (p.steps[i]?).elim "" (·.method.name)

theorem edgeNames?_eq {e : Nat × Nat} {s t : LifecycleStep} (hs : p.steps[e.1]? = some s)
    (ht : p.steps[e.2]? = some t) : p.edgeNames? e = some [p.nameAt e.1, p.nameAt e.2] := by
  simp only [edgeNames?, nameAt, hs, ht, Option.elim_some]

theorem addChains_written {more : List (Nat × Nat)} (h : ∀ e ∈ more,
      ∃ s t, p.steps[e.1]? = some s ∧ p.steps[e.2]? = some t) (edges : List (Nat × Nat)) :
    addChains ⟨p.kind, p.steps.map LifecycleStep.written, edges⟩
        (more.map fun e => [p.nameAt e.1, p.nameAt e.2]) =
      .ok ⟨p.kind, p.steps.map LifecycleStep.written,
        edges ++ more.map fun e => (p.firstNamed e.1, p.firstNamed e.2)⟩ := by
  induction more generalizing edges with
  | nil => simp [addChains]
  | cons e more ih =>
      obtain ⟨s, t, hs, ht⟩ := h e List.mem_cons_self
      have hread := chain_written hs ht edges
      have hmore := ih (fun e' he' => h e' (List.mem_cons_of_mem e he'))
        (edges ++ [(p.firstNamed e.1, p.firstNamed e.2)])
      rw [List.append_assoc, List.singleton_append] at hmore
      simp only [List.map_cons, addChains, nameAt, hs, ht, Option.elim_some, hread]
      exact hmore

/-! ### The protocol that comes back -/

theorem definition?_eq (hforward : ∀ e ∈ p.edges,
      ∃ s t, p.steps[e.1]? = some s ∧ p.steps[e.2]? = some t) :
    p.definition? = some
      { kind := p.kind.name
        steps := p.steps.map LifecycleStep.definition
        chains := p.edges.map fun e => [p.nameAt e.1, p.nameAt e.2] } := by
  have hchains : p.edges.mapM p.edgeNames? = some (p.edges.map fun e => [p.nameAt e.1, p.nameAt e.2]) :=
    mapM_eq_some_map fun e he => by
      obtain ⟨s, t, hs, ht⟩ := hforward e he
      exact edgeNames?_eq hs ht
  rw [definition?, hchains]
  rfl

/-- What is read is the protocol with every edge led to the first steps of its names, provided that
it is valid. -/
theorem ofDefinition_definition? (hp : p.fault? = none) (hlegible : p.Legible) :
    ∃ d, p.definition? = some d ∧
      ofDefinition d = match p.reread.fault? with
        | some e => .error (.faulty e)
        | none => .ok p.reread := by
  obtain ⟨hnamed, hvalid⟩ := p.fault?_eq_none_iff.1 hp
  have hends : ∀ e ∈ p.edges, ∃ s t, p.steps[e.1]? = some s ∧ p.steps[e.2]? = some t :=
    fun e he => by
      obtain ⟨s, t, hs, ht, -⟩ := hvalid.forward e he
      exact ⟨s, t, hs, ht⟩
  have hstep : ∀ s ∈ p.steps,
      (StepDefinition.step? ∘ LifecycleStep.definition) s = some s.written := fun s hs => by
    rw [Function.comp_apply]
    exact step?_definition (hnamed s hs) (hlegible.names s hs) (hlegible.params s hs)
  have hsteps : (p.steps.map LifecycleStep.definition).mapM StepDefinition.step? =
      some (p.steps.map LifecycleStep.written) := by
    rw [List.mapM_map]
    exact mapM_eq_some_map hstep
  have hchains := addChains_written hends []
  refine ⟨_, definition?_eq hends, ?_⟩
  rw [List.nil_append] at hchains
  simp only [ofDefinition, parse?_name, hsteps, hchains]
  rfl

theorem leads_reread (hedges : p.reread.edges = p.edges) {a b : Nat} (h : p.reread.Leads a b) :
    p.Leads a b := by
  obtain ⟨s, t, hs, ht, hlead⟩ := leads_iff.1 h
  rw [hedges] at hlead
  simp only [reread, List.getElem?_map, Option.map_eq_some_iff] at hs ht
  obtain ⟨s', hs', rfl⟩ := hs
  obtain ⟨t', ht', rfl⟩ := ht
  exact leads_iff.2 ⟨s', t', hs', ht', hlead⟩

/-- Where no edge is led elsewhere, nothing is wrong with what is read. -/
theorem fault?_reread (hp : p.fault? = none) (hedges : p.reread.edges = p.edges) :
    p.reread.fault? = none := by
  obtain ⟨hnamed, hvalid⟩ := p.fault?_eq_none_iff.1 hp
  refine p.reread.fault?_eq_none_iff.2 ⟨?_, ?_, fun e he => ?_, ?_⟩
  · exact List.forall_mem_map.2 hnamed
  · exact List.pairwise_map.2 hvalid.distinct
  · rw [hedges] at he
    obtain ⟨s, t, hs, ht, hle⟩ := hvalid.forward e he
    exact ⟨s.written, t.written, by simp [reread, hs], by simp [reread, ht], hle⟩
  · refine Bool.eq_false_iff.2 fun hcyclic => ?_
    obtain ⟨c, hc⟩ := p.reread.isCyclic_iff.1 hcyclic
    have hcycle : p.isCyclic = true :=
      p.isCyclic_iff.2 ⟨c, Relation.TransGen.mono (fun _ _ => leads_reread hedges) _ _ hc⟩
    rw [hvalid.acyclic] at hcycle
    cases hcycle

theorem reread_edges_iff (hforward : ∀ e ∈ p.edges, e.1 < p.steps.length ∧ e.2 < p.steps.length) :
    p.reread.edges = p.edges ↔ ∀ e ∈ p.edges, p.IsFirstNamed e.1 ∧ p.IsFirstNamed e.2 := by
  have hid : p.reread.edges = p.edges ↔
      ∀ e ∈ p.edges, (p.firstNamed e.1, p.firstNamed e.2) = e := by
    conv_lhs => rw [reread, ← List.map_id p.edges]
    simp only [List.map_map]
    exact List.map_inj_left
  rw [hid]
  refine forall₂_congr fun e he => ?_
  rw [Prod.ext_iff, firstNamed_eq_iff (hforward e he).1, firstNamed_eq_iff (hforward e he).2]

/-- **Written protocols.** A valid protocol with legible steps can always be written. What is read
from it has its kind and its steps, and its edges between the first steps of the names they are
written with. It is accepted, and the same protocol, exactly if every edge joins steps that are the
first of their names. -/
theorem read_definition_iff (hvalid : p.validate = .ok ()) (hlegible : p.Legible) :
    ∃ d, p.definition? = some d ∧
      (∀ q, ofDefinition d = .ok q → p.reread.Agrees q) ∧
      ((∃ q, ofDefinition d = .ok q ∧ p.Agrees q) ↔
        ∀ e ∈ p.edges, p.IsFirstNamed e.1 ∧ p.IsFirstNamed e.2) := by
  have hp := p.validate_ok_iff.1 hvalid
  obtain ⟨-, hforward⟩ := p.fault?_eq_none_iff.1 hp
  obtain ⟨d, hd, hread⟩ := ofDefinition_definition? hp hlegible
  have hinside : ∀ e ∈ p.edges, e.1 < p.steps.length ∧ e.2 < p.steps.length := fun e he =>
    Leads.lt_length (hforward.precedes_of_edge he)
  have honly : ∀ q, ofDefinition d = .ok q → q = p.reread := fun q hq => by
    rw [hread] at hq
    split at hq
    · cases hq
    · cases hq
      rfl
  refine ⟨d, hd, ?_, ?_⟩
  · rintro q hq
    rw [honly q hq]
    exact ⟨rfl, rfl, rfl⟩
  · rw [← reread_edges_iff hinside]
    constructor
    · rintro ⟨q, hq, hagrees⟩
      rw [← honly q hq]
      exact hagrees.edges
    · intro hedges
      refine ⟨p.reread, ?_, rfl, ?_, hedges⟩
      · rw [hread, fault?_reread hp hedges]
      · rw [reread, List.map_map]
        rfl

/-- A service that is started by one of two methods of the same name, one before the other. -/
def overloadedService : Protocol where
  kind := .service
  steps := [⟨{ name := "onCreate" }, .create⟩,
    ⟨{ name := "onStart", params := [⟨"android.content.Intent"⟩] }, .active⟩,
    ⟨{ name := "onStart", params := [⟨"android.content.Intent"⟩, ⟨"int"⟩] }, .active⟩,
    ⟨{ name := "onBind", params := [⟨"android.content.Intent"⟩] }, .active⟩]
  edges := [(1, 3)]

instance (p : Protocol) : Decidable p.Legible :=
  decidable_of_iff ((∀ s ∈ p.steps, trimBlanks s.method.name = s.method.name) ∧
      ∀ s ∈ p.steps, ∀ t ∈ s.method.params, TypeName.ofText t.text = t)
    ⟨fun h => ⟨h.1, h.2⟩, fun h => ⟨h.names, h.params⟩⟩

theorem overloadedService_restored : overloadedService.validate = .ok () ∧
    overloadedService.Legible ∧ ∃ d, overloadedService.definition? = some d ∧
      ∃ q, ofDefinition d = .ok q ∧ overloadedService.Agrees q := by
  have hvalid : overloadedService.validate = .ok () := by decide +kernel
  have hlegible : overloadedService.Legible := by decide +kernel
  obtain ⟨d, hd, -, hiff⟩ := read_definition_iff hvalid hlegible
  have hfirsts : ∀ e ∈ overloadedService.edges,
      overloadedService.IsFirstNamed e.1 ∧ overloadedService.IsFirstNamed e.2 := by
    intro e he
    obtain rfl := List.mem_singleton.1 he
    exact ⟨⟨_, rfl, by decide +kernel⟩, ⟨_, rfl, by decide +kernel⟩⟩
  exact ⟨hvalid, hlegible, d, hd, hiff.2 hfirsts⟩

/-- The edge between the two methods of one name is read as a loop, and the protocol is rejected. -/
theorem overloadedService_rejected :
    let p := { overloadedService with edges := [(1, 2)] }
    p.validate = .ok () ∧ p.Legible ∧
      ∃ d, p.definition? = some d ∧ ofDefinition d = .error (.faulty (.cyclic .service)) :=
  ⟨by decide +kernel, by decide +kernel, _, rfl, by decide +kernel⟩

end Protocol
end AppDriver
