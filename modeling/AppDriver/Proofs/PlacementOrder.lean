import AppDriver.Lifecycle.Placement
import AppDriver.Proofs.CanonicalOrder

/-! Overrides along a protocol. An override takes the phase of its slot, and one without a slot is
active and comes right before the teardown, so the order of the slots is an order of the phases. An
override with the signature of a step has the slot of this step and of no other, so the overrides of
two steps that an edge joins are placed in the order of the edge. -/

namespace AppDriver

/-- Nothing comes after the teardown. -/
theorem Phase.eq_teardown {a b : Phase} (ha : a = .teardown) (hle : a.rank ≤ b.rank) :
    b = .teardown := by
  rw [ha] at hle
  revert hle
  cases b <;> decide

namespace Protocol

/-! ### Slots -/

section Slots

variable {order : List LifecycleStep}
  (hphases : ∀ {i j : Nat}, i ≤ j → ∀ {s t : LifecycleStep}, order[i]? = some s →
    order[j]? = some t → s.phase.rank ≤ t.phase.rank)

theorem placeOne_cases (order : List LifecycleStep) (m : Signature) :
    (∃ i s, order[i]? = some s ∧ placeOne order m = (2 * i + 1, ⟨m, s.phase, false⟩)) ∨
      placeOne order m = (2 * teardownStart order, ⟨m, .active, true⟩) := by
  rw [placeOne]
  split
  · rename_i i phase hslot
    obtain ⟨k, -, hk⟩ := Option.bind_eq_some_iff.1 hslot
    obtain ⟨s, hs, heq⟩ := Option.map_eq_some_iff.1 hk
    cases heq
    exact Or.inl ⟨i, s, hs, rfl⟩
  · exact Or.inr rfl

theorem method_placeOne (order : List LifecycleStep) (m : Signature) :
    (placeOne order m).2.method = m := by
  rcases placeOne_cases order m with ⟨i, s, -, heq⟩ | heq <;> rw [heq]

theorem map_method_placeOne (order : List LifecycleStep) (overrides : List Signature) :
    (overrides.map (placeOne order)).map (fun q => q.2.method) = overrides := by
  rw [List.map_map]
  exact (List.map_congr_left fun m _ => method_placeOne order m).trans (List.map_id overrides)

theorem phase_before_teardownStart {i : Nat} {s : LifecycleStep} (hs : order[i]? = some s)
    (hi : i < teardownStart order) : s.phase.rank ≤ Phase.active.rank := by
  obtain ⟨hlt, rfl⟩ := List.getElem?_eq_some_iff.1 hs
  have hnot := List.not_of_lt_findIdx hi
  revert hnot
  cases order[i].phase <;> decide

include hphases in
theorem phase_from_teardownStart {i : Nat} {s : LifecycleStep} (hs : order[i]? = some s)
    (hi : teardownStart order ≤ i) : s.phase = .teardown := by
  have hlt : teardownStart order < order.length :=
    Nat.lt_of_le_of_lt hi (List.getElem?_eq_some_iff.1 hs).1
  have hfirst : order[teardownStart order].phase = .teardown :=
    beq_iff_eq.1 (List.findIdx_getElem (w := hlt))
  exact Phase.eq_teardown hfirst (hphases hi (List.getElem?_eq_getElem hlt) hs)

include hphases in
/-- A later place is never of an earlier phase. -/
theorem placeOne_phase_le {m m' : Signature}
    (h : (placeOne order m).1 ≤ (placeOne order m').1) :
    (placeOne order m).2.phase.rank ≤ (placeOne order m').2.phase.rank := by
  rcases placeOne_cases order m with ⟨i, s, hs, heq⟩ | heq <;>
    rcases placeOne_cases order m' with ⟨j, t, ht, heq'⟩ | heq'
  · rw [heq, heq'] at h ⊢
    exact hphases (by simp only at h; omega) hs ht
  · rw [heq, heq'] at h ⊢
    exact phase_before_teardownStart hs (by simp only at h; omega)
  · rw [heq, heq'] at h ⊢
    have hteardown := phase_from_teardownStart hphases ht (by simp only at h; omega)
    rw [hteardown]
    exact Nat.le_succ 1
  · exact Nat.le_of_eq (by rw [heq, heq'])

end Slots

/-! ### Overrides of a valid protocol -/

variable {p : Protocol} (hp : p.Valid)

include hp in
/-- An override with the signature of a step takes the place of this step. -/
theorem placeOne_exact {s : LifecycleStep} (hs : s ∈ p.steps) {m : Signature}
    (hm : m.same s.method = true) :
    ∃ i, p.canonicalOrder[i]? = some s ∧ (placeOne p.canonicalOrder m).1 = 2 * i + 1 := by
  have hmem : s ∈ p.canonicalOrder := hp.mem_canonicalOrder.2 hs
  have hsame : s.method.same m = true := by rw [Signature.same_comm, hm]
  have hfind : (p.canonicalOrder.findIdx? (·.method.same m)).isSome = true :=
    List.findIdx?_isSome.trans (List.any_eq_true.2 ⟨s, hmem, hsame⟩)
  obtain ⟨i, hi⟩ := Option.isSome_iff_exists.1 hfind
  obtain ⟨hlt, hfound, -⟩ := List.findIdx?_eq_some_iff_getElem.1 hi
  have hstep : p.canonicalOrder[i] = s := by
    have hin := hp.mem_canonicalOrder.1 (List.getElem_mem hlt)
    obtain ⟨a, ha⟩ := List.getElem?_of_mem hin
    obtain ⟨b, hb⟩ := List.getElem?_of_mem hs
    have hab := hp.index_unique ha hb (Signature.same_trans hfound hm)
    rw [hab, hb] at ha
    exact (Option.some.inj ha).symm
  refine ⟨i, (List.getElem?_eq_getElem hlt).trans (congrArg some hstep), ?_⟩
  rw [placeOne, slot?, hi]
  simp [List.getElem?_eq_getElem hlt]

/-- What holds between two places in order holds between the placed overrides. -/
theorem place_pairwise {R : PlacedOverride → PlacedOverride → Prop} (p : Protocol)
    (h : ∀ m m', (placeOne p.canonicalOrder m).1 ≤ (placeOne p.canonicalOrder m').1 →
      R (placeOne p.canonicalOrder m).2 (placeOne p.canonicalOrder m').2)
    (overrides : List Signature) : (p.place overrides).Pairwise R := by
  have hsorted : (sorted (fun a b => decide (a.1 ≤ b.1))
      (overrides.map (placeOne p.canonicalOrder))).Pairwise
        fun a b => decide (a.1 ≤ b.1) = true := by
    apply sorted_pairwise
    · intro a b
      simpa using Nat.le_total a.1 b.1
    · intro a b c hab hbc
      simp only [decide_eq_true_eq] at hab hbc ⊢
      exact Nat.le_trans hab hbc
  refine List.pairwise_map.2 (hsorted.imp_of_mem ?_)
  intro x y hx hy hle
  obtain ⟨m, -, rfl⟩ := List.mem_map.1 ((sorted_perm _ _).mem_iff.1 hx)
  obtain ⟨m', -, rfl⟩ := List.mem_map.1 ((sorted_perm _ _).mem_iff.1 hy)
  exact h m m' (of_decide_eq_true hle)

include hp in
/-- The phases never decrease along the placed overrides. -/
theorem place_phases (overrides : List Signature) :
    (p.place overrides).Pairwise fun a b => a.phase.rank ≤ b.phase.rank :=
  p.place_pairwise (fun _ _ hle => placeOne_phase_le hp.phase_le hle) overrides

include hp in
/-- Where one step comes before another, its overrides are placed before those of the other. -/
theorem place_of_lt {s t : LifecycleStep} (hs : s ∈ p.steps) (ht : t ∈ p.steps)
    (hlt : ∀ {i j : Nat}, p.canonicalOrder[i]? = some s → p.canonicalOrder[j]? = some t → i < j)
    (overrides : List Signature) :
    (p.place overrides).Pairwise fun x y =>
      ¬(x.method.same t.method = true ∧ y.method.same s.method = true) := by
  apply p.place_pairwise
  rintro m m' hle ⟨hm, hm'⟩
  rw [method_placeOne] at hm hm'
  obtain ⟨j, hj, hplace⟩ := placeOne_exact hp ht hm
  obtain ⟨i, hi, hplace'⟩ := placeOne_exact hp hs hm'
  have hbefore := hlt hi hj
  omega

include hp in
/-- Along an edge, the overrides of its first step are placed before those of its second step. -/
theorem place_edge {a b : Nat} (hedge : (a, b) ∈ p.edges) {s t : LifecycleStep}
    (hs : p.steps[a]? = some s) (ht : p.steps[b]? = some t) (overrides : List Signature) :
    (p.place overrides).Pairwise fun x y =>
      ¬(x.method.same t.method = true ∧ y.method.same s.method = true) :=
  place_of_lt hp (List.mem_of_getElem? hs) (List.mem_of_getElem? ht)
    (fun hi hj => hp.edge_lt hedge hs ht hi hj) overrides

/-- Placement rearranges the overrides and drops none. -/
theorem map_method_place (p : Protocol) (overrides : List Signature) :
    ((p.place overrides).map (·.method)).Perm overrides := by
  unfold place
  rw [List.map_map]
  exact ((sorted_perm _ _).map _).trans (.of_eq (map_method_placeOne p.canonicalOrder overrides))

end Protocol
end AppDriver
