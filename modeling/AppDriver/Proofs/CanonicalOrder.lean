import AppDriver.Lifecycle.Validity
import AppDriver.Proofs.ReadyQueue

/-! The canonical order of a protocol. Each step is placed when all its predecessors are, and with
the least phase among those, so no step comes before one that has to happen first. Where no edge
leads back to an earlier phase, the phases never decrease either: a step of an earlier phase that is
still to come has a predecessor to wait for, which is of an earlier phase as well, and the first of
these could have been placed at once. -/

namespace AppDriver.Protocol

variable {p : Protocol} {placed rest : List Nat}

/-! ### Placing one step after the other -/

/-- Whether the steps of a list are placed in this order, each as the next one, after those that are
placed already. -/
def Greedy (p : Protocol) : List Nat → List Nat → Prop
  | _, [] => True
  | placed, i :: rest => p.next? placed = some i ∧ p.Greedy (placed ++ [i]) rest

theorem placeMore_greedy (p : Protocol) (n : Nat) (placed : List Nat) :
    ∃ rest, p.placeMore n placed = placed ++ rest ∧ p.Greedy placed rest := by
  induction n generalizing placed with
  | zero => exact ⟨[], (List.append_nil placed).symm, trivial⟩
  | succ n ih =>
      rw [placeMore]
      split
      · exact ⟨[], (List.append_nil placed).symm, trivial⟩
      · rename_i i hnext
        obtain ⟨rest, hplaced, hrest⟩ := ih (placed ++ [i])
        refine ⟨i :: rest, ?_, hnext, hrest⟩
        rw [hplaced, List.append_assoc]
        rfl

theorem reached_greedy (p : Protocol) : p.Greedy [] p.reached := by
  obtain ⟨rest, hreached, hrest⟩ := p.placeMore_greedy p.steps.length []
  rw [reached, hreached]
  exact hrest

/-- Every step is new, comes after all its predecessors, and no other step could have been placed in
its stead that is of an earlier phase. -/
theorem Greedy.getElem (h : p.Greedy placed rest) {i : Nat} (hi : i < rest.length) :
    rest[i] ∈ p.ready (placed ++ rest.take i) ∧
      ∀ j ∈ p.ready (placed ++ rest.take i), p.rankAt rest[i] ≤ p.rankAt j := by
  induction rest generalizing placed i with
  | nil => cases hi
  | cons a rest ih =>
      cases i with
      | zero =>
          rw [List.take_zero, List.append_nil]
          exact next?_eq_some h.1
      | succ i =>
          have hlater := ih h.2 (Nat.lt_of_succ_lt_succ hi)
          rw [List.append_assoc] at hlater
          exact hlater

/-- No step comes after one that it has to precede, nor is it its own predecessor. -/
theorem Greedy.not_precedes (h : p.Greedy placed rest) {i j : Nat} (hij : i ≤ j)
    (hj : j < rest.length) : p.precedes rest[j] rest[i] = false := by
  rw [Bool.eq_false_iff]
  intro hprecedes
  have hi := (mem_ready.1 (h.getElem (Nat.lt_of_le_of_lt hij hj)).1).2.2 _ hprecedes
  apply (mem_ready.1 (h.getElem hj).1).2.1
  rcases List.mem_append.1 hi with hplaced | htake
  · exact List.mem_append_left _ hplaced
  · exact List.mem_append_right _ (List.take_subset_take_left rest hij htake)

theorem Greedy.nodup (h : p.Greedy placed rest) : rest.Nodup := by
  refine List.pairwise_iff_getElem.2 fun i j hi hj hij heq => ?_
  apply (mem_ready.1 (h.getElem hj).1).2.1
  rw [← heq]
  exact List.mem_append_right _
    (List.mem_take_iff_getElem.2 ⟨i, Nat.lt_min.2 ⟨hij, hi⟩, rfl⟩)

/-- Where predecessors are never of a later phase, the phases never decrease. The induction is on
the position of the later step: all its predecessors that come after the earlier step are of no
earlier phase, so it would have been ready in the place of the earlier one. -/
theorem Greedy.rankAt_le (h : p.Greedy placed rest)
    (hforward : ∀ a b, p.precedes a b = true → p.rankAt a ≤ p.rankAt b) {i : Nat} (k : Nat)
    (hik : i ≤ k) (hk : k < rest.length) : p.rankAt rest[i] ≤ p.rankAt rest[k] := by
  induction k using Nat.strongRecOn with
  | ind k ih =>
      by_contra hlt
      have hready := mem_ready.1 (h.getElem hk).1
      apply hlt
      apply (h.getElem (Nat.lt_of_le_of_lt hik hk)).2
      refine mem_ready.2 ⟨hready.1, ?_, ?_⟩
      · intro hold
        apply hready.2.1
        rcases List.mem_append.1 hold with hplaced | htake
        · exact List.mem_append_left _ hplaced
        · exact List.mem_append_right _ (List.take_subset_take_left rest hik htake)
      · intro a ha
        rcases List.mem_append.1 (hready.2.2 a ha) with hplaced | htake
        · exact List.mem_append_left _ hplaced
        · obtain ⟨m, hm, rfl⟩ := List.mem_take_iff_getElem.1 htake
          have hmk := (Nat.lt_min.1 hm).1
          have hrank := hforward _ _ ha
          have hmi : m < i := by
            by_contra hge
            have hle := ih m hmk (Nat.le_of_not_lt hge) (Nat.lt_min.1 hm).2
            omega
          exact List.mem_append_right _ (List.mem_take_iff_getElem.2
            ⟨m, Nat.lt_min.2 ⟨hmi, (Nat.lt_min.1 hm).2⟩, rfl⟩)

/-! ### Valid protocols -/

/-- What the absence of faults says: no signature occurs twice, the edges join existing steps and
never lead back to an earlier phase, and every step can be placed. -/
structure Valid (p : Protocol) : Prop where
  distinct : p.steps.Pairwise fun s t => s.method.same t.method = false
  forward : ∀ e ∈ p.edges, ∃ s t, p.steps[e.1]? = some s ∧ p.steps[e.2]? = some t ∧
    s.phase.rank ≤ t.phase.rank
  acyclic : p.isCyclic = false

/-- Steps are accepted if they have names, and signatures that no earlier step has. -/
theorem stepsFault?_eq_none_iff {earlier steps : List LifecycleStep} :
    p.stepsFault? earlier steps = none ↔ (∀ s ∈ steps, s.method.name ≠ "") ∧
      (∀ s ∈ earlier, ∀ t ∈ steps, s.method.same t.method = false) ∧
      steps.Pairwise fun s t => s.method.same t.method = false := by
  induction steps generalizing earlier with
  | nil => simp [stepsFault?]
  | cons u steps ih =>
      rw [stepsFault?]
      split
      · rename_i hempty
        simp [String.isEmpty_iff.1 hempty]
      · rename_i hnamed
        have hname : u.method.name ≠ "" := mt String.isEmpty_iff.2 hnamed
        split
        · rename_i htaken
          obtain ⟨s, hs, hsame⟩ := List.any_eq_true.1 htaken
          refine iff_of_false (by simp) fun h => ?_
          have hnot := h.2.1 s hs u List.mem_cons_self
          rw [hsame] at hnot
          cases hnot
        · rename_i hnew
          have hu : ∀ s ∈ earlier, s.method.same u.method = false := by simpa using hnew
          rw [ih]
          constructor
          · rintro ⟨hnames, hearlier, hsteps⟩
            refine ⟨List.forall_mem_cons.2 ⟨hname, hnames⟩, fun s hs => ?_, ?_⟩
            · exact List.forall_mem_cons.2
                ⟨hu s hs, hearlier s (List.mem_append_left _ hs)⟩
            · exact List.pairwise_cons.2
                ⟨hearlier u (List.mem_append_right _ List.mem_cons_self), hsteps⟩
          · rintro ⟨hnames, hearlier, hsteps⟩
            obtain ⟨hfirst, hrest⟩ := List.pairwise_cons.1 hsteps
            refine ⟨fun s hs => hnames s (List.mem_cons_of_mem _ hs), fun s hs t ht => ?_, hrest⟩
            rcases List.mem_append.1 hs with hs | hs
            · exact hearlier s hs t (List.mem_cons_of_mem _ ht)
            · obtain rfl := List.mem_singleton.1 hs
              exact hfirst t ht

theorem edgeFault?_eq_none_iff {e : Nat × Nat} : p.edgeFault? e = none ↔
    ∃ s t, p.steps[e.1]? = some s ∧ p.steps[e.2]? = some t ∧ s.phase.rank ≤ t.phase.rank := by
  rw [edgeFault?]
  split
  · rename_i s t hs ht
    simp [hs, ht]
  · rename_i hnone
    refine iff_of_false (by simp) ?_
    rintro ⟨s, t, hs, ht, -⟩
    exact hnone s t hs ht

theorem validate_ok_iff (p : Protocol) : p.validate = .ok () ↔ p.fault? = none := by
  rw [validate]
  cases p.fault? <;> simp

/-- Nothing is wrong with a protocol exactly if its steps are named and it is valid. -/
theorem fault?_eq_none_iff (p : Protocol) :
    p.fault? = none ↔ (∀ s ∈ p.steps, s.method.name ≠ "") ∧ p.Valid := by
  rw [fault?, Option.or_eq_none_iff, Option.or_eq_none_iff, stepsFault?_eq_none_iff,
    List.findSome?_eq_none_iff]
  constructor
  · rintro ⟨⟨hnames, -, hdistinct⟩, hedges, hcycle⟩
    refine ⟨hnames, hdistinct, fun e he => edgeFault?_eq_none_iff.1 (hedges e he), ?_⟩
    simpa using hcycle
  · rintro ⟨hnames, hvalid⟩
    refine ⟨⟨hnames, fun s hs => (List.not_mem_nil hs).elim, hvalid.distinct⟩,
      fun e he => edgeFault?_eq_none_iff.2 (hvalid.forward e he), ?_⟩
    rw [hvalid.acyclic]
    rfl

theorem valid_of_fault? (h : p.fault? = none) : p.Valid := (p.fault?_eq_none_iff.1 h).2

/-- Two steps of one signature are the same one. -/
theorem Valid.index_unique (hp : p.Valid) {i j : Nat} {s t : LifecycleStep}
    (hs : p.steps[i]? = some s) (ht : p.steps[j]? = some t)
    (hsame : s.method.same t.method = true) : i = j := by
  obtain ⟨hi, rfl⟩ := List.getElem?_eq_some_iff.1 hs
  obtain ⟨hj, rfl⟩ := List.getElem?_eq_some_iff.1 ht
  have hdistinct := List.pairwise_iff_getElem.1 hp.distinct
  rcases Nat.lt_trichotomy i j with hlt | heq | hgt
  · rw [hdistinct i j hi hj hlt] at hsame
    cases hsame
  · exact heq
  · rw [Signature.same_comm, hdistinct j i hj hi hgt] at hsame
    cases hsame

theorem Valid.rankAt_le (hp : p.Valid) {a b : Nat} (h : p.precedes a b = true) :
    p.rankAt a ≤ p.rankAt b := by
  rw [precedes] at h
  split at h
  · rename_i s t hs ht
    rw [rankAt_of_getElem? hs, rankAt_of_getElem? ht]
    rcases Bool.or_eq_true_iff.1 h with hedge | hnext
    · obtain ⟨s', t', hs', ht', hle⟩ := hp.forward (a, b) (by simpa using hedge)
      rw [hs] at hs'
      rw [ht] at ht'
      cases hs'
      cases ht'
      exact hle
    · revert hnext
      cases s.phase <;> cases t.phase <;> decide
  · cases h

theorem Valid.precedes_of_edge (hp : p.Valid) {a b : Nat} (h : (a, b) ∈ p.edges) :
    p.precedes a b = true := by
  obtain ⟨s, t, hs, ht, -⟩ := hp.forward (a, b) h
  simp only at hs ht
  rw [precedes, hs, ht]
  simp [h]

/-! ### The canonical order of a valid protocol -/

theorem lt_length_of_mem_reached (p : Protocol) {i : Nat} (hi : i ∈ p.reached) :
    i < p.steps.length := by
  obtain ⟨k, hk, rfl⟩ := List.mem_iff_getElem.1 hi
  exact (mem_ready.1 (p.reached_greedy.getElem hk).1).1

theorem Valid.mem_reached (hp : p.Valid) {i : Nat} (hi : i < p.steps.length) : i ∈ p.reached := by
  have hnone : p.unreached = [] := by simpa [isCyclic] using hp.acyclic
  have hkept := List.filter_eq_nil_iff.1 hnone i (List.mem_range.2 hi)
  simpa using hkept

theorem getElem?_filterMap {f : α → Option β} {as : List α} (h : ∀ a ∈ as, (f a).isSome = true)
    (k : Nat) : (as.filterMap f)[k]? = (as[k]?).bind f := by
  induction as generalizing k with
  | nil => rfl
  | cons a as ih =>
      obtain ⟨b, hb⟩ := Option.isSome_iff_exists.1 (h a List.mem_cons_self)
      rw [List.filterMap_cons_some hb]
      cases k with
      | zero => exact hb.symm
      | succ k => exact ih (fun a' ha' => h a' (List.mem_cons_of_mem _ ha')) k

/-- The canonical order of a valid protocol lists the steps as they are placed. -/
theorem Valid.getElem?_canonicalOrder (hp : p.Valid) (k : Nat) :
    p.canonicalOrder[k]? = (p.reached[k]?).bind (p.steps[·]?) := by
  have hnone : p.unreached = [] := by simpa [isCyclic] using hp.acyclic
  rw [canonicalOrder, canonicalIndices_eq, hnone, List.append_nil]
  apply getElem?_filterMap
  intro i hi
  rw [List.getElem?_eq_getElem (p.lt_length_of_mem_reached hi)]
  rfl

theorem Valid.mem_canonicalOrder (hp : p.Valid) {s : LifecycleStep} :
    s ∈ p.canonicalOrder ↔ s ∈ p.steps := by
  constructor
  · intro hs
    obtain ⟨i, -, hi⟩ := List.mem_filterMap.1 hs
    exact List.mem_of_getElem? hi
  · intro hs
    obtain ⟨i, hi, rfl⟩ := List.mem_iff_getElem.1 hs
    refine List.mem_filterMap.2 ⟨i, ?_, List.getElem?_eq_getElem hi⟩
    rw [canonicalIndices_eq]
    exact List.mem_append_left _ (hp.mem_reached hi)

/-- The phases never decrease along the canonical order. -/
theorem Valid.phase_le (hp : p.Valid) {i j : Nat} (hij : i ≤ j) {s t : LifecycleStep}
    (hs : p.canonicalOrder[i]? = some s) (ht : p.canonicalOrder[j]? = some t) :
    s.phase.rank ≤ t.phase.rank := by
  rw [hp.getElem?_canonicalOrder] at hs ht
  obtain ⟨a, ha, hs⟩ := Option.bind_eq_some_iff.1 hs
  obtain ⟨b, hb, ht⟩ := Option.bind_eq_some_iff.1 ht
  obtain ⟨hi, rfl⟩ := List.getElem?_eq_some_iff.1 ha
  obtain ⟨hj, rfl⟩ := List.getElem?_eq_some_iff.1 hb
  rw [← rankAt_of_getElem? hs, ← rankAt_of_getElem? ht]
  exact p.reached_greedy.rankAt_le (fun _ _ h => hp.rankAt_le h) j hij hj

/-- The first step of an edge comes before the second one. -/
theorem Valid.edge_lt (hp : p.Valid) {a b : Nat} (hedge : (a, b) ∈ p.edges)
    {s t : LifecycleStep} (hs : p.steps[a]? = some s) (ht : p.steps[b]? = some t) {i j : Nat}
    (hi : p.canonicalOrder[i]? = some s) (hj : p.canonicalOrder[j]? = some t) : i < j := by
  by_contra hge
  rw [hp.getElem?_canonicalOrder] at hi hj
  obtain ⟨a', ha, hs'⟩ := Option.bind_eq_some_iff.1 hi
  obtain ⟨b', hb, ht'⟩ := Option.bind_eq_some_iff.1 hj
  obtain rfl := hp.index_unique hs' hs (Signature.same_refl _)
  obtain rfl := hp.index_unique ht' ht (Signature.same_refl _)
  obtain ⟨hilt, rfl⟩ := List.getElem?_eq_some_iff.1 ha
  obtain ⟨hjlt, rfl⟩ := List.getElem?_eq_some_iff.1 hb
  have hnot := p.reached_greedy.not_precedes (Nat.le_of_not_lt hge) hilt
  rw [hp.precedes_of_edge hedge] at hnot
  cases hnot

/-- The steps that an edge joins have different signatures. -/
theorem Valid.edge_not_same (hp : p.Valid) {a b : Nat} (hedge : (a, b) ∈ p.edges)
    {s t : LifecycleStep} (hs : p.steps[a]? = some s) (ht : p.steps[b]? = some t) :
    s.method.same t.method = false := by
  rw [Bool.eq_false_iff]
  intro hsame
  obtain rfl := hp.index_unique hs ht hsame
  obtain ⟨i, hi⟩ := List.getElem?_of_mem (hp.mem_canonicalOrder.2 (List.mem_of_getElem? hs))
  rw [hs] at ht
  cases ht
  exact absurd (hp.edge_lt hedge hs hs hi hi) (Nat.lt_irrefl i)

end AppDriver.Protocol
