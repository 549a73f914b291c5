import AppDriver.Proofs.LinearExtensions
import AppDriver.Proofs.PlacementOrder

/-! Where overrides are placed. The place of an override is an odd number if it has a slot, and an
even one right before the first teardown slot if it names no step. So the overrides without a step
stand together, in the order in which they were given, after all that is created or active and
before all that is torn down, whichever phases have steps. Between steps, the canonical order of a
valid protocol respects every chain of edges, and with it the placed overrides do. -/

namespace AppDriver.Protocol

open Relation (ReflTransGen TransGen)

variable {p : Protocol} {order : List LifecycleStep}

/-- Whether every override with `P` is placed before every override with `Q`. -/
def PlacedBefore (P Q : PlacedOverride → Prop) (placed : List PlacedOverride) : Prop :=
  ∀ (i j : Nat) (x y : PlacedOverride), placed[i]? = some x → placed[j]? = some y → P x → Q y → i < j

/-- The overrides of a component along a protocol: the phases never decrease, and an override with
the signature of a step has its phase. What names no step is active, stands between the other active
overrides and the teardown, and keeps the order in which it was given. Chains of edges are respected
by the overrides with the signatures of their ends. -/
structure FollowsSteps (p : Protocol) (overrides : List Signature) (placed : List PlacedOverride) :
    Prop where
  phases : placed.Pairwise fun x y => x.phase.rank ≤ y.phase.rank
  exact : ∀ x ∈ placed, ∀ s ∈ p.steps, x.method.same s.method = true → x.phase = s.phase
  unmatched : ∀ x ∈ placed, x.unmatched = true ↔ ∀ s ∈ p.steps, s.method.name ≠ x.method.name
  active : ∀ x ∈ placed, x.unmatched = true → x.phase = .active
  afterMatched : PlacedBefore (fun x => x.unmatched = false ∧ x.phase ≠ .teardown)
    (fun x => x.unmatched = true) placed
  beforeTeardown : PlacedBefore (fun x => x.unmatched = true)
    (fun x => x.unmatched = false ∧ x.phase = .teardown) placed
  inputOrder : (placed.filter (·.unmatched)).map (·.method) =
    overrides.filter fun m => p.steps.all (·.method.name != m.name)
  chains : ∀ a b s t, ReflTransGen (fun i j => (i, j) ∈ p.edges) a b → a ≠ b →
    p.steps[a]? = some s → p.steps[b]? = some t →
    PlacedBefore (fun x => x.method.same s.method = true) (fun x => x.method.same t.method = true)
      placed

theorem placedBefore_of_pairwise {P Q : PlacedOverride → Prop} {placed : List PlacedOverride}
    (hapart : ∀ x, P x → ¬Q x) (h : placed.Pairwise fun x y => Q x → ¬P y) :
    PlacedBefore P Q placed := by
  intro i j x y hx hy hP hQ
  obtain ⟨hi, rfl⟩ := List.getElem?_eq_some_iff.1 hx
  obtain ⟨hj, rfl⟩ := List.getElem?_eq_some_iff.1 hy
  rcases Nat.lt_trichotomy i j with hlt | heq | hgt
  · exact hlt
  · subst heq
    exact (hapart _ hP hQ).elim
  · exact (List.pairwise_iff_getElem.1 h j i hj hi hgt hQ hP).elim

/-! ### Places -/

/-- An override has no slot exactly if no step has its name. -/
theorem slot?_eq_none_iff {m : Signature} :
    slot? order m = none ↔ ∀ s ∈ order, s.method.name ≠ m.name := by
  rw [slot?, Option.or_eq_none_iff, List.findIdx?_eq_none_iff, List.findIdx?_eq_none_iff]
  constructor
  · rintro ⟨-, hname⟩ s hs
    simpa using hname s hs
  · intro hname
    refine ⟨fun s hs => ?_, fun s hs => by simpa using hname s hs⟩
    rw [Bool.eq_false_iff]
    exact fun hsame => hname s hs (Signature.same_iff.1 hsame).1

theorem slot?_lt_length {m : Signature} {i : Nat} (h : slot? order m = some i) :
    i < order.length := by
  rcases Option.or_eq_some_iff.1 h with hexact | ⟨-, hname⟩
  · exact (List.findIdx?_eq_some_iff_getElem.1 hexact).1
  · exact (List.findIdx?_eq_some_iff_getElem.1 hname).1

/-- An override is unmatched exactly if no step has its name. -/
theorem unmatched_placeOne {m : Signature} :
    (placeOne order m).2.unmatched = true ↔ ∀ s ∈ order, s.method.name ≠ m.name := by
  rw [← slot?_eq_none_iff, placeOne]
  cases hslot : slot? order m with
  | none => simp
  | some i => simp [List.getElem?_eq_getElem (slot?_lt_length hslot)]

theorem place_of_unmatched {m : Signature} (h : (placeOne order m).2.unmatched = true) :
    placeOne order m = (2 * teardownStart order, ⟨m, .active, true⟩) := by
  rcases placeOne_cases order m with ⟨i, s, -, heq⟩ | heq
  · rw [heq] at h
    cases h
  · exact heq

theorem place_of_matched {m : Signature} (h : (placeOne order m).2.unmatched = false) :
    ∃ i s, order[i]? = some s ∧ placeOne order m = (2 * i + 1, ⟨m, s.phase, false⟩) := by
  rcases placeOne_cases order m with hslot | heq
  · exact hslot
  · rw [heq] at h
    cases h

theorem exists_of_mem_place {overrides : List Signature} {x : PlacedOverride}
    (hx : x ∈ p.place overrides) : ∃ m ∈ overrides, x = (placeOne p.canonicalOrder m).2 := by
  obtain ⟨q, hq, rfl⟩ := List.mem_map.1 hx
  obtain ⟨m, hm, rfl⟩ := List.mem_map.1 ((sorted_perm _ _).mem_iff.1 hq)
  exact ⟨m, hm, rfl⟩

/-! ### Overrides without a step -/

section Valid

variable (hp : p.Valid) (overrides : List Signature)

include hp

theorem place_unmatched_iff {x : PlacedOverride} (hx : x ∈ p.place overrides) :
    x.unmatched = true ↔ ∀ s ∈ p.steps, s.method.name ≠ x.method.name := by
  obtain ⟨m, -, rfl⟩ := exists_of_mem_place hx
  rw [unmatched_placeOne, method_placeOne]
  simp only [hp.mem_canonicalOrder]

/-- What is matched outside the teardown has a slot before the first teardown step. -/
theorem place_afterMatched :
    PlacedBefore (fun x => x.unmatched = false ∧ x.phase ≠ .teardown)
      (fun x => x.unmatched = true) (p.place overrides) := by
  refine placedBefore_of_pairwise ?_ (p.place_pairwise (fun m m' hle hm hm' => ?_) overrides)
  · rintro x ⟨hmatched, -⟩ hunmatched
    rw [hmatched] at hunmatched
    cases hunmatched
  · obtain ⟨j, t, ht, heq⟩ := place_of_matched hm'.1
    rw [place_of_unmatched hm, heq] at hle
    rw [heq] at hm'
    exact hm'.2 (phase_from_teardownStart hp.phase_le ht (by simp only at hle; omega))

omit hp in
/-- What is matched in the teardown has a slot from the first teardown step on. -/
theorem place_beforeTeardown :
    PlacedBefore (fun x => x.unmatched = true)
      (fun x => x.unmatched = false ∧ x.phase = .teardown) (p.place overrides) := by
  refine placedBefore_of_pairwise ?_ (p.place_pairwise (fun m m' hle hm hm' => ?_) overrides)
  · rintro x hunmatched ⟨hmatched, -⟩
    rw [hmatched] at hunmatched
    cases hunmatched
  · obtain ⟨i, s, hs, heq⟩ := place_of_matched hm.1
    rw [place_of_unmatched hm', heq] at hle
    have hrank := phase_before_teardownStart hs (by simp only at hle; omega)
    have hphase : s.phase = .teardown := by
      rw [heq] at hm
      exact hm.2
    rw [hphase] at hrank
    exact absurd hrank (by decide)

/-- The overrides without a step are all at one place, and sorting keeps their order. -/
theorem place_inputOrder :
    ((p.place overrides).filter (·.unmatched)).map (·.method) =
      overrides.filter fun m => p.steps.all (·.method.name != m.name) := by
  have hplaces : ∀ a ∈ overrides.map (placeOne p.canonicalOrder),
      ∀ b ∈ overrides.map (placeOne p.canonicalOrder), a.2.unmatched = true →
        b.2.unmatched = true → decide (a.1 ≤ b.1) = true := by
    intro a ha b hb ha' hb'
    obtain ⟨m, -, rfl⟩ := List.mem_map.1 ha
    obtain ⟨m', -, rfl⟩ := List.mem_map.1 hb
    rw [place_of_unmatched ha', place_of_unmatched hb']
    exact decide_eq_true (Nat.le_refl _)
  have hforeign : ∀ m : Signature, (placeOne p.canonicalOrder m).2.unmatched =
      p.steps.all (·.method.name != m.name) := by
    intro m
    rw [Bool.eq_iff_iff, unmatched_placeOne]
    simp [hp.mem_canonicalOrder]
  have hkept : (sorted (fun a b => decide (a.1 ≤ b.1))
      (overrides.map (placeOne p.canonicalOrder))).filter (fun a => a.2.unmatched) = _ :=
    filter_sorted hplaces
  rw [place, List.filter_map, List.map_map]
  change List.map (fun q : Nat × PlacedOverride => q.2.method)
    (List.filter (fun a : Nat × PlacedOverride => a.2.unmatched) _) = _
  rw [hkept, List.filter_map, map_method_placeOne]
  exact List.filter_congr fun m _ => hforeign m

/-! ### Overrides of steps -/

theorem place_exact {x : PlacedOverride} (hx : x ∈ p.place overrides) {s : LifecycleStep}
    (hs : s ∈ p.steps) (hsame : x.method.same s.method = true) : x.phase = s.phase := by
  obtain ⟨m, -, rfl⟩ := exists_of_mem_place hx
  rw [method_placeOne] at hsame
  obtain ⟨i, hi, hplace⟩ := placeOne_exact hp hs hsame
  rcases placeOne_cases p.canonicalOrder m with ⟨j, t, ht, heq⟩ | heq
  · rw [heq] at hplace ⊢
    obtain rfl : j = i := by simp only at hplace; omega
    rw [ht] at hi
    cases hi
    rfl
  · rw [heq] at hplace
    simp only at hplace
    omega

omit overrides in
/-- Along a chain of edges, the first step comes before the last one. -/
theorem Valid.chain_lt {a b : Nat} (hchain : TransGen (fun i j => (i, j) ∈ p.edges) a b)
    {s t : LifecycleStep} (hs : p.steps[a]? = some s) (ht : p.steps[b]? = some t) {i j : Nat}
    (hi : p.canonicalOrder[i]? = some s) (hj : p.canonicalOrder[j]? = some t) : i < j := by
  induction hchain generalizing t j with
  | single hedge => exact hp.edge_lt hedge hs ht hi hj
  | tail _ hedge ih =>
      obtain ⟨u, -, hu, -, -⟩ := hp.forward _ hedge
      obtain ⟨k, hk⟩ := List.getElem?_of_mem (hp.mem_canonicalOrder.2 (List.mem_of_getElem? hu))
      exact (ih hu hk).trans (hp.edge_lt hedge hu ht hk hj)

theorem place_chains {a b : Nat} {s t : LifecycleStep}
    (hchain : ReflTransGen (fun i j => (i, j) ∈ p.edges) a b) (hab : a ≠ b)
    (hs : p.steps[a]? = some s) (ht : p.steps[b]? = some t) :
    PlacedBefore (fun x => x.method.same s.method = true) (fun x => x.method.same t.method = true)
      (p.place overrides) := by
  obtain rfl | hchain := Relation.reflTransGen_iff_eq_or_transGen.1 hchain
  · exact (hab rfl).elim
  refine placedBefore_of_pairwise (fun x hx hx' => ?_) ?_
  · rw [Signature.same_comm] at hx
    exact hab (hp.index_unique hs ht (Signature.same_trans hx hx'))
  · exact (place_of_lt hp (List.mem_of_getElem? hs) (List.mem_of_getElem? ht)
      (hp.chain_lt hchain hs ht) overrides).imp fun h hx hy => h ⟨hx, hy⟩

end Valid

/-- **Placed overrides.** Placing overrides along any protocol rearranges them and drops none. Along
a protocol that is accepted, they follow its phases and its chains of edges, and those that name no
step run in the order in which they were given, right before the teardown. -/
theorem overrides_placed (p : Protocol) (overrides : List Signature) :
    ((p.place overrides).map (·.method)).Perm overrides ∧
      (p.validate = .ok () → p.FollowsSteps overrides (p.place overrides)) := by
  refine ⟨p.map_method_place overrides, fun hvalidate => ?_⟩
  have hp := valid_of_fault? (p.validate_ok_iff.1 hvalidate)
  exact {
    phases := place_phases hp overrides
    exact := fun _ hx _ => place_exact hp overrides hx
    unmatched := fun _ hx => place_unmatched_iff hp overrides hx
    active := fun x hx hunmatched => by
      obtain ⟨m, -, rfl⟩ := exists_of_mem_place hx
      rw [place_of_unmatched hunmatched]
    afterMatched := place_afterMatched hp overrides
    beforeTeardown := place_beforeTeardown overrides
    inputOrder := place_inputOrder hp overrides
    chains := fun _ _ _ _ => place_chains hp overrides }

/-- Overrides of an activity, two of which name no step and one of which has other parameters than
the step of its name. -/
def activityOverrides : List Signature :=
  [{ name := "onDestroy" }, { name := "refresh" }, { name := "onStart" }, { name := "reload" },
    { name := "onCreate" }]

theorem activityOverrides_placed : shuffledActivity.validate = .ok () ∧
    shuffledActivity.FollowsSteps activityOverrides (shuffledActivity.place activityOverrides) := by
  have hvalid : shuffledActivity.validate = .ok () := by decide +kernel
  exact ⟨hvalid, (overrides_placed shuffledActivity activityOverrides).2 hvalid⟩

example : (shuffledActivity.place activityOverrides).map (fun x => (x.method.name, x.unmatched)) =
    [("onCreate", false), ("onStart", false), ("refresh", true), ("reload", true),
      ("onDestroy", false)] := by
  decide +kernel

end AppDriver.Protocol
