import AppDriver.Lifecycle.Order
import Mathlib.Data.List.Nodup

/-! The step that is placed next, and the queue it is taken from. What is ready can be said by the
steps placed so far alone. The queue reaches the same by counting: while the arcs from the last
placed step are released, the count of every step is that of the arcs which still lead to it, and
the queue holds the steps without any that are not placed. -/

namespace AppDriver.Protocol

variable {p : Protocol} {placed : List Nat} {c : Countdown} {left : Nat → Nat} {i j : Nat}

/-- The order of steps by their phases, and within a phase by their declaration. -/
def Sooner (p : Protocol) (i j : Nat) : Prop :=
  p.rankAt i < p.rankAt j ∨ p.rankAt i = p.rankAt j ∧ i < j

theorem mem_ready {i : Nat} : i ∈ p.ready placed ↔
    i < p.steps.length ∧ i ∉ placed ∧ ∀ a, p.precedes a i = true → a ∈ placed := by
  have hbound : ∀ a, p.precedes a i = true → a < p.steps.length := by
    intro a ha
    by_contra hge
    rw [precedes, List.getElem?_eq_none (Nat.le_of_not_lt hge)] at ha
    cases ha
  simp only [ready, isReady, List.mem_filter, List.mem_range, Bool.and_eq_true,
    Bool.not_eq_true', List.all_eq_true, Bool.or_eq_true, List.contains_eq_mem,
    decide_eq_true_eq, decide_eq_false_iff_not]
  constructor
  · rintro ⟨hi, hnew, hall⟩
    refine ⟨hi, hnew, fun a ha => ?_⟩
    rcases hall a (hbound a ha) with hno | hyes
    · rw [ha] at hno
      cases hno
    · exact hyes
  · rintro ⟨hi, hnew, hall⟩
    refine ⟨hi, hnew, fun a _ => ?_⟩
    cases ha : p.precedes a i with
    | false => exact Or.inl rfl
    | true => exact Or.inr (hall a ha)

theorem inPhase_iff {i : Nat} (hi : i < p.steps.length) {phase : Phase} :
    p.inPhase phase i = true ↔ p.rankAt i = phase.rank := by
  rw [inPhase, rankAt, List.getElem?_eq_getElem hi]
  simp only [Option.any_some, Option.elim_some, beq_iff_eq]
  exact ⟨fun h => by rw [h], fun h => Phase.rank_injective h⟩

/-- The next step is ready, and no ready step is of an earlier phase. -/
theorem next?_eq_some {i : Nat} (h : p.next? placed = some i) :
    i ∈ p.ready placed ∧ ∀ j ∈ p.ready placed, p.rankAt i ≤ p.rankAt j := by
  obtain ⟨earlier, phase, later, hall, hfind, hnone⟩ := List.findSome?_eq_some_iff.1 h
  have hmem : i ∈ p.ready placed := List.mem_of_find?_eq_some hfind
  have hrank : p.rankAt i = phase.rank :=
    (inPhase_iff (mem_ready.1 hmem).1).1 (by simpa using List.find?_some hfind)
  refine ⟨hmem, fun j hj => ?_⟩
  by_contra hlt
  have hjlen := (mem_ready.1 hj).1
  have hjrank : p.rankAt j = p.steps[j].phase.rank := by
    rw [rankAt, List.getElem?_eq_getElem hjlen]
    rfl
  have hsorted : Phase.all.Pairwise fun a b => a.rank ≤ b.rank := by decide
  have hjall : p.steps[j].phase ∈ Phase.all := by cases p.steps[j].phase <;> decide
  rw [hall] at hsorted hjall
  rcases List.mem_append.1 hjall with hearlier | hlater
  · have hmiss := List.find?_eq_none.1 (hnone _ hearlier) j hj
    exact hmiss ((inPhase_iff hjlen).2 hjrank)
  · have hle : phase.rank ≤ p.steps[j].phase.rank := by
      rcases List.mem_cons.1 hlater with heq | hlater
      · exact Nat.le_of_eq (congrArg Phase.rank heq.symm)
      · exact (List.pairwise_cons.1 (List.pairwise_append.1 hsorted).2.1).1 _ hlater
    omega

theorem rankAt_of_getElem? {i : Nat} {s : LifecycleStep} (h : p.steps[i]? = some s) :
    p.rankAt i = s.phase.rank := by
  rw [rankAt, h]
  rfl

theorem exists_next? (hi : i ∈ p.ready placed) : ∃ k, p.next? placed = some k := by
  cases hnext : p.next? placed with
  | some k => exact ⟨k, rfl⟩
  | none =>
      have hlt := (mem_ready.1 hi).1
      have hrank : p.rankAt i = p.steps[i].phase.rank :=
        rankAt_of_getElem? (List.getElem?_eq_getElem hlt)
      have hphase : p.steps[i].phase ∈ Phase.all := by cases p.steps[i].phase <;> decide
      have hmiss := List.findSome?_eq_none_iff.1 hnext _ hphase
      have hfail := List.find?_eq_none.1 hmiss i hi
      exact (hfail ((inPhase_iff hlt).2 hrank)).elim

/-- The next step is the soonest of those that are ready. -/
theorem next?_soonest (h : p.next? placed = some i) (hj : j ∈ p.ready placed) :
    j = i ∨ p.Sooner i j := by
  have hrank := (next?_eq_some h).2 j hj
  rcases Nat.lt_or_eq_of_le hrank with hlt | heq
  · exact Or.inr (Or.inl hlt)
  obtain ⟨-, phase, -, -, hfind, -⟩ := List.findSome?_eq_some_iff.1 h
  obtain ⟨hphase, earlier, later, hsplit, hearlier⟩ := List.find?_eq_some_iff_append.1 hfind
  have hi : i ∈ p.ready placed := List.mem_of_find?_eq_some hfind
  have hsame : p.inPhase phase j = true := (inPhase_iff (mem_ready.1 hj).1).2
    (heq.symm.trans ((inPhase_iff (mem_ready.1 hi).1).1 hphase))
  have hsorted : (p.ready placed).Pairwise (· < ·) := List.pairwise_lt_range.filter _
  rw [hsplit] at hj hsorted
  rcases List.mem_append.1 hj with hbefore | hafter
  · have hfail := hearlier j hbefore
    rw [hsame] at hfail
    cases hfail
  · rcases List.mem_cons.1 hafter with rfl | hafter
    · exact Or.inl rfl
    · have hlt := (List.pairwise_cons.1 (List.pairwise_append.1 hsorted).2.1).1 j hafter
      exact Or.inr (Or.inr ⟨heq, hlt⟩)

/-! ### The queue -/

theorem mem_arcs {a b : Nat} : (a, b) ∈ p.arcs ↔ p.precedes a b = true := by
  have hphase : (a, b) ∈ (List.range p.steps.length).flatMap (fun a =>
      ((List.range p.steps.length).filter (p.phasePrecedes a)).map (a, ·)) ↔
      a < p.steps.length ∧ b < p.steps.length ∧ p.phasePrecedes a b = true := by
    simp only [List.mem_flatMap, List.mem_map, List.mem_filter, List.mem_range, Prod.mk.injEq]
    constructor
    · rintro ⟨_, ha, _, hb, rfl, rfl⟩
      exact ⟨ha, hb⟩
    · rintro ⟨ha, hb⟩
      exact ⟨a, ha, b, hb, rfl, rfl⟩
  rw [arcs, List.mem_append, List.mem_filter, hphase]
  by_cases hbound : a < p.steps.length ∧ b < p.steps.length
  · simp [precedes, phasePrecedes, hbound.1, hbound.2]
  · have hnot : p.precedes a b = false := by
      rw [precedes]
      split
      · rename_i s t hs ht
        exact (hbound ⟨(List.getElem?_eq_some_iff.1 hs).1,
          (List.getElem?_eq_some_iff.1 ht).1⟩).elim
      · rfl
    simp only [Bool.and_eq_true, decide_eq_true_eq, hnot, Bool.false_eq_true, iff_false]
    tauto

/-- How many arcs lead to a step from steps that are not placed. -/
def arcsLeft (p : Protocol) (placed : List Nat) (i : Nat) : Nat :=
  p.arcs.countP fun e => e.2 == i && !placed.contains e.1

/-- What a countdown says about the steps: how many arcs are left for each, and which of them can be
taken next. -/
structure Counts (p : Protocol) (placed : List Nat) (left : Nat → Nat) (c : Countdown) : Prop where
  degrees : c.degrees = (List.range p.steps.length).map left
  queued : ∀ i, i ∈ c.queue ↔ i < p.steps.length ∧ i ∉ placed ∧ left i = 0
  nodup : c.queue.Nodup
  ordered : c.queue.Pairwise (p.goesFirst · ·)
  done : ∀ i ∈ placed, left i = 0

theorem goesFirst_iff : p.goesFirst i j = true ↔ i = j ∨ p.Sooner i j := by
  simp only [goesFirst, Bool.or_eq_true, Bool.and_eq_true, decide_eq_true_eq, beq_iff_eq, Sooner]
  constructor
  · rintro (hlt | ⟨heq, hle⟩)
    · exact Or.inr (Or.inl hlt)
    · rcases Nat.lt_or_eq_of_le hle with hlt | rfl
      · exact Or.inr (Or.inr ⟨heq, hlt⟩)
      · exact Or.inl rfl
  · rintro (rfl | hlt | ⟨heq, hlt⟩)
    · exact Or.inr ⟨rfl, Nat.le_refl _⟩
    · exact Or.inl hlt
    · exact Or.inr ⟨heq, Nat.le_of_lt hlt⟩

theorem insertInOrder_ordered (p : Protocol) (i : Nat) {queue : List Nat}
    (h : queue.Pairwise (p.goesFirst · ·)) :
    (insertInOrder p.goesFirst i queue).Pairwise (p.goesFirst · ·) := by
  apply insertInOrder_pairwise _ _ i h
  · intro a b
    simp only [goesFirst, Bool.or_eq_true, Bool.and_eq_true, decide_eq_true_eq, beq_iff_eq]
    omega
  · intro a b c
    simp only [goesFirst, Bool.or_eq_true, Bool.and_eq_true, decide_eq_true_eq, beq_iff_eq]
    omega

/-- After an arc is released, one less is left for the step it leads to. -/
theorem Counts.release (h : p.Counts placed left c) (hi : i < p.steps.length)
    (hleft : 0 < left i) :
    p.Counts placed (fun j => left j - if i = j then 1 else 0) (p.release c i) := by
  have hnew : i ∉ placed := fun hold => by
    rw [h.done i hold] at hleft
    exact Nat.lt_irrefl 0 hleft
  have hout : i ∉ c.queue := fun hin => by
    rw [((h.queued i).1 hin).2.2] at hleft
    exact Nat.lt_irrefl 0 hleft
  have hdegrees : c.degrees.modify i (· - 1) =
      (List.range p.steps.length).map fun j => left j - if i = j then 1 else 0 := by
    rw [h.degrees]
    apply List.ext_getElem?
    intro k
    rw [List.getElem?_modify]
    by_cases hk : k < p.steps.length
    · simp only [List.getElem?_map, List.getElem?_range hk, Option.map_some, Option.map_eq_map]
      split <;> rfl
    · simp [hk]
  have hdone : ∀ j ∈ placed, (left j - if i = j then 1 else 0) = 0 := fun j hj => by
    rw [h.done j hj, Nat.zero_sub]
  have hqueued : ∀ j, (j < p.steps.length ∧ j ∉ placed ∧ (left j - if i = j then 1 else 0) = 0) ↔
      j = i ∧ left i = 1 ∨ j ∈ c.queue := by
    intro j
    rw [h.queued]
    by_cases hj : i = j
    · subst hj
      simp only [hi, hnew, not_false_eq_true, if_true, true_and]
      omega
    · simp [hj, Ne.symm hj]
  rw [Protocol.release, hdegrees]
  simp only [List.getElem?_map, List.getElem?_range, hi, Option.map_some, if_true]
  split
  · rename_i hlast
    have hone : left i = 1 := by
      have hzero : left i - 1 = 0 := Option.some.inj hlast
      omega
    refine ⟨rfl, fun j => ?_, ?_, p.insertInOrder_ordered i h.ordered, hdone⟩
    · rw [hqueued, mem_insertInOrder]
      simp [hone]
    · exact (insertInOrder_perm _ i c.queue).nodup_iff.2 (List.nodup_cons.2 ⟨hout, h.nodup⟩)
  · rename_i hmore
    have hone : left i ≠ 1 := fun hone => hmore (by rw [hone])
    refine ⟨rfl, fun j => ?_, h.nodup, h.ordered, hdone⟩
    rw [hqueued]
    simp [hone]

theorem Counts.releaseAll {targets : List Nat} (h : p.Counts placed left c)
    (hbound : ∀ i ∈ targets, i < p.steps.length) (hleft : ∀ i, targets.count i ≤ left i) :
    p.Counts placed (fun i => left i - targets.count i) (targets.foldl p.release c) := by
  induction targets generalizing left c with
  | nil => exact h
  | cons i targets ih =>
      have hcount : ∀ j, (i :: targets).count j = targets.count j + if i = j then 1 else 0 := by
        intro j
        rw [List.count_cons]
        simp
      have hi : 0 < left i := by
        have hle := hleft i
        rw [hcount, if_pos rfl] at hle
        omega
      have hone := h.release (hbound i List.mem_cons_self) hi
      have hall := ih hone (fun j hj => hbound j (List.mem_cons_of_mem _ hj)) fun j => by
        have hle := hleft j
        rw [hcount] at hle
        omega
      have hsub : (fun j => left j - (i :: targets).count j) =
          fun j => left j - (if i = j then 1 else 0) - targets.count j := by
        funext j
        rw [hcount]
        omega
      rw [hsub]
      exact hall

/-- Placing a step takes away the arcs from it. -/
theorem arcsLeft_append (hi : i ∉ placed) (j : Nat) :
    p.arcsLeft placed j = p.arcsLeft (placed ++ [i]) j + (p.successors i).count j := by
  rw [arcsLeft, arcsLeft, successors]
  induction p.arcs with
  | nil => rfl
  | cons e arcs ih =>
      rw [List.countP_cons, List.countP_cons, List.filter_cons, ih]
      by_cases hfrom : e.1 = i
      · by_cases hto : e.2 = j
        · simp [hfrom, hto, hi]
          omega
        · simp [hfrom, hto]
      · simp [hfrom]
        omega

/-- Taking the first step off the queue and releasing its successors. -/
theorem Counts.takeNext {degrees queue : List Nat}
    (h : p.Counts placed (p.arcsLeft placed) ⟨degrees, i :: queue⟩) :
    p.Counts (placed ++ [i]) (p.arcsLeft (placed ++ [i]))
      ((p.successors i).foldl p.release ⟨degrees, queue⟩) := by
  obtain ⟨-, hnew, hzero⟩ := (h.queued i).1 List.mem_cons_self
  obtain ⟨hout, hnodup⟩ := List.nodup_cons.1 h.nodup
  have htaken : p.Counts (placed ++ [i]) (p.arcsLeft placed) ⟨degrees, queue⟩ := by
    refine ⟨h.degrees, fun j => ?_, hnodup, (List.pairwise_cons.1 h.ordered).2, fun j hj => ?_⟩
    · have hj := h.queued j
      rw [List.mem_cons] at hj
      rw [List.mem_append, List.mem_singleton]
      constructor
      · intro hin
        obtain ⟨hlt, hnot, hnone⟩ := hj.1 (Or.inr hin)
        refine ⟨hlt, ?_, hnone⟩
        rintro (hold | rfl)
        · exact hnot hold
        · exact hout hin
      · rintro ⟨hlt, hnot, hnone⟩
        exact (hj.2 ⟨hlt, fun hold => hnot (Or.inl hold), hnone⟩).resolve_left fun heq =>
          hnot (Or.inr heq)
    · rcases List.mem_append.1 hj with hold | hlast
      · exact h.done j hold
      · rw [List.mem_singleton.1 hlast]
        exact hzero
  have hbound : ∀ j ∈ p.successors i, j < p.steps.length := by
    intro j hj
    obtain ⟨⟨a, b⟩, he, rfl⟩ := List.mem_map.1 hj
    have hprecedes := mem_arcs.1 (List.mem_filter.1 he).1
    rw [precedes] at hprecedes
    split at hprecedes
    · rename_i ht
      exact (List.getElem?_eq_some_iff.1 ht).1
    · cases hprecedes
  have hall := htaken.releaseAll hbound fun j => by
    rw [p.arcsLeft_append hnew]
    exact Nat.le_add_left _ _
  have hsub : p.arcsLeft (placed ++ [i]) =
      fun j => p.arcsLeft placed j - (p.successors i).count j := by
    funext j
    rw [p.arcsLeft_append hnew, Nat.add_sub_cancel]
  rw [hsub]
  exact hall

/-- The queue holds what is ready, so its first step is the next one. -/
theorem Counts.next?_eq (h : p.Counts placed (p.arcsLeft placed) c) :
    p.next? placed = c.queue.head? := by
  have hready : ∀ j, j ∈ c.queue ↔ j ∈ p.ready placed := by
    intro j
    rw [h.queued, mem_ready, arcsLeft, List.countP_eq_zero]
    refine and_congr_right fun _ => and_congr_right fun _ => ?_
    constructor
    · intro hnone a ha
      simpa using hnone (a, j) (mem_arcs.2 ha)
    · rintro hall ⟨a, b⟩ he hcount
      simp only [Bool.and_eq_true, beq_iff_eq, Bool.not_eq_true', List.contains_eq_mem,
        decide_eq_false_iff_not] at hcount
      obtain ⟨rfl, hnot⟩ := hcount
      exact hnot (hall a (mem_arcs.1 he))
  cases hqueue : c.queue with
  | nil =>
      cases hnext : p.next? placed with
      | none => rfl
      | some k =>
          have hk := (hready k).2 (next?_eq_some hnext).1
          rw [hqueue] at hk
          cases hk
  | cons i queue =>
      have hi : i ∈ p.ready placed := (hready i).1 (hqueue ▸ List.mem_cons_self)
      obtain ⟨k, hnext⟩ := exists_next? hi
      rw [hnext, List.head?_cons]
      have hk : k ∈ i :: queue := hqueue ▸ (hready k).2 (next?_eq_some hnext).1
      have hordered := h.ordered
      rw [hqueue] at hordered
      rcases List.mem_cons.1 hk with rfl | hlater
      · rfl
      · rcases goesFirst_iff.1 ((List.pairwise_cons.1 hordered).1 k hlater) with rfl | hfirst
        · rfl
        · rcases next?_soonest hnext hi with rfl | hsecond
          · rfl
          · unfold Sooner at hfirst hsecond
            omega

theorem countdown_counts (p : Protocol) : p.Counts [] (p.arcsLeft []) p.countdown := by
  have hdegree : p.arcsLeft [] = p.inDegree := by
    funext i
    simp [arcsLeft, inDegree]
  have hperm := sorted_perm p.goesFirst
    ((List.range p.steps.length).filter fun i => p.inDegree i == 0)
  rw [hdegree]
  refine ⟨rfl, fun i => ?_, ?_, ?_, fun i hi => (List.not_mem_nil hi).elim⟩
  · rw [countdown, hperm.mem_iff]
    simp
  · exact hperm.nodup_iff.2 (List.nodup_range.filter _)
  · generalize hfree : (List.range p.steps.length).filter (fun i => p.inDegree i == 0) = free
    rw [countdown, hfree]
    clear hfree
    induction free with
    | nil => exact .nil
    | cons i free ih => exact p.insertInOrder_ordered i ih

/-- Taking steps off the queue places them. -/
theorem Counts.placeMore_eq (h : p.Counts placed (p.arcsLeft placed) c) (n : Nat) :
    p.placeMore n placed = placed ++ p.takeMore n c := by
  induction n generalizing placed c with
  | zero => exact (List.append_nil placed).symm
  | succ n ih =>
      rw [placeMore, takeMore, h.next?_eq]
      obtain ⟨degrees, queue⟩ := c
      cases queue with
      | nil => exact (List.append_nil placed).symm
      | cons i queue =>
          simp only [List.head?_cons]
          rw [ih h.takeNext, List.append_assoc]
          rfl

theorem taken_eq (p : Protocol) : p.taken = p.reached := by
  rw [reached, p.countdown_counts.placeMore_eq, List.nil_append]
  rfl

/-- The canonical order lists the steps that can be placed, each as the soonest of those that are
ready, and then the others. -/
theorem canonicalIndices_eq (p : Protocol) : p.canonicalIndices = p.reached ++ p.unreached := by
  rw [canonicalIndices, taken_eq]
  rfl

end AppDriver.Protocol
