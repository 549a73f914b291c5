import AppDriver.Proofs.CanonicalOrder
import Mathlib.Data.Fintype.Card
import Mathlib.Data.Fintype.EquivFin
import Mathlib.Data.List.Perm.Subperm
import Mathlib.Logic.Relation

/-! The orders in which a protocol can be run, and the canonical one among them. Placing steps stops
only where every step that is left has a predecessor to wait for; since there are finitely many
steps, following such predecessors back ends on a cycle. So a step is placed unless it lies on a
cycle or behind one. Any order that realizes a protocol places only steps that are ready, and where
it first differs from the canonical order it places a later one of these. -/

namespace AppDriver.Protocol

open Relation (TransGen ReflTransGen)

variable {p : Protocol} {placed rest order : List Nat} {i j : Nat}

/-- Whether one element of a list comes before another. -/
def ComesBefore (order : List Nat) (a b : Nat) : Prop :=
  ∃ i j : Nat, i < j ∧ order[i]? = some a ∧ order[j]? = some b

/-- Whether a list is an order of all steps in which no phase comes after a later one and the first
step of every edge comes before the second. -/
structure Realizes (p : Protocol) (order : List Nat) : Prop where
  lists : order.Perm (List.range p.steps.length)
  phases : order.Pairwise fun i j => p.rankAt i ≤ p.rankAt j
  edges : ∀ e ∈ p.edges, ComesBefore order e.1 e.2

/-- Whether a step is required to happen directly before another one. -/
def Leads (p : Protocol) (a b : Nat) : Prop := p.precedes a b = true

/-- Whether a step lies on a cycle or can be reached from one. -/
def BehindCycle (p : Protocol) (i : Nat) : Prop :=
  ∃ c, TransGen p.Leads c c ∧ ReflTransGen p.Leads c i

theorem ComesBefore.trans (horder : order.Nodup) {a b c : Nat} (hab : ComesBefore order a b)
    (hbc : ComesBefore order b c) : ComesBefore order a c := by
  obtain ⟨i, j, hij, hi, hj⟩ := hab
  obtain ⟨j', k, hjk, hj', hk⟩ := hbc
  obtain ⟨hlt, hb⟩ := List.getElem?_eq_some_iff.1 hj
  obtain ⟨hlt', hb'⟩ := List.getElem?_eq_some_iff.1 hj'
  obtain rfl : j = j' := horder.getElem_inj_iff.1 (hb.trans hb'.symm)
  exact ⟨i, k, hij.trans hjk, hi, hk⟩

theorem ComesBefore.irrefl (horder : order.Nodup) (a : Nat) : ¬ComesBefore order a a := by
  rintro ⟨i, j, hij, hi, hj⟩
  obtain ⟨hlt, ha⟩ := List.getElem?_eq_some_iff.1 hi
  obtain ⟨hlt', ha'⟩ := List.getElem?_eq_some_iff.1 hj
  have heq : i = j := horder.getElem_inj_iff.1 (ha.trans ha'.symm)
  omega

/-! ### Required predecessors -/

theorem leads_iff {a b : Nat} : p.Leads a b ↔ ∃ s t, p.steps[a]? = some s ∧ p.steps[b]? = some t ∧
    ((a, b) ∈ p.edges ∨ s.phase.next? = some t.phase) := by
  unfold Leads precedes
  split
  · rename_i s t hs ht
    simp [hs, ht]
  · rename_i hnone
    simp only [Bool.false_eq_true, false_iff]
    rintro ⟨s, t, hs, ht, -⟩
    exact hnone s t hs ht

theorem Leads.lt_length {a b : Nat} (h : p.Leads a b) :
    a < p.steps.length ∧ b < p.steps.length := by
  obtain ⟨s, t, hs, ht, -⟩ := leads_iff.1 h
  exact ⟨(List.getElem?_eq_some_iff.1 hs).1, (List.getElem?_eq_some_iff.1 ht).1⟩

theorem BehindCycle.of_leads {a : Nat} (h : p.BehindCycle a) (hlead : p.Leads a i) :
    p.BehindCycle i := by
  obtain ⟨c, hcycle, hreach⟩ := h
  exact ⟨c, hcycle, hreach.tail hlead⟩

/-! ### Every step that can be placed is placed -/

/-- Placing stops where nothing is ready, or when as many steps are placed as were asked for. -/
theorem placeMore_stops (p : Protocol) (n : Nat) (placed : List Nat) :
    p.next? (p.placeMore n placed) = none ∨
      (p.placeMore n placed).length = placed.length + n := by
  induction n generalizing placed with
  | zero => exact Or.inr rfl
  | succ n ih =>
      rw [placeMore]
      cases hnext : p.next? placed with
      | none => exact Or.inl hnext
      | some k =>
          refine (ih (placed ++ [k])).imp_right fun hlength => ?_
          rw [hlength, List.length_append, List.length_singleton]
          omega

theorem reached_subset (p : Protocol) : p.reached ⊆ List.range p.steps.length :=
  fun _ hi => List.mem_range.2 (p.lt_length_of_mem_reached hi)

/-- No step is ready after those that are placed. -/
theorem not_mem_ready_reached (p : Protocol) (i : Nat) : i ∉ p.ready p.reached := by
  intro hi
  rcases p.placeMore_stops p.steps.length [] with hstop | hall
  · obtain ⟨k, hk⟩ := exists_next? hi
    have hnone : p.next? p.reached = none := hstop
    rw [hnone] at hk
    cases hk
  · have hlength : p.reached.length = p.steps.length := by simpa [reached] using hall
    have hperm := (List.subperm_of_subset p.reached_greedy.nodup p.reached_subset).perm_of_length_le
      (by rw [List.length_range, hlength])
    obtain ⟨hlt, hnew, -⟩ := mem_ready.1 hi
    exact hnew (hperm.mem_iff.2 (List.mem_range.2 hlt))

/-- A step that is behind no cycle is placed. The induction is along the required predecessors; it
is well founded since a step that required itself would be on a cycle. -/
theorem mem_reached_of_not_behind (hi : i < p.steps.length) (hfree : ¬p.BehindCycle i) :
    i ∈ p.reached := by
  let requires (a b : Fin p.steps.length) : Prop := p.Leads a b ∧ ¬p.BehindCycle b
  have hleads : ∀ {a b}, TransGen requires a b → TransGen p.Leads a b := fun {a b} h =>
    h.lift Fin.val fun _ _ hab => hab.1
  have hirrefl : Std.Irrefl (TransGen requires) := by
    refine ⟨fun a ha => ?_⟩
    obtain ⟨b, -, -, hb⟩ := TransGen.tail'_iff.1 ha
    exact hb ⟨a, hleads ha, .refl⟩
  have hwf : WellFounded (TransGen requires) := Finite.wellFounded_of_trans_of_irrefl _
  have hplaced : ∀ b : Fin p.steps.length, ¬p.BehindCycle b → (b : Nat) ∈ p.reached := by
    intro b
    induction b using hwf.induction with
    | _ b ih =>
        intro hb
        by_contra hmissing
        apply p.not_mem_ready_reached b
        refine mem_ready.2 ⟨b.2, hmissing, fun a ha => ?_⟩
        have hlead : p.Leads a b := ha
        exact ih ⟨a, hlead.lt_length.1⟩ (.single ⟨hlead, hb⟩) fun hbehind =>
          hb (hbehind.of_leads hlead)
  exact hplaced ⟨i, hi⟩ hfree

/-- What is required directly before a placed step was placed before it. -/
theorem Leads.reached {a : Nat} (ha : p.Leads a i) (hi : i ∈ p.reached) :
    a ∈ p.reached ∧ ComesBefore p.canonicalIndices a i := by
  obtain ⟨k, hk, rfl⟩ := List.mem_iff_getElem.1 hi
  have hbefore := (mem_ready.1 (p.reached_greedy.getElem hk).1).2.2 a ha
  rw [List.nil_append] at hbefore
  obtain ⟨m, hm, rfl⟩ := List.mem_take_iff_getElem.1 hbefore
  have hmk := (Nat.lt_min.1 hm).1
  refine ⟨List.getElem_mem _, m, k, hmk, ?_, ?_⟩
  · rw [canonicalIndices_eq, List.getElem?_append_left (hmk.trans hk)]
    exact List.getElem?_eq_getElem _
  · rw [canonicalIndices_eq, List.getElem?_append_left hk]
    exact List.getElem?_eq_getElem _

/-- Placed or not, every step is listed once. -/
theorem canonicalIndices_perm (p : Protocol) :
    p.canonicalIndices.Perm (List.range p.steps.length) := by
  have hunreached : ∀ i, i ∈ p.unreached ↔ i < p.steps.length ∧ i ∉ p.reached := by
    simp [unreached]
  have hnodup : p.canonicalIndices.Nodup := by
    rw [canonicalIndices_eq]
    refine List.nodup_append.2 ⟨p.reached_greedy.nodup, List.nodup_range.filter _, ?_⟩
    rintro i hi j hj rfl
    exact ((hunreached i).1 hj).2 hi
  refine (List.perm_ext_iff_of_nodup hnodup List.nodup_range).2 fun i => ?_
  rw [canonicalIndices_eq, List.mem_append, hunreached, List.mem_range]
  constructor
  · rintro (hi | ⟨hi, -⟩)
    · exact p.lt_length_of_mem_reached hi
    · exact hi
  · intro hi
    by_cases hmem : i ∈ p.reached
    · exact Or.inl hmem
    · exact Or.inr ⟨hi, hmem⟩

theorem canonicalIndices_nodup (p : Protocol) : p.canonicalIndices.Nodup :=
  p.canonicalIndices_perm.nodup_iff.2 List.nodup_range

/-- A placed step comes after everything that is required to happen before it. -/
theorem comesBefore_of_reached {a : Nat} (ha : TransGen p.Leads a i) (hi : i ∈ p.reached) :
    ComesBefore p.canonicalIndices a i := by
  induction ha with
  | single hlead => exact (hlead.reached hi).2
  | tail _ hlead ih =>
      obtain ⟨hmem, hbefore⟩ := hlead.reached hi
      exact (ih hmem).trans p.canonicalIndices_nodup hbefore

/-- A protocol is cyclic exactly if some step is required to happen before itself. -/
theorem isCyclic_iff (p : Protocol) : p.isCyclic = true ↔ ∃ c, TransGen p.Leads c c := by
  constructor
  · intro hcyclic
    have hne : p.unreached ≠ [] := by simpa [isCyclic] using hcyclic
    obtain ⟨i, hi⟩ := List.exists_mem_of_ne_nil _ hne
    obtain ⟨hrange, hmissing⟩ := List.mem_filter.1 hi
    by_contra hnone
    have hplaced : i ∈ p.reached := mem_reached_of_not_behind (List.mem_range.1 hrange)
      fun hbehind => hnone (Exists.imp (fun _ h => h.1) hbehind)
    simp [hplaced] at hmissing
  · rintro ⟨c, hc⟩
    by_contra hacyclic
    have hnone : p.unreached = [] := by simpa [isCyclic] using hacyclic
    obtain ⟨b, -, hlead⟩ := TransGen.tail'_iff.1 hc
    have hkept := List.filter_eq_nil_iff.1 hnone c (List.mem_range.2 hlead.lt_length.2)
    have hplaced : c ∈ p.reached := by simpa using hkept
    exact (comesBefore_of_reached hc hplaced).irrefl p.canonicalIndices_nodup

/-! ### The least order -/

/-- Among the orders that place only ready steps, the greedy one is the least. Where another one
differs from it for the first time, it places a step that was ready and not the soonest. -/
theorem Greedy.least (h : p.Greedy placed rest) (hlength : rest.length = order.length)
    (hready : ∀ k (hk : k < order.length), order[k] ∈ p.ready (placed ++ order.take k)) :
    order = rest ∨ List.Lex p.Sooner rest order := by
  induction rest generalizing placed order with
  | nil => exact Or.inl (List.eq_nil_of_length_eq_zero hlength.symm)
  | cons i rest ih =>
      cases order with
      | nil => cases hlength
      | cons j order =>
          have hj : j ∈ p.ready placed := by simpa using hready 0 (Nat.succ_pos _)
          rcases next?_soonest h.1 hj with rfl | hsooner
          · have hlater := ih h.2 (Nat.succ.inj hlength) fun k hk => by
              simpa using hready (k + 1) (Nat.succ_lt_succ hk)
            exact hlater.imp (fun heq => by rw [heq]) .cons
          · exact Or.inr (.rel hsooner)

/-- An order that realizes a protocol places only steps that are ready. -/
theorem Realizes.ready (h : p.Realizes order) {k : Nat} (hk : k < order.length) :
    order[k] ∈ p.ready (order.take k) := by
  have hnodup : order.Nodup := h.lists.nodup_iff.2 List.nodup_range
  have hlt : ∀ i, i ∈ order ↔ i < p.steps.length := fun i => by rw [h.lists.mem_iff, List.mem_range]
  refine mem_ready.2 ⟨(hlt _).1 (List.getElem_mem _), ?_, fun a ha => ?_⟩
  · intro hold
    obtain ⟨m, hm, heq⟩ := List.mem_take_iff_getElem.1 hold
    have hmk := (Nat.lt_min.1 hm).1
    have hsame : m = k := hnodup.getElem_inj_iff.1 heq
    omega
  · have hlead : p.Leads a order[k] := ha
    obtain ⟨m, hm, rfl⟩ := List.mem_iff_getElem.1 ((hlt a).2 hlead.lt_length.1)
    suffices hmk : m < k from List.mem_take_iff_getElem.2 ⟨m, Nat.lt_min.2 ⟨hmk, hm⟩, rfl⟩
    obtain ⟨s, t, hs, ht, hedge | hphase⟩ := leads_iff.1 hlead
    · obtain ⟨i, j, hij, hi, hj⟩ := h.edges _ hedge
      obtain ⟨hilt, hi⟩ := List.getElem?_eq_some_iff.1 hi
      obtain ⟨hjlt, hj⟩ := List.getElem?_eq_some_iff.1 hj
      obtain rfl : i = m := hnodup.getElem_inj_iff.1 hi
      obtain rfl : j = k := hnodup.getElem_inj_iff.1 hj
      exact hij
    · by_contra hge
      have hnext : s.phase.rank < t.phase.rank := by
        revert hphase
        cases s.phase <;> cases t.phase <;> decide
      rw [← rankAt_of_getElem? hs, ← rankAt_of_getElem? ht] at hnext
      rcases Nat.lt_or_eq_of_le (Nat.le_of_not_lt hge) with hlater | rfl
      · have hle := List.pairwise_iff_getElem.1 h.phases k m hk hm hlater
        omega
      · omega

/-! ### Realizable protocols -/

theorem Valid.canonicalIndices_eq_reached (hp : p.Valid) : p.canonicalIndices = p.reached := by
  have hnone : p.unreached = [] := by simpa [isCyclic] using hp.acyclic
  rw [canonicalIndices_eq, hnone, List.append_nil]

theorem Valid.realizes (hp : p.Valid) : p.Realizes p.canonicalIndices where
  lists := p.canonicalIndices_perm
  phases := by
    rw [hp.canonicalIndices_eq_reached]
    exact List.pairwise_iff_getElem.2 fun i j hi hj hij =>
      p.reached_greedy.rankAt_le (fun _ _ h => hp.rankAt_le h) j hij.le hj
  edges e he := by
    have hlead : p.Leads e.1 e.2 := hp.precedes_of_edge he
    exact (hlead.reached (hp.mem_reached hlead.lt_length.2)).2

/-- A protocol that some order realizes has no cycle, as every requirement leads forward in it. -/
theorem Realizes.acyclic (h : p.Realizes order) : p.isCyclic = false := by
  rw [Bool.eq_false_iff]
  intro hcyclic
  obtain ⟨c, hc⟩ := p.isCyclic_iff.1 hcyclic
  have hnodup : order.Nodup := h.lists.nodup_iff.2 List.nodup_range
  have hone : ∀ {a b}, p.Leads a b → ComesBefore order a b := by
    intro a b hlead
    have hb : b ∈ order := h.lists.mem_iff.2 (List.mem_range.2 hlead.lt_length.2)
    obtain ⟨k, hk, rfl⟩ := List.mem_iff_getElem.1 hb
    obtain ⟨m, hm, rfl⟩ := List.mem_take_iff_getElem.1 ((mem_ready.1 (h.ready hk)).2.2 a hlead)
    exact ⟨m, k, (Nat.lt_min.1 hm).1, List.getElem?_eq_getElem _, List.getElem?_eq_getElem hk⟩
  have hbefore : ∀ {a b}, TransGen p.Leads a b → ComesBefore order a b := by
    intro a b hab
    induction hab with
    | single hlead => exact hone hlead
    | tail _ hlead ih => exact ih.trans hnodup (hone hlead)
  exact (hbefore hc).irrefl hnodup

/-- A protocol with distinct steps and an order that realizes it is valid: no edge can lead back to an
earlier phase. -/
theorem Realizes.valid (h : p.Realizes order)
    (hdistinct : p.steps.Pairwise fun s t => s.method.same t.method = false) : p.Valid where
  distinct := hdistinct
  forward e he := by
    obtain ⟨i, j, hij, hi, hj⟩ := h.edges e he
    obtain ⟨hilt, hi⟩ := List.getElem?_eq_some_iff.1 hi
    obtain ⟨hjlt, hj⟩ := List.getElem?_eq_some_iff.1 hj
    have hlt : ∀ k ∈ order, k < p.steps.length := fun k hk =>
      List.mem_range.1 (h.lists.mem_iff.1 hk)
    have hfirst := List.getElem?_eq_getElem (hlt e.1 (hi ▸ List.getElem_mem _))
    have hsecond := List.getElem?_eq_getElem (hlt e.2 (hj ▸ List.getElem_mem _))
    refine ⟨_, _, hfirst, hsecond, ?_⟩
    have hle := List.pairwise_iff_getElem.1 h.phases i j hilt hjlt hij
    rwa [hi, hj, rankAt_of_getElem? hfirst, rankAt_of_getElem? hsecond] at hle
  acyclic := h.acyclic

/-- **The canonical order.** It lists the steps of every protocol, each once, and a step that is
behind no cycle comes after everything that is required to happen before it. The order of a valid
protocol realizes it, and of all the orders that do it is the lexicographically least. -/
theorem canonicalOrder_least (p : Protocol) :
    (p.canonicalIndices.Perm (List.range p.steps.length) ∧
      p.canonicalOrder.map some = p.canonicalIndices.map (p.steps[·]?)) ∧
    (∀ i a, ¬p.BehindCycle i → TransGen p.Leads a i → ComesBefore p.canonicalIndices a i) ∧
    (p.validate = .ok () → p.Realizes p.canonicalIndices ∧
      ∀ order, p.Realizes order →
        order = p.canonicalIndices ∨ List.Lex p.Sooner p.canonicalIndices order) := by
  refine ⟨⟨p.canonicalIndices_perm, ?_⟩, fun i a hfree ha => ?_, fun hvalidate => ?_⟩
  · have hall : ∀ i ∈ p.canonicalIndices, (p.steps[i]?).isSome = true := fun i hi => by
      simpa using p.canonicalIndices_perm.mem_iff.1 hi
    apply List.ext_getElem?
    intro k
    rw [List.getElem?_map, List.getElem?_map, canonicalOrder, getElem?_filterMap hall]
    cases hk : p.canonicalIndices[k]? with
    | none => rfl
    | some i =>
        obtain ⟨s, hs⟩ := Option.isSome_iff_exists.1 (hall i (List.mem_of_getElem? hk))
        simp [hs]
  · obtain ⟨b, -, hlead⟩ := TransGen.tail'_iff.1 ha
    exact comesBefore_of_reached ha (mem_reached_of_not_behind hlead.lt_length.2 hfree)
  · have hvalid := valid_of_fault? (p.validate_ok_iff.1 hvalidate)
    refine ⟨hvalid.realizes, fun order horder => ?_⟩
    rw [hvalid.canonicalIndices_eq_reached]
    have hsame : p.reached.length = order.length := by
      rw [← hvalid.canonicalIndices_eq_reached]
      exact (p.canonicalIndices_perm.trans horder.lists.symm).length_eq
    exact p.reached_greedy.least hsame fun k hk => by simpa using horder.ready hk

/-- The steps of an activity out of order, with two chains among them. -/
def shuffledActivity : Protocol where
  kind := .activity
  steps := [⟨{ name := "onDestroy" }, .teardown⟩, ⟨{ name := "onStart" }, .create⟩,
    ⟨{ name := "onCreate", params := [⟨"android.os.Bundle"⟩] }, .create⟩,
    ⟨{ name := "onResume" }, .active⟩, ⟨{ name := "onPause" }, .teardown⟩]
  edges := [(2, 1), (4, 0)]

theorem shuffledActivity_least : shuffledActivity.validate = .ok () ∧
    shuffledActivity.Realizes [2, 1, 3, 4, 0] ∧ ∀ order, shuffledActivity.Realizes order →
      order = [2, 1, 3, 4, 0] ∨ List.Lex shuffledActivity.Sooner [2, 1, 3, 4, 0] order := by
  have hvalid : shuffledActivity.validate = .ok () := by decide +kernel
  have horder : shuffledActivity.canonicalIndices = [2, 1, 3, 4, 0] := by decide +kernel
  have hleast := (canonicalOrder_least shuffledActivity).2.2 hvalid
  rw [horder] at hleast
  exact ⟨hvalid, hleast⟩

/-- **Realizable protocols.** A protocol is accepted exactly if its steps are named and distinct, its
edges join existing steps, and some order of the steps realizes it. The check for cycles, in which
the edges between adjacent phases count as well, fails exactly if some step is required to happen
before itself. -/
theorem validate_ok_iff_realizable (p : Protocol) :
    (p.validate = .ok () ↔ (∀ s ∈ p.steps, s.method.name ≠ "") ∧
      p.steps.Pairwise (fun s t =>
        ¬(s.method.name = t.method.name ∧ s.method.params = t.method.params)) ∧
      (∀ e ∈ p.edges, e.1 < p.steps.length ∧ e.2 < p.steps.length) ∧
      ∃ order, p.Realizes order) ∧
    (p.isCyclic = true ↔ ∃ c, TransGen p.Leads c c) := by
  have hsame : ∀ s t : LifecycleStep, s.method.same t.method = false ↔
      ¬(s.method.name = t.method.name ∧ s.method.params = t.method.params) := fun s t => by
    rw [← Signature.same_iff, Bool.not_eq_true]
  refine ⟨?_, p.isCyclic_iff⟩
  rw [p.validate_ok_iff, p.fault?_eq_none_iff]
  constructor
  · rintro ⟨hnames, hvalid⟩
    refine ⟨hnames, hvalid.distinct.imp fun h => (hsame _ _).1 h, fun e he => ?_, _,
      hvalid.realizes⟩
    have hlead : p.Leads e.1 e.2 := hvalid.precedes_of_edge he
    exact hlead.lt_length
  · rintro ⟨hnames, hdistinct, -, order, horder⟩
    exact ⟨hnames, horder.valid (hdistinct.imp fun h => (hsame _ _).2 h)⟩

end AppDriver.Protocol
