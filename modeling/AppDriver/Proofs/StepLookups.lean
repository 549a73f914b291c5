import AppDriver.Proofs.PlacedOverrides

/-! The step that an override takes. Looking an override up and placing it follow one rule, the step
with its signature and else the first step of its name, but a look-up goes through the steps as they
are declared and a placement through the canonical order. Both find the same steps, so they agree on
whether there is one, and the step with a signature is the same in both orders. By its name alone an
override is placed in the earliest phase that has a step of the name, and looked up in the phase of
the one that is declared first. -/

namespace AppDriver.Protocol

variable {p : Protocol} {order : List LifecycleStep} {m : Signature}

/-- Whether a step of a name is in the earliest phase that has one. -/
def IsEarliest (p : Protocol) (s : LifecycleStep) : Prop :=
  ∀ t ∈ p.steps, t.method.name = s.method.name → s.phase.rank ≤ t.phase.rank

/-- A single override is placed by itself. -/
theorem place_singleton (p : Protocol) (m : Signature) :
    p.place [m] = [(placeOne p.canonicalOrder m).2] := rfl

theorem lookup?_eq_none_iff : p.lookup? m = none ↔ ∀ s ∈ p.steps, s.method.name ≠ m.name := by
  rw [lookup?, Option.or_eq_none_iff, List.find?_eq_none, List.find?_eq_none]
  constructor
  · rintro ⟨-, hname⟩ s hs
    simpa using hname s hs
  · intro hname
    exact ⟨fun s hs hsame => hname s hs (Signature.same_iff.1 hsame).1,
      fun s hs => by simpa using hname s hs⟩

/-- What is looked up has the signature if a step has it, and otherwise is the step of the name that
is declared first. -/
theorem lookup?_eq_some {s : LifecycleStep} (h : p.lookup? m = some s) :
    s ∈ p.steps ∧ s.method.name = m.name ∧
      (s.method.same m = true ∨ ∀ t ∈ p.steps, t.method.same m = false) := by
  rcases Option.or_eq_some_iff.1 h with hexact | ⟨hnone, hname⟩
  · have hsame : s.method.same m = true := by simpa using List.find?_some hexact
    exact ⟨List.mem_of_find?_eq_some hexact, (Signature.same_iff.1 hsame).1, Or.inl hsame⟩
  · refine ⟨List.mem_of_find?_eq_some hname, by simpa using List.find?_some hname, Or.inr ?_⟩
    simpa using hnone

/-- In an order of the phases, the first step of a name is in the earliest phase that has one. -/
theorem placeOne_by_name
    (hphases : ∀ {i j : Nat}, i ≤ j → ∀ {s t : LifecycleStep}, order[i]? = some s →
      order[j]? = some t → s.phase.rank ≤ t.phase.rank)
    (hnone : ∀ t ∈ order, t.method.same m = false) {s : LifecycleStep} (hs : s ∈ order)
    (hname : s.method.name = m.name) :
    ∃ t ∈ order, t.method.name = m.name ∧ (placeOne order m).2.phase = t.phase ∧
      ∀ t' ∈ order, t'.method.name = m.name → t.phase.rank ≤ t'.phase.rank := by
  have hexact : order.findIdx? (·.method.same m) = none :=
    List.findIdx?_eq_none_iff.2 fun t ht => hnone t ht
  have hfind : (order.findIdx? (·.method.name == m.name)).isSome = true :=
    List.findIdx?_isSome.trans (List.any_eq_true.2 ⟨s, hs, beq_iff_eq.2 hname⟩)
  obtain ⟨i, hi⟩ := Option.isSome_iff_exists.1 hfind
  obtain ⟨hlt, hfound, hfirst⟩ := List.findIdx?_eq_some_iff_getElem.1 hi
  have hget := List.getElem?_eq_getElem hlt
  refine ⟨order[i], List.getElem_mem hlt, beq_iff_eq.1 hfound, ?_, fun t' ht' hname' => ?_⟩
  · rw [placeOne, slot?, hexact, Option.none_or, hi]
    simp [hget]
  · obtain ⟨j, hj⟩ := List.getElem?_of_mem ht'
    obtain ⟨hjlt, hjeq⟩ := List.getElem?_eq_some_iff.1 hj
    have hij : i ≤ j := Nat.le_of_not_lt fun hji => by
      have hnot := hfirst j hji
      rw [hjeq, hname', beq_self_eq_true] at hnot
      exact hnot rfl
    exact hphases hij hget hj

/-- **Looked up and placed.** In a protocol that is accepted, an override is placed as unmatched
exactly if it is looked up in vain. Otherwise the phase in which it is placed is that of the step
that is looked up exactly if a step has its signature, or the first declared step of its name is in
the earliest phase that has one. -/
theorem lookup_agrees_iff (hvalid : p.validate = .ok ()) (m : Signature) :
    ∃ x, p.place [m] = [x] ∧ (p.lookup? m = none ↔ x.unmatched = true) ∧
      ∀ s, p.lookup? m = some s →
        (x.phase = s.phase ↔ (∃ t ∈ p.steps, t.method.same m = true) ∨ p.IsEarliest s) := by
  have hp := valid_of_fault? (p.validate_ok_iff.1 hvalid)
  refine ⟨_, p.place_singleton m, ?_, fun s hs => ?_⟩
  · rw [lookup?_eq_none_iff, unmatched_placeOne]
    simp only [hp.mem_canonicalOrder]
  obtain ⟨hmem, hname, hsame | hnone⟩ := lookup?_eq_some hs
  · have hplaced : (placeOne p.canonicalOrder m).2 ∈ p.place [m] := List.mem_singleton.2 rfl
    have hphase := place_exact hp [m] hplaced hmem
      (by rw [method_placeOne, Signature.same_comm, hsame])
    exact iff_of_true hphase (Or.inl ⟨s, hmem, hsame⟩)
  · obtain ⟨t, ht, htname, hphase, hleast⟩ := placeOne_by_name hp.phase_le
      (fun t ht => hnone t (hp.mem_canonicalOrder.1 ht)) (hp.mem_canonicalOrder.2 hmem) hname
    have hle : t.phase.rank ≤ s.phase.rank := hleast s (hp.mem_canonicalOrder.2 hmem) hname
    rw [hphase]
    constructor
    · intro heq
      refine Or.inr fun t' ht' hname' => ?_
      rw [← heq]
      exact hleast t' (hp.mem_canonicalOrder.2 ht') (hname'.trans hname)
    · rintro (⟨t', ht', hsame⟩ | hearliest)
      · rw [hnone t' ht'] at hsame
        cases hsame
      · have hge := hearliest t (hp.mem_canonicalOrder.1 ht) (htname.trans hname.symm)
        exact Phase.rank_injective (Nat.le_antisymm hle hge)

/-- An activity in which the state is saved by one of two methods of the same name, of which one is
called while the activity is active. -/
def savingActivity (first second : LifecycleStep) : Protocol :=
  { kind := .activity, steps := [first, second] }

/-- Saving the state when the activity is torn down. -/
def savedAtTeardown : LifecycleStep :=
  ⟨{ name := "onSaveInstanceState", params := [⟨"android.os.Bundle"⟩] }, .teardown⟩

/-- Saving the state while the activity is active. -/
def savedWhileActive : LifecycleStep :=
  ⟨{ name := "onSaveInstanceState",
     params := [⟨"android.os.Bundle"⟩, ⟨"android.os.PersistableBundle"⟩] }, .active⟩

/-- Declared in the order of their phases, the two methods are looked up as they are placed. -/
theorem savedInOrder_agrees :
    (savingActivity savedWhileActive savedAtTeardown).validate = .ok () ∧
      ∃ x, (savingActivity savedWhileActive savedAtTeardown).place
          [{ name := "onSaveInstanceState" }] = [x] ∧
        x.phase = savedWhileActive.phase := by
  have hvalid : (savingActivity savedWhileActive savedAtTeardown).validate = .ok () := by
    decide +kernel
  obtain ⟨x, hx, -, hphase⟩ := lookup_agrees_iff hvalid { name := "onSaveInstanceState" }
  refine ⟨hvalid, x, hx, (hphase savedWhileActive rfl).2 (Or.inr ?_)⟩
  unfold IsEarliest
  decide +kernel

/-- Declared the other way round, an override that has the signature of neither is looked up in the
teardown and placed as active. -/
theorem savedOutOfOrder_disagrees :
    (savingActivity savedAtTeardown savedWhileActive).validate = .ok () ∧
      (savingActivity savedAtTeardown savedWhileActive).lookup?
          { name := "onSaveInstanceState" } = some savedAtTeardown ∧
      (savingActivity savedAtTeardown savedWhileActive).place
          [{ name := "onSaveInstanceState" }] =
        [⟨{ name := "onSaveInstanceState" }, .active, false⟩] ∧
      savedAtTeardown.phase ≠ .active :=
  ⟨by decide +kernel, by decide +kernel, by decide +kernel, by decide⟩

end AppDriver.Protocol
