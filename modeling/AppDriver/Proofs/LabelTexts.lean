import AppDriver.Proofs.RegistryChanges
import AppDriver.Proofs.SharedObjects
import AppDriver.Proofs.UniqueLabels

/-! Labels as texts. Every label consists of the characters of an identifier, so in a line of a source
it ends where the next blank, quote or bracket stands. -/

namespace AppDriver

namespace Label

/-- Whether a text can be a label: it is not empty, and consists of letters, digits and `_`. -/
def IsLabel (text : String) : Prop :=
  text.toList ≠ [] ∧ ∀ c ∈ text.toList, isLabelChar c = true

theorem IsLabel.append {text more : String} (h : IsLabel text)
    (hmore : ∀ c ∈ more.toList, isLabelChar c = true) : IsLabel (text ++ more) := by
  rw [IsLabel, String.toList_append]
  exact ⟨fun hnil => h.1 (List.append_eq_nil_iff.1 hnil).1,
    fun c hc => (List.mem_append.1 hc).elim (h.2 c) (hmore c)⟩

theorem isLabelChar_of_sanitize (hint : List Char) :
    ∀ c ∈ sanitize hint, isLabelChar c = true := by
  refine List.forall_mem_map.2 fun c _ => ?_
  split
  · assumption
  · decide

theorem withStart_isLabel {cs : List Char} (h : ∀ c ∈ cs, isLabelChar c = true) :
    IsLabel (String.ofList (withStart cs)) := by
  rw [IsLabel, String.toList_ofList]
  cases cs with
  | nil => exact ⟨by decide, List.all_eq_true.1 (by decide)⟩
  | cons c cs =>
      rw [withStart]
      split
      · exact ⟨by simp, List.forall_mem_cons.2 ⟨by decide, h⟩⟩
      · exact ⟨by simp, h⟩

theorem base_isLabel (hint : String) : IsLabel (base hint) := by
  have hstart := withStart_isLabel (isLabelChar_of_sanitize hint.toList)
  rw [base]
  split
  · exact hstart.append (List.all_eq_true.1 (by decide))
  · exact hstart

theorem isLabelChar_of_digit {c : Char} (h : c.isDigit = true) : isLabelChar c = true := by
  simp [isLabelChar, Char.isAlphanum, h]

theorem candidate_isLabel (hint : String) (n : Nat) : IsLabel (candidate (base hint) n) := by
  cases n with
  | zero => exact base_isLabel hint
  | succ n =>
      rw [candidate]
      have hbar : "_".toList.all isLabelChar = true := by decide
      refine ((base_isLabel hint).append (List.all_eq_true.1 hbar)).append fun c hc => ?_
      rw [Nat.toString_eq_ofList_toDigits, String.toList_ofList] at hc
      exact isLabelChar_of_digit (Nat.isDigit_of_mem_toDigits (by decide) (by decide) hc)

theorem fresh_isLabel (taken : List String) (hint : String) : IsLabel (fresh taken hint) := by
  obtain ⟨n, hn⟩ := exists_candidate taken (base hint) taken.length 0
  rw [fresh, hn]
  exact candidate_isLabel hint n

theorem not_mem_of_isLabelChar {text : String} (h : ∀ c ∈ text.toList, isLabelChar c = true)
    {c : Char} (hc : isLabelChar c = false) : c ∉ text.toList := by
  intro hmem
  rw [h c hmem] at hc
  cases hc

theorem IsLabel.not_mem {text : String} (h : IsLabel text) {c : Char}
    (hc : isLabelChar c = false) : c ∉ text.toList :=
  not_mem_of_isLabelChar h.2 hc

end Label

/-- Where a character is the last of its kind, it splits a text in one way only. -/
theorem append_cons_inj_of_not_mem_right {a : α} {as as' bs bs' : List α} (hbs : a ∉ bs)
    (hbs' : a ∉ bs') (h : as ++ a :: bs = as' ++ a :: bs') : as = as' ∧ bs = bs' := by
  rcases List.append_eq_append_iff.1 h with ⟨cs, rfl, hcs⟩ | ⟨cs, rfl, hcs⟩
  · cases cs with
    | nil => simpa using hcs
    | cons c cs =>
        obtain ⟨-, rfl⟩ := List.cons.inj hcs
        simp at hbs
  · cases cs with
    | nil => simpa [eq_comm] using hcs
    | cons c cs =>
        obtain ⟨-, rfl⟩ := List.cons.inj hcs
        simp at hbs'

open Label (IsLabel)

namespace Store

variable {s s' : Store}

/-- Whether every stand-in of the later store that the earlier one has not has a fresh label. -/
def LabelsAnew (s s' : Store) : Prop := ∀ y ∈ s'.arena, y ∈ s.arena ∨ IsLabel y.label

theorem LabelsAnew.refl (s : Store) : s.LabelsAnew s := fun _ hy => Or.inl hy

theorem LabelsAnew.trans {a b c : Store} (h : a.LabelsAnew b) (h' : b.LabelsAnew c) :
    a.LabelsAnew c := fun y hy => (h' y hy).elim (h y) Or.inr

theorem labelsAnew_of_arena (harena : s'.arena = s.arena) : s.LabelsAnew s' :=
  fun _ hy => Or.inl (harena ▸ hy)

theorem labelsAnew_push (s : Store) (t : TypeName) (origin : Origin)
    (construction : Construction) (hint : String) :
    s.LabelsAnew (s.push t origin construction hint).2 := by
  intro y hy
  refine (List.mem_append.1 hy).imp_right fun hnew => ?_
  obtain rfl := List.mem_singleton.1 hnew
  exact Label.fresh_isLabel _ hint

theorem labelsAnew_value (s : Store) (n : Nat) (t : TypeName) : s.LabelsAnew (s.value n t).2 := by
  rw [value]
  split
  · exact .refl s
  · exact s.labelsAnew_push t .value _ _

theorem labelsAnew_typedNull (s : Store) (t : TypeName) : s.LabelsAnew (s.typedNull t).2 := by
  rw [typedNull]
  split
  · exact .refl s
  · exact s.labelsAnew_push t .ambient _ _

theorem Effect.labelsAnew {n : Nat} {batch : List Component} {busy : List TypeName}
    (h : Effect n batch busy s s') : s.LabelsAnew s' := by
  cases h with
  | value t => exact s.labelsAnew_value n t
  | typedNull t => exact s.labelsAnew_typedNull t
  | push origin hint _ _ => exact s.labelsAnew_push _ origin _ hint
  | record | forgetCycle => exact labelsAnew_of_arena rfl
  | cutCycle origin hint _ => exact s.labelsAnew_push _ origin .degenerate hint
  | settleAmbient _ _ => exact labelsAnew_of_arena (s.settleAmbient_untouched _ _).1
  | enroll _ _ _ _ => exact s.labelsAnew_push _ _ _ _

theorem Runs.labelsAnew {n : Nat} {batch : List Component} {busy : List TypeName}
    (h : Runs n batch busy s s') : s.LabelsAnew s' :=
  h.rel .refl .trans Effect.labelsAnew

theorem register_labelsAnew (w : Workshop) (batch : List Component) (c : Component)
    (hs : s.Sound) : s.LabelsAnew (w.register batch c s).2 := by
  rw [Workshop.register]
  split
  · exact .refl s
  · obtain ⟨hruns, -⟩ := (w.fabrication_obtains batch).2.2.1 (Underway.enterClass {} c.name)
      (c.constructorParams.map .ofType) s hs
    exact hruns.labelsAnew.trans (labelsAnew_push _ c.name _ _ _)

theorem Change.labelsAnew {w : Workshop} (h : Change w s s') (hs : s.Sound) : s.LabelsAnew s' := by
  cases h with
  | remember hsame _ => exact labelsAnew_of_arena hsame.arena
  | fabricate t id hint =>
      exact ((w.fabrication_obtains []).2.1 {} t (.identifier id) hint s hs).1.labelsAnew
  | ambient t => exact ((w.fabrication_obtains []).1 {} t s hs).1.labelsAnew
  | value t => exact s.labelsAnew_value _ t
  | register batch c => exact register_labelsAnew w batch c hs
  | missing | service | unresolved | derived => exact s.labelsAnew_push _ _ _ _

end Store

/-- Every label of a reachable registry consists of the characters of an identifier. -/
theorem Registry.Reachable.isLabel {r : Registry} (h : r.Reachable) :
    ∀ y ∈ r.standIns, IsLabel y.label :=
  h.of_changes (P := fun s => ∀ y ∈ s.arena, IsLabel y.label)
    (fun _ hy => (List.not_mem_nil hy).elim)
    fun hchange hs hlabels y hy => (hchange.labelsAnew hs y hy).elim (hlabels y) id

/-- So does what is written for any reference, which is empty if it denotes nothing. -/
theorem Registry.Reachable.isLabelChar {r : Registry} (h : r.Reachable) (x : StandInRef) :
    ∀ c ∈ (r.label x).toList, Label.isLabelChar c = true := by
  rw [Registry.label, Store.label]
  cases hget : r.store.get? x with
  | none => exact fun c hc => (List.not_mem_nil hc).elim
  | some y => exact (h.isLabel y (List.mem_of_getElem? hget)).2

end AppDriver
