import AppDriver.StandIn.Label
import Mathlib.Data.List.Nodup

/-! Fresh labels. The candidates for a label differ from one another, so among one more of them than
there are taken labels one is free, and the search finds it. Every candidate begins as the hint does
where that can begin a label. -/

namespace AppDriver

theorem toString_injective : Function.Injective (toString : Nat → String) := by
  intro m n h
  have hnumber := congrArg (fun text => Nat.ofDigitChars 10 text.toList 0) h
  simpa [Nat.toString_eq_ofList_toDigits] using hnumber

namespace Label

/-! ### Freshness -/

theorem candidate_injective (base : String) : Function.Injective (candidate base) := by
  intro m n h
  have hlist := congrArg String.toList h
  cases m with
  | zero =>
      cases n with
      | zero => rfl
      | succ n => simp [candidate] at hlist
  | succ m =>
      cases n with
      | zero => simp [candidate] at hlist
      | succ n =>
          simp only [candidate, String.toList_append] at hlist
          have hdigits := String.toList_inj.1 (List.append_cancel_left hlist)
          simpa using toString_injective hdigits

/-- A search ends with a taken label only if all that it looked at are taken. -/
theorem taken_of_firstFree {taken : List String} {base : String} (tries n : Nat)
    (h : firstFree taken base tries n ∈ taken) :
    ∀ i ≤ tries, candidate base (n + i) ∈ taken := by
  induction tries generalizing n with
  | zero =>
      intro i hi
      obtain rfl := Nat.le_zero.1 hi
      exact h
  | succ tries ih =>
      rw [firstFree] at h
      split at h
      · rename_i hfirst
        intro i hi
        cases i with
        | zero => exact List.contains_iff_mem.1 hfirst
        | succ i =>
            have hnext := ih (n + 1) h i (Nat.le_of_succ_le_succ hi)
            rwa [Nat.add_right_comm] at hnext
      · rename_i hfirst
        exact (hfirst (List.contains_iff_mem.2 h)).elim

/-- A fresh label is not taken. -/
theorem fresh_not_mem (taken : List String) (hint : String) : fresh taken hint ∉ taken := by
  intro h
  let candidates := (List.range (taken.length + 1)).map (candidate (base hint))
  have hdistinct : candidates.Nodup := List.nodup_range.map (candidate_injective _)
  have htaken : candidates ⊆ taken := by
    intro text htext
    obtain ⟨i, hi, rfl⟩ := List.mem_map.1 htext
    have hall := taken_of_firstFree _ 0 h i (Nat.le_of_lt_succ (List.mem_range.1 hi))
    rwa [Nat.zero_add] at hall
  have hlength := hdistinct.length_le_of_subset htaken
  simp only [candidates, List.length_map, List.length_range] at hlength
  omega

/-! ### Beginnings -/

theorem exists_candidate (taken : List String) (base : String) (tries n : Nat) :
    ∃ m, firstFree taken base tries n = candidate base m := by
  induction tries generalizing n with
  | zero => exact ⟨n, rfl⟩
  | succ tries ih =>
      rw [firstFree]
      split
      · exact ih (n + 1)
      · exact ⟨n, rfl⟩

/-- Whether a text can begin a label as it stands. -/
def isOpening (text : String) : Bool :=
  text.toList.all isLabelChar && !text.toList.head?.any Char.isDigit

theorem sanitize_opening {text : String} (h : isOpening text = true) :
    sanitize text.toList = text.toList := by
  have hall := List.all_eq_true.1 (Bool.and_eq_true_iff.1 h).1
  refine (List.map_congr_left fun c hc => ?_).trans (List.map_id _)
  rw [if_pos (hall c hc), id]

theorem withStart_opening {text : String} (h : isOpening text = true) {cs : List Char}
    (hcs : text.toList <+: cs) : text.toList <+: withStart cs := by
  have hdigit := (Bool.and_eq_true_iff.1 h).2
  cases hfirst : text.toList with
  | nil => exact List.nil_prefix
  | cons c rest =>
      rw [hfirst] at hcs hdigit
      obtain ⟨more, rfl⟩ := hcs
      have hstart : c.isDigit = false := by simpa using hdigit
      rw [List.cons_append, withStart, hstart]
      exact List.prefix_append (c :: rest) more

theorem base_opening {text hint : String} (h : isOpening text = true)
    (hhint : text.toList <+: hint.toList) : text.toList <+: (base hint).toList := by
  have hsanitized : text.toList <+: sanitize hint.toList :=
    sanitize_opening h ▸ hhint.map _
  have hstart := withStart_opening h hsanitized
  rw [base]
  split
  · rw [String.toList_append, String.toList_ofList]
    exact hstart.trans (List.prefix_append _ _)
  · rwa [String.toList_ofList]

/-- A label begins as its hint does, where that can begin a label. -/
theorem fresh_opening {text hint : String} (h : isOpening text = true)
    (hhint : text.toList <+: hint.toList) (taken : List String) :
    text.toList <+: (fresh taken hint).toList := by
  obtain ⟨m, hm⟩ := exists_candidate taken (base hint) taken.length 0
  have hbase := base_opening h hhint
  rw [fresh, hm]
  cases m with
  | zero => exact hbase
  | succ m =>
      rw [candidate, String.toList_append, String.toList_append, List.append_assoc]
      exact hbase.trans (List.prefix_append _ _)

end Label
end AppDriver
