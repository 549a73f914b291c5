import AppDriver.Proofs.CallBlocks
import Mathlib.Data.List.Basic

/-! The limit on argument tuples. It cuts the values of every parameter and, parameter by parameter,
the tuples made so far. Since every parameter has a value, the first tuples of a product need only
the first tuples over the earlier parameters and the first values of the last one, so none of these
cuts loses or moves a tuple that is kept: what remains are the first tuples of the full product, in
lexicographic order. A cut is reported exactly if the full product has more of them. -/

namespace AppDriver

/-! ### Reports of a cap -/

/-- Whether a finding says that values or tuples were left out because of the limit. -/
def Finding.reportsCap : Finding → Bool
  | .cappedParameter _ _ _ _ | .cappedTuples _ _ => true
  | _ => false

/-- Whether findings were added on the way to a later state, with a report of a cap among them
exactly in one case. -/
def Progress.ReportsCap (s late : Progress) (capped : Prop) : Prop :=
  ∃ added, late.findings = s.findings ++ added ∧
    ((∃ f ∈ added, f.reportsCap = true) ↔ capped)

namespace Progress

theorem ReportsCap.of_findings {s late : Progress} (h : late.findings = s.findings)
    {capped : Prop} (hnot : ¬capped) : s.ReportsCap late capped :=
  ⟨[], by rw [h, List.append_nil], by simp [hnot]⟩

theorem ReportsCap.of_report (s : Progress) (f : Finding) {capped : Prop}
    (h : f.reportsCap = true ↔ capped) : s.ReportsCap (s.report f) capped :=
  ⟨[f], rfl, by simp [h]⟩

theorem ReportsCap.trans {a b c : Progress} {capped capped' : Prop} (h : a.ReportsCap b capped)
    (h' : b.ReportsCap c capped') : a.ReportsCap c (capped ∨ capped') := by
  obtain ⟨added, hadded, hiff⟩ := h
  obtain ⟨added', hadded', hiff'⟩ := h'
  refine ⟨added ++ added', by rw [hadded', hadded, List.append_assoc], ?_⟩
  simp only [List.mem_append, or_and_right, exists_or]
  exact or_congr hiff hiff'

theorem ReportsCap.congr {s late : Progress} {capped capped' : Prop}
    (h : s.ReportsCap late capped) (hiff : capped ↔ capped') : s.ReportsCap late capped' := by
  obtain ⟨added, hadded, hcapped⟩ := h
  exact ⟨added, hadded, hcapped.trans hiff⟩

end Progress

namespace CallbackTarget

open Progress (ReportsCap)

variable (t : CallbackTarget) {fanout : Nat}

/-! ### The full product -/

/-- The values of a parameter as far as its type decides them, however many they are. -/
def valuesByType (param : TypeName) (r : Registry) : List StandInRef × Registry :=
  if param.isPlainValue then ([(r.value param).1], (r.value param).2)
  else if (r.assignableTo param).isEmpty then ([(r.ambient param).1], (r.ambient param).2)
  else (r.assignableTo param, r)

/-- The values of a parameter: that of its declared binding, else the view, unless that is a
component, else those of its type. -/
def allValues (slot : TypeName × Nat) (r : Registry) : List StandInRef × Registry :=
  match t.bindingAt? slot.2 with
  | some b => ([(b.source.bound slot.1 r).1], (b.source.bound slot.1 r).2)
  | none =>
    match t.viewAt? slot.2 with
    | none => valuesByType slot.1 r
    | some id =>
      let view := r.resolveDeclared id slot.1
      if ((view.2.get? view.1).filter (·.isComponent)).isSome then valuesByType slot.1 view.2
      else ([view.1], view.2)

/-- The product of the values of some parameters, in lexicographic order. -/
def lexProduct : List (TypeName × List StandInRef) → List (List ArgBinding)
  | [] => [[]]
  | (param, values) :: slots =>
    values.flatMap fun value => (lexProduct slots).map (⟨param, value⟩ :: ·)

/-- The parameters of a target with all their values, each made after those of the ones before. -/
def allSlots (r : Registry) : List (TypeName × List StandInRef) :=
  t.method.params.zip (threadMap t.allValues t.method.params.zipIdx r).1

/-- All argument tuples of a target. -/
def allTuples (r : Registry) : List (List ArgBinding) := lexProduct (t.allSlots r)

/-! ### The values that are kept -/

/-- What a parameter keeps under a limit: the first of all its values. -/
structure Cuts (fanout : Nat) (s : Progress) (kept : List StandInRef × Progress)
    (all : List StandInRef × Registry) : Prop where
  values : kept.1 = all.1.take fanout
  registry : kept.2.registry = all.2
  reports : s.ReportsCap kept.2 (fanout < all.1.length)

theorem Cuts.singleton (hfanout : 0 < fanout) (s : Progress) (out : StandInRef × Registry) :
    Cuts fanout s ([(s.withRegistry out).1], (s.withRegistry out).2) ([out.1], out.2) where
  values := (List.take_of_length_le hfanout).symm
  registry := rfl
  reports := .of_findings rfl (Nat.not_lt.2 hfanout)

theorem candidatesByType_cuts (hfanout : 0 < fanout) (index : Nat) (param : TypeName)
    (s : Progress) :
    Cuts fanout s (t.candidatesByType fanout index param s) (valuesByType param s.registry) := by
  rw [candidatesByType, valuesByType]
  split
  · exact .singleton hfanout s _
  · dsimp only
    split
    · exact .singleton hfanout s _
    · split
      · rename_i hmore
        exact ⟨rfl, rfl, .of_report s _ (by simp [Finding.reportsCap, hmore])⟩
      · rename_i hmore
        exact ⟨(List.take_of_length_le (Nat.le_of_not_lt hmore)).symm, rfl,
          .of_findings rfl hmore⟩

/-- A parameter keeps the first of its values. That a view is a component is reported as well, and
is no cap. -/
theorem candidates_cuts (hfanout : 0 < fanout) (slot : TypeName × Nat) (s : Progress) :
    Cuts fanout s (t.candidates fanout slot s) (t.allValues slot s.registry) := by
  rw [candidates, allValues]
  dsimp only
  cases hbinding : t.bindingAt? slot.2 with
  | some b =>
      exact .singleton hfanout s _
  | none =>
      cases hview : t.viewAt? slot.2 with
      | none => exact t.candidatesByType_cuts hfanout slot.2 slot.1 s
      | some id =>
          dsimp only [Progress.withRegistry]
          cases hkind : ((s.registry.resolveDeclared id slot.1).2.get?
              (s.registry.resolveDeclared id slot.1).1).filter (·.isComponent) with
          | none => exact .singleton hfanout s _
          | some c =>
              let viewed : Progress :=
                { s with registry := (s.registry.resolveDeclared id slot.1).2 }
              let f : Finding := .componentIdentifier id t.method c.typeName
              have hreport : viewed.ReportsCap (viewed.report f) False :=
                .of_report viewed f (by simp [f, Finding.reportsCap])
              obtain ⟨hvalues, hregistry, hcapped⟩ :=
                t.candidatesByType_cuts hfanout slot.2 slot.1 (viewed.report f)
              exact ⟨hvalues, hregistry, (hreport.trans hcapped).congr (iff_of_eq (false_or _))⟩

/-- Every parameter keeps the first of its values, in the state that the ones before it leave. -/
theorem threadMap_candidates (hfanout : 0 < fanout) (slots : List (TypeName × Nat))
    (s : Progress) :
    (threadMap (t.candidates fanout) slots s).1 =
        (threadMap t.allValues slots s.registry).1.map (·.take fanout) ∧
      s.ReportsCap (threadMap (t.candidates fanout) slots s).2
        (∃ values ∈ (threadMap t.allValues slots s.registry).1, fanout < values.length) := by
  induction slots generalizing s with
  | nil => exact ⟨rfl, .of_findings rfl (by simp [threadMap])⟩
  | cons slot slots ih =>
      obtain ⟨hvalues, hregistry, hreports⟩ := t.candidates_cuts hfanout slot s
      obtain ⟨hrest, hlater⟩ := ih (t.candidates fanout slot s).2
      rw [hregistry] at hrest hlater
      refine ⟨?_, (hreports.trans hlater).congr ?_⟩
      · rw [threadMap, threadMap, List.map_cons, hvalues, hrest]
      · simp [threadMap]

theorem map_snd_allSlots (r : Registry) :
    (t.allSlots r).map (·.2) = (threadMap t.allValues t.method.params.zipIdx r).1 := by
  have hlength : (threadMap t.allValues t.method.params.zipIdx r).1.length =
      t.method.params.length := by
    rw [length_threadMap, List.length_zipIdx]
  exact List.map_snd_zip (Nat.le_of_eq hlength)

/-- The parameters with the values that they keep. -/
theorem zip_candidates (hfanout : 0 < fanout) (s : Progress) :
    t.method.params.zip (threadMap (t.candidates fanout) t.method.params.zipIdx s).1 =
        (t.allSlots s.registry).map (fun slot => (slot.1, slot.2.take fanout)) ∧
      s.ReportsCap (threadMap (t.candidates fanout) t.method.params.zipIdx s).2
        (∃ slot ∈ t.allSlots s.registry, fanout < slot.2.length) := by
  obtain ⟨hvalues, hreports⟩ := t.threadMap_candidates hfanout t.method.params.zipIdx s
  refine ⟨?_, hreports.congr ?_⟩
  · rw [hvalues, List.zip_map_right]
    rfl
  · rw [← map_snd_allSlots]
    simp only [List.mem_map, exists_exists_and_eq_and]

theorem allValues_ne_nil (slot : TypeName × Nat) (r : Registry) :
    (t.allValues slot r).1 ≠ [] := by
  have hkept := t.candidates_ne_nil Nat.one_pos slot { registry := r }
  rw [(t.candidates_cuts Nat.one_pos slot { registry := r }).values] at hkept
  exact fun hnil => hkept (by rw [hnil, List.take_nil])

theorem allSlots_ne_nil (r : Registry) : ∀ slot ∈ t.allSlots r, slot.2 ≠ [] := by
  intro slot hslot
  have hall := threadMap_forall₂ (P := fun _ values => values ≠ []) t.allValues_ne_nil
    t.method.params.zipIdx r
  obtain ⟨_, -, hne⟩ := forall₂_left hall.flip (List.of_mem_zip hslot).2
  exact hne

/-! ### The tuples that are kept -/

variable {tuples : List (List ArgBinding)} {values : List StandInRef}

theorem extend_cons (tuple : List ArgBinding) (tuples : List (List ArgBinding)) (param : TypeName)
    (values : List StandInRef) : extend (tuple :: tuples) param values =
      values.map (fun value => tuple ++ [⟨param, value⟩]) ++ extend tuples param values :=
  List.flatMap_cons

theorem length_extend (tuples : List (List ArgBinding)) (param : TypeName)
    (values : List StandInRef) :
    (extend tuples param values).length = tuples.length * values.length := by
  induction tuples with
  | nil => simp [extend]
  | cons tuple tuples ih =>
      rw [extend_cons, List.length_append, List.length_map, ih, List.length_cons, Nat.succ_mul,
        Nat.add_comm]

/-- The first tuples over one more parameter need only as many of the tuples before and as many
values: each of the tuples before that is passed over accounts for one tuple at least. -/
theorem take_extend (hvalues : values ≠ []) (param : TypeName) {k m n : Nat} (hm : k ≤ m)
    (hn : k ≤ n) : (extend (tuples.take m) param (values.take n)).take k =
      (extend tuples param values).take k := by
  have hpos := List.length_pos_iff.2 hvalues
  induction tuples generalizing k m with
  | nil => simp [extend]
  | cons tuple tuples ih =>
      cases k with
      | zero => simp
      | succ k =>
          obtain ⟨m, rfl⟩ := Nat.exists_eq_succ_of_ne_zero (Nat.ne_of_gt (Nat.lt_of_lt_of_le
            (Nat.succ_pos k) hm))
          have hrest : k + 1 - (values.take n).length = k + 1 - values.length := by
            rw [List.length_take]
            omega
          have hfirst : ((values.take n).map fun value => tuple ++ [ArgBinding.mk param value]).take
              (k + 1) = (values.map fun value => tuple ++ [ArgBinding.mk param value]).take
                (k + 1) := by
            rw [← List.map_take, ← List.map_take, List.take_take, Nat.min_eq_left hn]
          rw [List.take_succ_cons, extend_cons, extend_cons, List.take_append, List.take_append,
            hfirst, List.length_map, List.length_map, hrest]
          congr 1
          exact ih (by omega) (by omega)

/-- Extending tuples by one parameter and then by others is extending them by all of these. -/
theorem flatMap_extend (tuples : List (List ArgBinding)) (param : TypeName)
    (values : List StandInRef) (slots : List (TypeName × List StandInRef)) :
    (extend tuples param values).flatMap (fun first => (lexProduct slots).map (first ++ ·)) =
      tuples.flatMap fun first => (lexProduct ((param, values) :: slots)).map (first ++ ·) := by
  simp only [extend, lexProduct, List.flatMap_assoc, List.flatMap_map, List.map_flatMap,
    List.map_map]
  congr
  funext first
  congr
  funext value
  congr
  funext rest
  simp

theorem lt_mul_iff_of_pos {n a b : Nat} (ha : 0 < a) (hb : 0 < b) :
    n < a * b ↔ n < min n a * min n b ∨ n < a ∨ n < b := by
  constructor
  · intro h
    by_cases hna : n < a
    · exact Or.inr (Or.inl hna)
    by_cases hnb : n < b
    · exact Or.inr (Or.inr hnb)
    rw [Nat.min_eq_right (Nat.le_of_not_lt hna), Nat.min_eq_right (Nat.le_of_not_lt hnb)]
    exact Or.inl h
  · rintro (h | h | h)
    · exact Nat.lt_of_lt_of_le h (Nat.mul_le_mul (Nat.min_le_right n a) (Nat.min_le_right n b))
    · exact Nat.lt_of_lt_of_le h (Nat.le_mul_of_pos_right a hb)
    · exact Nat.lt_of_lt_of_le h (Nat.le_mul_of_pos_left b ha)

/-- The induction is on the parameters that are still to come. Its invariant: what is kept are the
first of all tuples over the parameters before, and something was cut, be it tuples or the values of
one of these parameters, exactly if there are more of them. -/
theorem product_eq_take (fanout : Nat) {slots : List (TypeName × List StandInRef)}
    (hslots : ∀ slot ∈ slots, slot.2 ≠ []) (htuples : tuples ≠ []) {cut : Bool} {capped : Prop}
    (hcut : (cut = true ∨ capped) ↔ fanout < tuples.length) :
    (product fanout (slots.map fun slot => (slot.1, slot.2.take fanout))
        (tuples.take fanout, cut)).1 =
      (tuples.flatMap fun first => (lexProduct slots).map (first ++ ·)).take fanout ∧
    (((product fanout (slots.map fun slot => (slot.1, slot.2.take fanout))
        (tuples.take fanout, cut)).2 = true ∨ capped ∨ ∃ slot ∈ slots, fanout < slot.2.length) ↔
      fanout < (tuples.flatMap fun first => (lexProduct slots).map (first ++ ·)).length) := by
  induction slots generalizing tuples cut capped with
  | nil => simpa [product, lexProduct, Function.comp_def] using hcut
  | cons slot slots ih =>
      obtain ⟨param, values⟩ := slot
      have hvalues : values ≠ [] := hslots _ List.mem_cons_self
      have hkept : (extend (tuples.take fanout) param (values.take fanout)).take fanout =
          (extend tuples param values).take fanout :=
        take_extend hvalues param (Nat.le_refl _) (Nat.le_refl _)
      -- There are too many now if there were before, if the values are, or if this stage cuts.
      have hcut' : ((cut || decide (fanout <
            (extend (tuples.take fanout) param (values.take fanout)).length)) = true ∨
            (capped ∨ fanout < values.length)) ↔
          fanout < (extend tuples param values).length := by
        rw [length_extend, length_extend, List.length_take, List.length_take,
          lt_mul_iff_of_pos (List.length_pos_iff.2 htuples) (List.length_pos_iff.2 hvalues), ← hcut,
          Bool.or_eq_true, decide_eq_true_eq]
        tauto
      obtain ⟨hfirst, hreports⟩ := ih (fun slot hslot => hslots slot (List.mem_cons_of_mem _ hslot))
        (extend_ne_nil htuples hvalues param) hcut'
      rw [List.map_cons, product, hkept, ← flatMap_extend]
      refine ⟨hfirst, ?_⟩
      rw [← hreports, List.exists_mem_cons_iff, or_assoc (a := capped)]

/-- What the stages of the product keep of all tuples, and whether one of them was cut. -/
def stages (fanout : Nat) (r : Registry) : List (List ArgBinding) × Bool :=
  product (max fanout 1) ((t.allSlots r).map fun slot => (slot.1, slot.2.take (max fanout 1)))
    ([[]], false)

/-- Something is cut, be it at a stage or among the values of a parameter, exactly if there are more
tuples than the limit allows. -/
theorem stages_eq_take (fanout : Nat) (r : Registry) :
    (t.stages fanout r).1 = (t.allTuples r).take (max fanout 1) ∧
      ((t.stages fanout r).2 = true ∨ (∃ slot ∈ t.allSlots r, max fanout 1 < slot.2.length) ↔
        max fanout 1 < (t.allTuples r).length) := by
  have hfanout : 1 ≤ max fanout 1 := Nat.le_max_right fanout 1
  have hnone : (false = true ∨ False) ↔ max fanout 1 < [([] : List ArgBinding)].length :=
    iff_of_false (by simp) (Nat.not_lt.2 hfanout)
  have htake := product_eq_take (max fanout 1) (t.allSlots_ne_nil r) (List.cons_ne_nil [] []) hnone
  have hall : [[]].flatMap (fun first => (lexProduct (t.allSlots r)).map (first ++ ·)) =
      t.allTuples r := by
    simp [allTuples]
  rwa [hall, List.take_of_length_le hfanout, false_or] at htake

/-- The tuples are what the stages keep, and a cut at a stage is reported after those of the values
of the parameters. -/
theorem tuples_stages (fanout : Nat) (s : Progress) :
    (t.tuples fanout s).1 = (t.stages fanout s.registry).1 ∧
      s.ReportsCap (t.tuples fanout s).2 ((∃ slot ∈ t.allSlots s.registry,
        max fanout 1 < slot.2.length) ∨ (t.stages fanout s.registry).2 = true) := by
  obtain ⟨hslots, hreports⟩ := t.zip_candidates (Nat.le_max_right fanout 1) s
  rw [tuples]
  dsimp only
  rw [hslots]
  refine ⟨rfl, hreports.trans ?_⟩
  split
  · rename_i hmore
    exact .of_report _ _ (iff_of_true rfl hmore)
  · rename_i hmore
    exact .of_findings rfl hmore

/-- **Capped argument tuples.** The tuples of a target are the first ones of the full product of the
values that its parameters have without any limit: as many as the limit allows and one at least. A
cap is reported exactly if the product has more of them. -/
theorem tuples_eq_take (t : CallbackTarget) (fanout : Nat) (s : Progress) :
    (t.tuples fanout s).1 = (t.allTuples s.registry).take (max fanout 1) ∧
      1 ≤ (t.tuples fanout s).1.length ∧ (t.tuples fanout s).1.length ≤ max fanout 1 ∧
      s.ReportsCap (t.tuples fanout s).2 (max fanout 1 < (t.allTuples s.registry).length) := by
  obtain ⟨hkept, hcapped⟩ := t.stages_eq_take fanout s.registry
  obtain ⟨htuples, hreports⟩ := t.tuples_stages fanout s
  rw [hkept] at htuples
  refine ⟨htuples, List.length_pos_iff.2 (t.tuples_ne_nil fanout s), ?_,
    hreports.congr (or_comm.trans hcapped)⟩
  rw [htuples]
  exact List.length_take_le _ _

/-- Three activities make nine pairs, of which a limit of two keeps the first. -/
example :
    let activity (name : String) : Component := { name := ⟨name⟩, kind := .activity }
    let r := ((Registry.new .android).registerComponents
      [activity "app.A", activity "app.B", activity "app.C"]).2
    let attach : CallbackTarget :=
      { method := { name := "attach", params := [⟨"android.app.Activity"⟩, ⟨"android.app.Activity"⟩] }
        origin := .handler none, view := none, bindings := [] }
    ((attach.tuples 2 { registry := r }).1.map (·.map (·.value.index)), (attach.allTuples r).length) =
      ([[0, 0], [0, 1]], 9) := by
  decide +kernel

end CallbackTarget
end AppDriver
