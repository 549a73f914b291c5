import AppDriver.StandIn.Registry
import Mathlib.Data.List.Forall2
import Mathlib.Data.List.Induction

/-! Declared identifiers. A registry that is given a list of bindings knows of an identifier what its
first binding says, so it refuses a declaration exactly where the list has an earlier binding of the
identifier with another type. The conflicts of the list, which are found by looking back at what
stands before each binding, are therefore the refusals of the registry, in the order in which it
makes them. -/

namespace AppDriver

theorem declaredType?_append (earlier bindings : List IdentifierBinding) (id : ResourceId) :
    declaredType? (earlier ++ bindings) id =
      (declaredType? earlier id).or (declaredType? bindings id) := by
  rw [declaredType?, List.find?_append, Option.map_or]
  rfl

namespace Registry

variable {catalog : FrameworkCatalog}

/-! ### The first declaration counts -/

/-- A declaration adds an entry for its identifier unless there is one. -/
theorem lookup_declare (r : Registry) (b : IdentifierBinding) (id : ResourceId) :
    (r.declare b).2.store.declared.lookup id =
      (r.store.declared.lookup id).or
        (if b.id = id then some ⟨b.declaredType, b.name⟩ else none) := by
  rw [declare]
  cases hknown : r.store.declared.lookup b.id with
  | some d =>
      by_cases hid : b.id = id
      · rw [if_pos hid, ← hid, hknown, Option.some_or]
      · rw [if_neg hid, Option.or_none]
  | none =>
      by_cases hid : b.id = id
      · rw [if_pos hid, ← hid, hknown, Option.none_or]
        exact List.lookup_cons_self
      · rw [if_neg hid, Option.or_none, List.lookup_cons, beq_eq_false_iff_ne.2 (Ne.symm hid)]

theorem withBindings_concat (catalog : FrameworkCatalog) (bindings : List IdentifierBinding)
    (b : IdentifierBinding) :
    withBindings catalog (bindings ++ [b]) = ((withBindings catalog bindings).declare b).2 :=
  List.foldl_concat ..

/-- What a new registry has and every declaration keeps, a registry with declared identifiers has. -/
theorem withBindings_keeps {P : Registry → Prop} {bindings : List IdentifierBinding}
    (hdeclare : ∀ b ∈ bindings, ∀ r, P r → P (r.declare b).2) (hnew : P (new catalog)) :
    P (withBindings catalog bindings) :=
  List.foldlRecOn bindings _ hnew fun r hr b hb => hdeclare b hb r hr

theorem declared_withBindings (catalog : FrameworkCatalog) (bindings : List IdentifierBinding)
    (id : ResourceId) :
    (withBindings catalog bindings).store.declared.lookup id =
      (bindings.find? (·.id == id)).map fun b => ⟨b.declaredType, b.name⟩ := by
  induction bindings using List.reverseRecOn with
  | nil => rfl
  | append_singleton bindings b ih =>
      rw [withBindings_concat, lookup_declare, ih, List.find?_append, Option.map_or,
        List.find?_singleton]
      by_cases hid : b.id = id
      · rw [if_pos hid, if_pos (beq_iff_eq.2 hid), Option.map_some]
      · rw [if_neg hid, if_neg (mt beq_iff_eq.1 hid), Option.map_none]

theorem declaredType?_withBindings (catalog : FrameworkCatalog)
    (bindings : List IdentifierBinding) (id : ResourceId) :
    (withBindings catalog bindings).declaredType? id = AppDriver.declaredType? bindings id := by
  rw [declaredType?, declared_withBindings, Option.map_map]
  rfl

/-! ### Refused declarations -/

/-- A declaration that was refused, and the registry that refused it. -/
structure Refusal where
  binding : IdentifierBinding
  registry : Registry

/-- The declarations that are refused where bindings are declared one after another. -/
def refusals (r : Registry) : List IdentifierBinding → List Refusal
  | [] => []
  | b :: bindings =>
    let out := r.declare b
    if out.1 then out.2.refusals bindings else ⟨b, r⟩ :: out.2.refusals bindings

/-- Whether a conflict says of a refused declaration which type the registry held for the identifier
at that moment, which it still holds in the end, and which other type it ignored. -/
structure Refusal.IsReportedBy (last : Registry) (refusal : Refusal)
    (conflict : IdentifierConflict) : Prop where
  id : conflict.id = refusal.binding.id
  kept : refusal.registry.declaredType? conflict.id = some conflict.kept
  ignored : conflict.ignored = refusal.binding.declaredType
  differs : conflict.kept ≠ conflict.ignored
  stays : last.declaredType? conflict.id = some conflict.kept

theorem declare_fst (r : Registry) (b : IdentifierBinding) :
    (r.declare b).1 = (r.declaredType? b.id).all (· == b.declaredType) := by
  rw [declare, declaredType?]
  cases r.store.declared.lookup b.id <;> rfl

/-- After other bindings, one is refused if the first of its identifier has another type. -/
theorem refusals_cons (catalog : FrameworkCatalog) (earlier bindings : List IdentifierBinding)
    (b : IdentifierBinding) :
    (withBindings catalog earlier).refusals (b :: bindings) =
      let rest := (withBindings catalog (earlier ++ [b])).refusals bindings
      if (AppDriver.declaredType? earlier b.id).all (· == b.declaredType) then rest
      else ⟨b, withBindings catalog earlier⟩ :: rest := by
  rw [refusals, declare_fst, declaredType?_withBindings, withBindings_concat]

/-- Declaring bindings after others, the registry refuses what the list reports. -/
theorem refusals_reported (catalog : FrameworkCatalog) (earlier bindings : List IdentifierBinding) :
    List.Forall₂ (Refusal.IsReportedBy (withBindings catalog (earlier ++ bindings)))
      ((withBindings catalog earlier).refusals bindings) (conflictsAfter earlier bindings) := by
  induction bindings generalizing earlier with
  | nil => exact .nil
  | cons b bindings ih =>
      have hrest := ih (earlier ++ [b])
      rw [List.append_assoc, List.singleton_append] at hrest
      rw [refusals_cons, conflictsAfter]
      cases hfirst : AppDriver.declaredType? earlier b.id with
      | none => exact hrest
      | some kept =>
          by_cases hsame : kept = b.declaredType
          · simpa [hsame] using hrest
          · have hreported : Refusal.IsReportedBy (withBindings catalog (earlier ++ b :: bindings))
                ⟨b, withBindings catalog earlier⟩ ⟨b.id, kept, b.declaredType⟩ := {
              id := rfl
              kept := (declaredType?_withBindings catalog earlier b.id).trans hfirst
              ignored := rfl
              differs := hsame
              stays := by
                rw [declaredType?_withBindings, declaredType?_append, hfirst, Option.some_or] }
            simpa [hsame] using List.Forall₂.cons hreported hrest

/-- A binding that is not refused has the type that the registry holds in the end. -/
theorem declaredType?_or_refused (catalog : FrameworkCatalog)
    (earlier bindings : List IdentifierBinding) {b : IdentifierBinding} (hb : b ∈ bindings) :
    (withBindings catalog (earlier ++ bindings)).declaredType? b.id = some b.declaredType ∨
      ∃ refusal ∈ (withBindings catalog earlier).refusals bindings, refusal.binding = b := by
  induction bindings generalizing earlier with
  | nil => cases hb
  | cons head bindings ih =>
      rw [refusals_cons]
      rcases List.mem_cons.1 hb with rfl | hb
      · rw [declaredType?_withBindings, declaredType?_append]
        cases hfirst : AppDriver.declaredType? earlier b.id with
        | none => simp [AppDriver.declaredType?]
        | some kept => by_cases hsame : kept = b.declaredType <;> simp [hsame]
      · have hrest := ih (earlier ++ [head]) hb
        rw [List.append_assoc, List.singleton_append] at hrest
        refine hrest.imp_right fun ⟨refusal, hrefusal, hbinding⟩ => ⟨refusal, ?_, hbinding⟩
        dsimp only
        split
        · exact hrefusal
        · exact List.mem_cons_of_mem _ hrefusal

/-- **Refused declarations and conflicts.** A registry with declared identifiers and the list of
their bindings agree on the type of every identifier. Of bindings that are declared one after
another, the registry refuses those that the list reports as conflicts, in the same order, and what
is reported is the type that the registry holds when it refuses the binding and holds in the end.
Every other binding has the type that it holds in the end. -/
theorem refusals_are_conflicts (catalog : FrameworkCatalog) (bindings : List IdentifierBinding) :
    (∀ id, (withBindings catalog bindings).declaredType? id =
      AppDriver.declaredType? bindings id) ∧
    List.Forall₂ (Refusal.IsReportedBy (withBindings catalog bindings))
      ((new catalog).refusals bindings) (identifierConflicts bindings) ∧
    ∀ b ∈ bindings, (withBindings catalog bindings).declaredType? b.id = some b.declaredType ∨
      ∃ refusal ∈ (new catalog).refusals bindings, refusal.binding = b :=
  ⟨declaredType?_withBindings catalog bindings, refusals_reported catalog [] bindings,
    fun _ hb => declaredType?_or_refused catalog [] bindings hb⟩

/-- A button that other layouts declare as a text and as a button, with another view in between. -/
def sharedIds : List IdentifierBinding :=
  [⟨7, ⟨"android.widget.Button"⟩, none, some "main"⟩, ⟨5, TypeName.view, none, some "main"⟩,
    ⟨7, ⟨"android.widget.TextView"⟩, none, some "alt"⟩,
    ⟨7, ⟨"android.widget.Button"⟩, none, some "land"⟩]

/-- Only the declaration as a text is refused, and the button stays one. -/
theorem sharedIds_refused :
    (withBindings {} sharedIds).declaredType? 7 = some ⟨"android.widget.Button"⟩ ∧
    ∃ r, (new {}).refusals sharedIds =
        [⟨⟨7, ⟨"android.widget.TextView"⟩, none, some "alt"⟩, r⟩] ∧
      Refusal.IsReportedBy (withBindings {} sharedIds)
        ⟨⟨7, ⟨"android.widget.TextView"⟩, none, some "alt"⟩, r⟩
        ⟨7, ⟨"android.widget.Button"⟩, ⟨"android.widget.TextView"⟩⟩ := by
  obtain ⟨htypes, hreports, haccepted⟩ := refusals_are_conflicts {} sharedIds
  have hconflicts : identifierConflicts sharedIds =
      [⟨7, ⟨"android.widget.Button"⟩, ⟨"android.widget.TextView"⟩⟩] := by decide +kernel
  rw [hconflicts, List.forall₂_cons_right_iff] at hreports
  obtain ⟨refusal, rest, hreported, hrest, hrefusals⟩ := hreports
  obtain rfl := List.forall₂_nil_right_iff.1 hrest
  -- The text is a member of the list whose type is not the one that is held in the end.
  obtain hheld | ⟨refused, hmem, hbinding⟩ := haccepted
    ⟨7, ⟨"android.widget.TextView"⟩, none, some "alt"⟩ (by decide)
  · rw [htypes] at hheld
    exact absurd hheld (by decide +kernel)
  · rw [hrefusals, List.mem_singleton] at hmem
    obtain ⟨binding, registry⟩ := refusal
    obtain rfl : binding = ⟨7, ⟨"android.widget.TextView"⟩, none, some "alt"⟩ :=
      (congrArg Refusal.binding hmem).symm.trans hbinding
    exact ⟨(htypes 7).trans (by decide +kernel), registry, hrefusals, hreported⟩

end Registry
end AppDriver
