import AppDriver.Facts
import Mathlib.Data.List.Nodup

/-! Which facts documents are accepted. The check stops at the first fault, in an order of its own;
what it lets pass is described without that order. -/

namespace AppDriver

/-- Whether a component class and all that it declares have names. -/
structure Component.Named (c : Component) : Prop where
  name : c.name.text ≠ ""
  lifecycle : ∀ m ∈ c.lifecycle, m.name ≠ ""
  methods : ∀ m ∈ c.methods, m.name ≠ ""
  listeners : ∀ l ∈ c.listeners, ∀ m ∈ l.methods, m.name ≠ ""
  handlers : ∀ name ∈ c.handlers, name ≠ ""

/-- Whether a document is of the known version, everything in it has a name, and no two components
have the same one. -/
structure Facts.Acceptable (d : Facts) : Prop where
  version : d.version = 1
  components : ∀ c ∈ d.components, c.Named
  distinct : (d.components.map (·.name)).Nodup
  services : ∀ name ∈ d.services, name ≠ ""
  handlers : ∀ b ∈ d.handlers, b.method ≠ ""

/-- A check finds nothing if its condition fails and the checks after it find nothing. -/
theorem check_eq_none {found : Bool} {e : FactsError} {rest : Option FactsError} :
    (if found = true then some e else rest) = none ↔ found = false ∧ rest = none := by
  cases found <;> simp

theorem any_isEmpty_eq_false {as : List α} {f : α → String} :
    as.any (fun a => (f a).isEmpty) = false ↔ ∀ a ∈ as, f a ≠ "" := by
  simp [List.any_eq_false, String.isEmpty_iff]

namespace Component

theorem nameFault?_eq_none {c : Component} : c.nameFault? = none ↔
    (∀ m ∈ c.mentionedMethods, m.name ≠ "") ∧ ∀ name ∈ c.handlers, name ≠ "" := by
  rw [nameFault?, check_eq_none, check_eq_none, any_isEmpty_eq_false]
  exact and_congr_right fun _ => (and_iff_left rfl).trans (any_isEmpty_eq_false (f := fun s => s))

theorem named_iff {c : Component} : c.Named ↔ c.name.text ≠ "" ∧ c.nameFault? = none := by
  rw [nameFault?_eq_none]
  constructor
  · intro h
    refine ⟨h.name, fun m hm => ?_, h.handlers⟩
    rcases List.mem_append.1 hm with hm | hm
    · exact (List.mem_append.1 hm).elim (h.lifecycle m) (h.methods m)
    · obtain ⟨l, hl, hm⟩ := List.mem_flatMap.1 hm
      exact h.listeners l hl m hm
  · rintro ⟨hname, hmethods, hhandlers⟩
    exact
      { name := hname
        lifecycle := fun m hm => hmethods m (List.mem_append_left _ (List.mem_append_left _ hm))
        methods := fun m hm => hmethods m (List.mem_append_left _ (List.mem_append_right _ hm))
        listeners := fun l hl m hm =>
          hmethods m (List.mem_append_right _ (List.mem_flatMap.2 ⟨l, hl, hm⟩))
        handlers := hhandlers }

end Component

/-- What the check of the components lets pass, after components of certain names. -/
theorem componentsFault?_eq_none {seen : List TypeName} {components : List Component} :
    componentsFault? seen components = none ↔
      (∀ c ∈ components, c.Named) ∧ (components.map (·.name)).Nodup ∧
        ∀ c ∈ components, c.name ∉ seen := by
  induction components generalizing seen with
  | nil => simp [componentsFault?]
  | cons c components ih =>
      rw [componentsFault?, List.map_cons, List.nodup_cons, List.forall_mem_cons,
        List.forall_mem_cons, Component.named_iff]
      by_cases hname : c.name.text = ""
      · simp [hname]
      by_cases hseen : c.name ∈ seen
      · simp [hname, hseen]
      rw [if_neg (by simpa using hname), if_neg (by simpa using hseen), Option.or_eq_none_iff, ih]
      simp only [List.mem_cons, not_or, List.mem_map, not_exists, not_and]
      constructor
      · rintro ⟨hfault, hrest, hnodup, hnew⟩
        exact ⟨⟨⟨hname, hfault⟩, hrest⟩, ⟨fun c' hc' => (hnew c' hc').1, hnodup⟩, hseen,
          fun c' hc' => (hnew c' hc').2⟩
      · rintro ⟨⟨⟨-, hfault⟩, hrest⟩, ⟨hother, hnodup⟩, -, hnew⟩
        exact ⟨hfault, hrest, hnodup, fun c' hc' => ⟨hother c' hc', hnew c' hc'⟩⟩

namespace Facts

variable {d : Facts}

theorem acceptable_iff : d.Acceptable ↔ d.validate = .ok () := by
  have hbindings : ((d.handlers.find? (·.method.isEmpty)).map fun b =>
      FactsError.emptyBindingMethod b.identifier) = none ↔ ∀ b ∈ d.handlers, b.method ≠ "" := by
    simp [String.isEmpty_iff]
  rw [validate_ok_iff, fault?]
  by_cases hversion : d.version = 1
  · rw [if_neg (not_not.2 hversion), Option.or_eq_none_iff, componentsFault?_eq_none,
      check_eq_none, any_isEmpty_eq_false (f := fun s => s), hbindings]
    constructor
    · intro h
      exact ⟨⟨h.components, h.distinct, fun _ _ => List.not_mem_nil⟩, h.services, h.handlers⟩
    · rintro ⟨⟨hcomponents, hdistinct, -⟩, hservices, hhandlers⟩
      exact ⟨hversion, hcomponents, hdistinct, hservices, hhandlers⟩
  · rw [if_pos hversion]
    exact ⟨fun h => (hversion h.version).elim, fun h => by cases h⟩

/-- The components of an accepted document have different names. -/
theorem names_nodup (h : d.validate = .ok ()) : (d.components.map (·.name)).Nodup :=
  (acceptable_iff.2 h).distinct

end Facts
end AppDriver
