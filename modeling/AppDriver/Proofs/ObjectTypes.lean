import AppDriver.Proofs.RegistryChanges
import AppDriver.Proofs.SharedObjects

/-! Types of shared objects. Where no recipe puts a plain value in the place of another type, no type
is answered with a plain value: such values are kept in a table of their own. -/

namespace AppDriver

/-- Whether no type is fabricated as a plain value in its place. -/
def FrameworkCatalog.SubstitutesObjects (c : FrameworkCatalog) : Prop :=
  ∀ t concrete, c.recipeFor t = some (.substitute concrete) → concrete.isPlainValue = false

/-- The type that is fabricated instead. -/
def Recipe.substitute? : Recipe → Option TypeName
  | .substitute concrete => some concrete
  | _ => none

/-- Types without an entry are never substituted. -/
theorem FrameworkCatalog.substitutesObjects_of_recipes {c : FrameworkCatalog}
    (h : ∀ e ∈ c.recipes, e.2.substitute?.all (!·.isPlainValue) = true) :
    c.SubstitutesObjects := by
  intro t concrete hrecipe
  rw [recipeFor] at hrecipe
  split at hrecipe
  · rename_i recipe hlookup
    obtain rfl := Option.some.inj hrecipe
    simpa [Recipe.substitute?] using h _ (Workshop.mem_of_lookup hlookup)
  · split at hrecipe <;> cases hrecipe

namespace Store

variable {s s' : Store} {t : TypeName} {origin : Origin} {construction : Construction}
  {hint : String} {x : StandInRef}

/-- Whether a reference denotes a stand-in whose type is that of an object. -/
def HasObject (s : Store) (x : StandInRef) : Prop :=
  ∃ t, s.typeAt? x = some t ∧ t.isPlainValue = false

theorem HasObject.later (h : s.HasObject x) (harena : s.arena <+: s'.arena) : s'.HasObject x := by
  obtain ⟨t, ht, hplain⟩ := h
  exact ⟨t, typeAt?_extend harena ht, hplain⟩

/-- Whether no type is answered with a plain value. -/
def SharesObjects (s : Store) : Prop := ∀ e ∈ s.ambients, s.HasObject e.2

theorem SharesObjects.extend (h : s.SharesObjects) (harena : s.arena <+: s'.arena)
    (hambients : s'.ambients = s.ambients) : s'.SharesObjects := by
  intro e he
  rw [hambients] at he
  exact (h e he).later harena

theorem SharesObjects.push (h : s.SharesObjects) (t : TypeName) (origin : Origin)
    (construction : Construction) (hint : String) :
    (s.push t origin construction hint).2.SharesObjects :=
  h.extend (s.push_grows t origin construction hint).arena rfl

theorem SharesObjects.value (h : s.SharesObjects) (n : Nat) (t : TypeName) :
    (s.value n t).2.SharesObjects :=
  h.extend (s.value_grows n t).arena (s.value_untouched n t).1

theorem SharesObjects.typedNull (h : s.SharesObjects) (t : TypeName) :
    (s.typedNull t).2.SharesObjects :=
  h.extend (s.typedNull_grows t).arena (s.typedNull_untouched t).1

theorem SharesObjects.settleAmbient (h : s.SharesObjects) (hx : s.HasObject x) :
    (s.settleAmbient t x).2.SharesObjects := by
  have harena : s.arena <+: (s.settleAmbient t x).2.arena :=
    (s.settleAmbient_untouched t x).1 ▸ List.prefix_rfl
  intro e he
  rcases mem_settleAmbient he with hold | ⟨hnew, -⟩
  · exact (h e hold).later harena
  · exact hnew ▸ hx.later harena

end Store

namespace Workshop

open Store (SharesObjects)

/-- What is fabricated for an object is one. -/
structure MakesObject (out : StandInRef × Store) : Prop where
  shares : out.2.SharesObjects
  object : out.2.HasObject out.1

variable {t : TypeName} {origin : Origin} {construction : Construction} {hint : String} {s : Store}

theorem MakesObject.forgetCycle {out : StandInRef × Store} (h : MakesObject out) :
    MakesObject (out.1, out.2.forgetCycle t) :=
  ⟨h.shares.extend List.prefix_rfl rfl, h.object.later List.prefix_rfl⟩

theorem MakesObject.pushed (h : s.SharesObjects) (hplain : t.isPlainValue = false) :
    MakesObject (s.push t origin construction hint) :=
  ⟨h.push t origin construction hint, t, s.push_typeAt? t origin construction hint, hplain⟩

/-- Also where a cycle was cut, since it was cut with an object of the same type. -/
theorem MakesObject.completed (hs : s.Sound) (h : s.SharesObjects) (hplain : t.isPlainValue = false) :
    MakesObject (s.complete t origin construction hint) := by
  have hforget : (s.forgetCycle t).SharesObjects := h.extend List.prefix_rfl rfl
  rw [Store.complete]
  split
  · rename_i broken hbroken
    split
    · exact ⟨hforget, t, (hs.cycleBreaks t broken (mem_of_lookup hbroken)).1, hplain⟩
    · exact .pushed hforget hplain
  · exact .pushed h hplain

theorem fabrication_sharesObjects {w : Workshop} (hcatalog : w.catalog.SubstitutesObjects)
    (batch : List Component) :
    (∀ u t s, s.Sound → s.SharesObjects → (w.ambient batch u t s).2.SharesObjects) ∧
    (∀ u t origin hint s, s.Sound → s.SharesObjects → t.isPlainValue = false →
      MakesObject (w.fabricate batch u t origin hint s)) ∧
    (∀ u params s, s.Sound → s.SharesObjects →
      (w.materialize batch u params s).2.SharesObjects) ∧
    (∀ u p s, s.Sound → s.SharesObjects → (w.supply batch u p s).2.SharesObjects) := by
  apply w.fabrication_induction batch
    (fun _ _ s out => s.SharesObjects → out.2.SharesObjects)
    (fun _ t _ _ s out => s.SharesObjects → t.isPlainValue = false → MakesObject out)
    (fun _ _ s out => s.SharesObjects → out.2.SharesObjects)
    (fun _ _ s out => s.SharesObjects → out.2.SharesObjects)
  case registered =>
      intro u t s x hs hx h
      exact h
  case cutClass =>
      intro u s c hs hnew hfind hbusy h
      exact (h.typedNull c.name).extend List.prefix_rfl rfl
  case enrolled =>
      intro u s c args hs hnew hfind hbusy hargs hstill ih h
      exact ((ih h).push c.name _ _ _).extend List.prefix_rfl rfl
  case known =>
      intro u t s x hs hnew hfind hx h
      exact h
  case plain =>
      intro u t s hs hnew hfind hambient hplain h
      exact h.value _ t
  case settled =>
      intro u t s made hs hnew hfind hambient hplain hmade ih h
      obtain ⟨hshares, hobject⟩ := ih h hplain
      exact hshares.settleAmbient hobject
  case fabricatedPlain =>
      intro u t origin hint s hs hplain h hobject
      rw [hplain] at hobject
      cases hobject
  case cutType =>
      intro u t origin hint s hs hplain hbusy h _
      have hmade : MakesObject (s.push t origin .degenerate hint) := .pushed h hplain
      exact ⟨hmade.shares.extend List.prefix_rfl rfl, hmade.object.later List.prefix_rfl⟩
  case noRecipe =>
      intro u t origin hint s hs hplain hbusy hrecipe h _
      have hmade : MakesObject (s.push t origin .degenerate hint) := .pushed h hplain
      exact ⟨hmade.shares.extend List.prefix_rfl rfl, hmade.object.later List.prefix_rfl⟩
  case unfabricable =>
      intro u t origin hint s hs hplain hbusy hrecipe h _
      have hmade : MakesObject (s.push t origin .degenerate hint) := .pushed h hplain
      exact ⟨hmade.shares.extend List.prefix_rfl rfl, hmade.object.later List.prefix_rfl⟩
  case staticField =>
      intro u t origin hint s owner field hs hplain hbusy hrecipe h _
      exact (MakesObject.pushed h hplain).forgetCycle
  case substituted =>
      intro u t origin hint s concrete made hs hplain hbusy hrecipe hmade ih h _
      exact (ih h (hcatalog t concrete hrecipe)).forgetCycle
  case completed =>
      intro u t origin hint s recipe args construction hs hplain hbusy hrecipe hbuilds hargs ih h _
      exact (MakesObject.completed ((hargs hs).1.sound hs) (ih h) hplain).forgetCycle
  case nil =>
      intro u s hs h
      exact h
  case cons =>
      intro u p ps s first rest hs hfirst hrest ihfirst ihrest h
      exact ihrest (ihfirst h)
  case object =>
      intro u p s out hs hshared ih
      exact ih
  case typedNull =>
      intro u t s hs h
      exact h.typedNull t
  case value =>
      intro u t s hs h
      exact h.value _ t

end Workshop

/-! ### Registries -/

theorem Store.Change.sharesObjects {w : Workshop} (hcatalog : w.catalog.SubstitutesObjects)
    {s s' : Store} (hchange : Store.Change w s s') (hs : s.Sound) (h : s.SharesObjects) :
    s'.SharesObjects := by
  obtain ⟨hambient, hfabricate, -, -⟩ := Workshop.fabrication_sharesObjects hcatalog []
  cases hchange with
  | remember hsame hsound => exact h.extend (hsame.arena ▸ List.prefix_rfl) hsame.ambients
  | fabricate t id hint =>
      rw [Workshop.fabricate_eq]
      by_cases hplain : t.isPlainValue = true
      · rw [if_pos hplain]
        exact h.value _ t
      · rw [← Workshop.fabricate_eq]
        exact (hfabricate {} t _ hint s hs h (Bool.eq_false_iff.2 hplain)).shares
  | ambient t => exact hambient {} t s hs h
  | value t => exact h.value _ t
  | register batch c =>
      rw [Workshop.register]
      split
      · exact h
      · have hargs := (Workshop.fabrication_sharesObjects hcatalog batch).2.2.1
          (Underway.enterClass {} c.name) (c.constructorParams.map .ofType) s hs h
        exact (hargs.push c.name _ _ _).extend List.prefix_rfl rfl
  | missing | service => exact (h.push _ _ _ _).extend List.prefix_rfl rfl
  | unresolved | derived => exact h.push _ _ _ _

/-- In a reachable registry over such a catalog no type is answered with a plain value. -/
theorem Registry.Reachable.sharesObjects {r : Registry} (h : r.Reachable)
    (hcatalog : r.catalog.SubstitutesObjects) : r.store.SharesObjects :=
  h.of_catalog_changes (P := fun c s => c.SubstitutesObjects → s.SharesObjects)
    (fun _ _ _ he => (List.not_mem_nil he).elim)
    (fun hchange hs hkept hcatalog => hchange.sharesObjects hcatalog hs (hkept hcatalog)) hcatalog

end AppDriver
