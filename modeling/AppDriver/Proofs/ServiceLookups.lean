import AppDriver.Proofs.LabelScopes
import AppDriver.Proofs.LabelTexts
import AppDriver.Proofs.ObjectTypes
import AppDriver.Proofs.StringLiterals

/-!
How the lookup of services in the stubs class answers. There is a case for each known service whose
type has a shared object, with the name of the service between quotes as it stands. So a service that
a document looks up is answered with its own stand-in unless its type is a plain value, which is kept
in another table, or its name cannot stand between quotes.
-/

namespace AppDriver

open Registry (Reachable)

namespace Java

/-! ### The text of the lookup -/

/-- The line of a case, given the text between its quotes and the label that it returns. -/
def caseLine (literal label : String) : Item :=
  .line ("case " ++ ("\"" ++ literal ++ "\"") ++ ": return " ++ label ++ ";")

/-- The names of services that have a case, with the stand-ins they are answered with. -/
def serviceCases (p : Procedure) : List (String × StandInRef) :=
  (sortedServices p.registry.catalog).filterMap fun (name, t) =>
    (p.registry.lookupAmbient? t).map (name, ·)

/-- The lines of the cases. -/
def serviceCaseLines (p : Procedure) : List Item :=
  (serviceCases p).map fun c => caseLine c.1 (p.registry.label c.2)

/-- The lookup of services. -/
def serviceSwitch (p : Procedure) : Item :=
  .block "public static Object getSystemService(String name)"
    [.block "switch (name)" (serviceCaseLines p ++ [.line "default: return null;"])]

/-- The text of the stubs class has a lookup of services in which a case, whose literal denotes a
name, returns a label. -/
structure AnswersService (e : EmitSection) (p : Procedure) (name label : String) : Prop where
  text : ∃ before after, stubs e p = Item.text (before ++ Item.lines 1 (serviceSwitch p) ++ after)
  answer : ∃ literal, Spells literal name ∧ caseLine literal label ∈ serviceCaseLines p

theorem serviceLookup_eq (p : Procedure) : serviceLookup p = [.blank, serviceSwitch p] := by
  simp only [serviceLookup, lookup, method, serviceSwitch, serviceCaseLines, serviceCases,
    List.map_filterMap, Option.map_map]
  rfl

theorem stubs_serviceSwitch (e : EmitSection) (p : Procedure) :
    ∃ before after, stubs e p = Item.text (before ++ Item.lines 1 (serviceSwitch p) ++ after) :=
  shows_of_mem e (by simp [stubsItems, serviceLookup_eq])

theorem mem_serviceCases {p : Procedure} {name : String} {x : StandInRef} :
    (name, x) ∈ serviceCases p ↔
      ∃ t, (name, t) ∈ p.registry.catalog.services ∧ p.registry.lookupAmbient? t = some x := by
  simp only [serviceCases, sortedServices, List.mem_filterMap, (sorted_perm _ _).mem_iff,
    Option.map_eq_some_iff, Prod.mk.injEq, Prod.exists]
  constructor
  · rintro ⟨name', t, hmem, x', hx, rfl, rfl⟩
    exact ⟨t, hmem, hx⟩
  · rintro ⟨t, hmem, hx⟩
    exact ⟨name, t, hmem, x, hx, rfl, rfl⟩

/-- A line says what its case is for and what it returns: the label begins after the last blank. -/
theorem caseLine_inj {literal literal' label label' : String} (hlabel : Label.IsLabel label)
    (hlabel' : Label.IsLabel label') (h : caseLine literal label = caseLine literal' label') :
    literal = literal' ∧ label = label' := by
  have hblank : ∀ {l : String}, Label.IsLabel l → ' ' ∉ (l ++ ";").toList := fun hl hmem => by
    rw [String.toList_append, List.mem_append] at hmem
    exact hmem.elim (hl.not_mem (by decide)) (by decide)
  have htexts := congrArg String.toList (Item.line.inj h)
  have hsplit : ∀ l m : String,
      ("case " ++ ("\"" ++ l ++ "\"") ++ ": return " ++ m ++ ";").toList =
        ("case \"" ++ l ++ "\": return").toList ++ ' ' :: (m ++ ";").toList := fun l m => by
    simp
  rw [hsplit, hsplit] at htexts
  obtain ⟨hliterals, hlabels⟩ :=
    append_cons_inj_of_not_mem_right (hblank hlabel) (hblank hlabel') htexts
  simp only [String.toList_append] at hliterals hlabels
  exact ⟨String.toList_inj.1
      (List.append_cancel_left (List.append_cancel_right hliterals)),
    String.toList_inj.1 (List.append_cancel_right hlabels)⟩

end Java

namespace Synthesizer

variable (y : Synthesizer) (d : Facts)

theorem catalog_substitutesObjects : y.catalog.SubstitutesObjects := by
  have hrecipes : ∀ (services : List (String × String)) (c : FrameworkCatalog),
      (services.foldl (fun c e => c.withService e.1 (TypeName.ofText e.2)) c).recipes =
        c.recipes := by
    intro services
    induction services with
    | nil => exact fun c => rfl
    | cons e services ih => exact fun c => (ih _).trans rfl
  apply FrameworkCatalog.substitutesObjects_of_recipes
  rw [catalog, hrecipes]
  decide +kernel

variable {d} {name : String} {t : TypeName}

/-- A service that is looked up, in the registry of the document. -/
theorem service_known (hname : name ∈ d.services) :
    ∃ x, (y.servicesRegistry d).store.services.lookup name = some x ∧
      ((y.synthesizeFacts d).registry.systemService name).1 = x ∧
      (y.synthesizeFacts d).registry.store.Has x := by
  have hevolves := y.servicesRegistry_evolves d
  obtain ⟨x, hx⟩ := y.exists_service hname
  have hlate := hevolves.grows.services name x hx
  exact ⟨x, hx, congrArg Prod.fst (Registry.systemService_of_known hlate),
    hevolves.sound.services.lookup hlate⟩

variable {x : StandInRef} (hx : (y.servicesRegistry d).store.services.lookup name = some x)
  (ht : y.catalog.serviceType? name = some t)

include hx ht in
/-- A service is kept as the shared object of its type, or as the value of a plain one. -/
theorem service_kept : if t.isPlainValue then (y.servicesRegistry d).store.values.lookup t = some x
    else (y.servicesRegistry d).lookupAmbient? t = some x := by
  have hshares := y.servicesRegistry_shares d
  have hnone : (y.servicesRegistry d).component? t = none := by
    rw [Registry.component?, Store.component?, hshares.components]
    rfl
  have hshared := hshares.shared name x t hx ht
  rw [Registry.remembered?, hnone] at hshared
  cases hfound : (y.servicesRegistry d).lookupAmbient? t with
  | none => simpa [hfound] using hshared
  | some x' =>
      rw [hfound] at hshared
      cases hshared
      split
      · rename_i hplain
        exact hshares.sound.plainAmbients t x (Workshop.mem_of_lookup hfound) hplain
      · rfl

theorem catalog_synthesizeFacts : (y.synthesizeFacts d).registry.catalog = y.catalog :=
  (congrArg Workshop.catalog (y.servicesRegistry_evolves d).workshop).trans
    (y.servicesRegistry_shares d).catalog_eq

include hx ht in
/-- A service whose type is a plain value is what no type is answered with. -/
theorem not_plain_of_lookupAmbient? {t' : TypeName}
    (hfound : (y.synthesizeFacts d).registry.lookupAmbient? t' = some x) :
    t.isPlainValue = false := by
  by_contra hplain
  have hkept := y.service_kept hx ht
  rw [if_pos (Bool.of_not_eq_false hplain)] at hkept
  have htype := Store.typeAt?_extend (y.servicesRegistry_evolves d).grows.arena
    ((y.servicesRegistry_shares d).sound.values t x (Workshop.mem_of_lookup hkept))
  obtain ⟨t'', htype', hobject⟩ := (y.synthesizeFacts_grounded d).reachable.sharesObjects
    (y.catalog_synthesizeFacts ▸ y.catalog_substitutesObjects) _ (Workshop.mem_of_lookup hfound)
  rw [htype, Option.some.injEq] at htype'
  exact hplain (htype' ▸ hobject)

/-- A case that returns the label of a stand-in is that of a service whose type it is shared for. -/
theorem service_of_caseLine (hhas : (y.synthesizeFacts d).registry.store.Has x) {literal : String}
    (h : Java.caseLine literal ((y.synthesizeFacts d).registry.label x) ∈
      Java.serviceCaseLines (y.synthesizeFacts d)) :
    ∃ t', (literal, t') ∈ y.catalog.services ∧
      (y.synthesizeFacts d).registry.lookupAmbient? t' = some x := by
  have hgrounded := y.synthesizeFacts_grounded d
  obtain ⟨⟨name', z⟩, hcase, hline⟩ := List.mem_map.1 h
  obtain ⟨t', hservice, hz⟩ := Java.mem_serviceCases.1 hcase
  have hhasz : (y.synthesizeFacts d).registry.store.Has z :=
    hgrounded.reachable.sound.ambients.lookup hz
  obtain ⟨rfl, hlabels⟩ := Java.caseLine_inj (hgrounded.isLabel_label hhasz)
    (hgrounded.isLabel_label hhas) hline
  have hsame : some z = some x := by
    rw [← hgrounded.labelled?_label hhasz, hlabels, hgrounded.labelled?_label hhas]
  rw [y.catalog_synthesizeFacts] at hservice
  exact ⟨t', hservice, hz.trans hsame⟩

/-- **Answered services.** In the stubs class of a document, a service that the document looks up and
whose type is known is answered with its own stand-in exactly if the type is no plain value, and the
name can stand between quotes as it is or is what the literal of another service of this stand-in
denotes. -/
theorem service_answered_iff (e : EmitSection) (hname : name ∈ d.services)
    (ht : y.catalog.serviceType? name = some t) :
    Java.AnswersService e (y.synthesizeFacts d) name ((y.synthesizeFacts d).registry.label
        ((y.synthesizeFacts d).registry.systemService name).1) ↔
      t.isPlainValue = false ∧ (Java.IsVerbatim name ∨ ∃ service ∈ y.catalog.services,
        (y.synthesizeFacts d).registry.lookupAmbient? service.2 =
          some ((y.synthesizeFacts d).registry.systemService name).1 ∧
        Java.Spells service.1 name) := by
  obtain ⟨x, hx, hservice, hhas⟩ := y.service_known hname
  rw [hservice]
  constructor
  · rintro ⟨-, literal, hspells, hline⟩
    obtain ⟨t', hmem, hfound⟩ := y.service_of_caseLine hhas hline
    exact ⟨y.not_plain_of_lookupAmbient? hx ht hfound, .inr ⟨(literal, t'), hmem, hfound, hspells⟩⟩
  · rintro ⟨hplain, hnamed⟩
    have hanswer : ∀ service ∈ y.catalog.services,
        (y.synthesizeFacts d).registry.lookupAmbient? service.2 = some x →
        Java.Spells service.1 name → Java.AnswersService e (y.synthesizeFacts d) name
          ((y.synthesizeFacts d).registry.label x) := by
      intro service hmem hfound hspells
      refine ⟨Java.stubs_serviceSwitch e _, service.1, hspells, ?_⟩
      rw [← y.catalog_synthesizeFacts] at hmem
      have hcase : (service.1, x) ∈ Java.serviceCases (y.synthesizeFacts d) :=
        Java.mem_serviceCases.2 ⟨service.2, hmem, hfound⟩
      rw [Java.serviceCaseLines]
      exact List.mem_map.2 ⟨(service.1, x), hcase, rfl⟩
    rcases hnamed with hverbatim | ⟨service, hmem, hfound, hspells⟩
    · have hkept := y.service_kept hx ht
      rw [if_neg (Bool.eq_false_iff.1 hplain)] at hkept
      exact hanswer (name, t) (Workshop.mem_of_lookup ht)
        ((y.servicesRegistry_evolves d).grows.ambients t x hkept)
        ((Java.spells_self_iff name).2 hverbatim)
    · exact hanswer service hmem hfound hspells

/-- The accounts that an app looks up are answered with what the registry answers with. -/
theorem accounts_answered :
    "account" ∈ accountFacts.services ∧
      (Synthesizer.catalog {}).serviceType? "account" =
        some ⟨"android.accounts.AccountManager"⟩ ∧
      Java.AnswersService .standard (synthesizeFacts {} accountFacts) "account"
        ((synthesizeFacts {} accountFacts).registry.label
          ((synthesizeFacts {} accountFacts).registry.systemService "account").1) := by
  have hname : "account" ∈ accountFacts.services := List.mem_singleton.2 rfl
  have ht : (Synthesizer.catalog {}).serviceType? "account" =
      some ⟨"android.accounts.AccountManager"⟩ := by decide +kernel
  exact ⟨hname, ht, (service_answered_iff {} .standard hname ht).2
    ⟨by decide +kernel, .inl (by decide +kernel)⟩⟩

/-- A configuration with a service that is a text. -/
def mottoConfig : HarnessConfig := HarnessConfig.set {} (.service "motd" "java.lang.String")

def mottoSynthesizer : Synthesizer :=
  { config := { source := mottoConfig, fabrication := mottoConfig.fabricationInEffect } }

/-- An app that looks the text up. -/
def mottoFacts : Facts := { services := ["motd"] }

/-- The text is a plain value, and no case returns it. -/
theorem motto_not_answered :
    mottoConfig.build = .ok mottoSynthesizer.config ∧ "motd" ∈ mottoFacts.services ∧
      mottoSynthesizer.catalog.serviceType? "motd" = some ⟨"java.lang.String"⟩ ∧
      ¬Java.AnswersService .standard (mottoSynthesizer.synthesizeFacts mottoFacts) "motd"
        ((mottoSynthesizer.synthesizeFacts mottoFacts).registry.label
          ((mottoSynthesizer.synthesizeFacts mottoFacts).registry.systemService "motd").1) := by
  have hname : "motd" ∈ mottoFacts.services := List.mem_singleton.2 rfl
  have ht : mottoSynthesizer.catalog.serviceType? "motd" = some ⟨"java.lang.String"⟩ := by
    decide +kernel
  refine ⟨by decide +kernel, hname, ht, fun hanswers => ?_⟩
  obtain ⟨x, hx, hservice, hhas⟩ := mottoSynthesizer.service_known hname
  rw [hservice] at hanswers
  obtain ⟨literal, -, hline⟩ := hanswers.answer
  obtain ⟨t', -, hfound⟩ := mottoSynthesizer.service_of_caseLine hhas hline
  have hplain := mottoSynthesizer.not_plain_of_lookupAmbient? hx ht hfound
  revert hplain
  decide +kernel

end Synthesizer
end AppDriver
