import AppDriver.Config.Document
import AppDriver.Proofs.WrittenTrees
import Mathlib.Data.String.Basic

/-!
Configurations that are written and read again. A section that is written is written with all its
fields, so that the defaults of the reader, which are those of the standard preset, never take
effect in it; a section that is left out is left out again, and takes the values of the preset that
is written beside it. So the configuration that is read is the one that was written, whatever it
overrides.
-/

namespace AppDriver

/-! ### Tables -/

/-- Whether the entries of a table stand in ascending order of their keys, each key once. -/
def IsTable (table : List (String × α)) : Prop := table.Pairwise fun a b => a.1 < b.1

theorem mem_insertEntry {k : String} {v : α} {table : List (String × α)} {e : String × α}
    (he : e ∈ insertEntry k v table) : e = (k, v) ∨ e ∈ table := by
  induction table with
  | nil => exact .inl (List.mem_singleton.1 he)
  | cons e' table ih =>
      rw [insertEntry] at he
      split at he
      · exact (List.mem_cons.1 he).imp_right (List.mem_cons_of_mem _)
      · split at he
        · exact List.mem_cons.1 he
        · rcases List.mem_cons.1 he with rfl | he
          · exact .inr List.mem_cons_self
          · exact (ih he).imp_right (List.mem_cons_of_mem _)

theorem IsTable.insertEntry {table : List (String × α)} (h : IsTable table) (k : String) (v : α) :
    IsTable (insertEntry k v table) := by
  induction table with
  | nil => exact List.pairwise_singleton _ _
  | cons e table ih =>
      obtain ⟨hfirst, hrest⟩ := List.pairwise_cons.1 h
      rw [AppDriver.insertEntry]
      split
      · rename_i hsame
        exact List.pairwise_cons.2 ⟨fun e' he' => hsame ▸ hfirst e' he', hrest⟩
      · rename_i hother
        split
        · rename_i hlt
          refine List.pairwise_cons.2 ⟨fun e' he' => ?_, h⟩
          rcases List.mem_cons.1 he' with rfl | he'
          · exact hlt
          · exact hlt.trans (hfirst e' he')
        · rename_i hnot
          refine List.pairwise_cons.2 ⟨fun e' he' => ?_, ih hrest⟩
          rcases mem_insertEntry he' with rfl | he'
          · exact lt_of_le_of_ne (not_lt.1 hnot) (Ne.symm hother)
          · exact hfirst e' he'

/-- An entry behind all others is put at the end. -/
theorem insertEntry_append {k : String} {v : α} {table : List (String × α)}
    (h : ∀ e ∈ table, e.1 < k) : insertEntry k v table = table ++ [(k, v)] := by
  induction table with
  | nil => rfl
  | cons e table ih =>
      obtain ⟨hlt, hrest⟩ := List.forall_mem_cons.1 h
      rw [insertEntry, if_neg hlt.ne', if_neg hlt.asymm, ih hrest, List.cons_append]

/-- A table that is put together again entry by entry is the same table. -/
theorem serviceTable_of_isTable {table : List (String × String)} (h : IsTable table) :
    FabricationSection.serviceTable table = table := by
  have hfold : ∀ done rest : List (String × String), IsTable (done ++ rest) →
      rest.foldl (fun table e => insertEntry e.1 e.2 table) done = done ++ rest := by
    intro done rest
    induction rest generalizing done with
    | nil => exact fun _ => (List.append_nil done).symm
    | cons e rest ih =>
        intro htable
        have hlast : ∀ e' ∈ done, e'.1 < e.1 := fun e' he' =>
          (List.pairwise_append.1 htable).2.2 e' he' e List.mem_cons_self
        rw [List.foldl_cons, insertEntry_append hlast, ih _ (by simpa using htable)]
        simp
  exact hfold [] table h

/-! ### Sections -/

variable (σ : Spelling) (hflag : ∀ b, Tree.asFlag (.scalar (σ.spell (.flag b))) = some b)

theorem asNamed_text {ofName? : String → Option α} {name : String} {a : α}
    (h : ofName? name = some a) :
    Tree.asNamed ofName? ((Tree.text name).mapScalars σ.spell) = some a := by
  rw [Tree.asNamed, σ.asText_text, Option.bind_some, h]

theorem OrderingSection.decode_toTree (s : OrderingSection) :
    decode (s.toTree.mapScalars σ.spell) = some s := by
  have horder : InstanceOrder.decode ((Tree.text s.instanceOrder.name).mapScalars σ.spell) =
      some s.instanceOrder := asNamed_text σ (by cases s.instanceOrder <;> decide)
  have hplacement : CallbackPlacement.decode
      ((Tree.text s.callbackPlacement.name).mapScalars σ.spell) = some s.callbackPlacement :=
    asNamed_text σ (by cases s.callbackPlacement <;> decide)
  rw [decode, toTree, Tree.of?_mapScalars ?fields ?distinct]
  case fields => exact .field (.field .nil)
  case distinct => decide
  simp [List.lookup_cons, horder, hplacement]

include hflag in
theorem asFlag_flag (b : Bool) : Tree.asFlag ((Tree.flag b).mapScalars σ.spell) = some b := hflag b

theorem asIndex_natural {n : Nat} (h : n < Nat.pow 2 64) :
    Tree.asIndex ((Tree.natural n).mapScalars σ.spell) = some n := σ.asNatural (by decide) h

include hflag in
theorem InterleavingSection.decode_toTree {s : InterleavingSection}
    (h : s.unorderedPasses < Nat.pow 2 64) : decode (s.toTree.mapScalars σ.spell) = some s := by
  have hpasses := asIndex_natural σ h
  have hactive := asFlag_flag σ hflag s.includeActiveLifecycle
  rw [decode, toTree, Tree.of?_mapScalars ?fields ?distinct]
  case fields => exact .field (.field .nil)
  case distinct => decide
  simp [List.lookup_cons, hpasses, hactive]

include hflag in
theorem HandlerSection.decode_toTree (s : HandlerSection) :
    decode (s.toTree.mapScalars σ.spell) = some s := by
  have hpolicy : HandlerPolicy.decode ((Tree.text s.policy.name).mapScalars σ.spell) =
      some s.policy := asNamed_text σ (by cases s.policy <;> decide)
  have hexpand := asFlag_flag σ hflag s.expandListenerCatalog
  rw [decode, toTree, Tree.of?_mapScalars ?fields ?distinct]
  case fields => exact .field (.field .nil)
  case distinct => decide
  simp [List.lookup_cons, hpolicy, hexpand]

theorem asTable_texts (table : List (String × String)) :
    Tree.asTable Tree.asText
      ((Tree.record (table.map fun e => (e.1, .text e.2))).mapScalars σ.spell) = some table := by
  rw [Tree.mapScalars, Tree.mapFields_eq, List.map_map]
  refine (List.mapM_map ..).trans ?_
  refine (mapM_eq_some_map fun e _ => ?_).trans (congrArg some (List.map_id table))
  simp

/-- Whether the numbers of the section fit into their fields and its services are a table. -/
structure FabricationSection.Representable (s : FabricationSection) : Prop where
  arrayLength : s.arrayLength < Nat.pow 2 64
  fanout : s.maxArgumentFanout < Nat.pow 2 64
  services : IsTable s.services

theorem FabricationSection.decode_toTree {s : FabricationSection} (h : s.Representable) :
    decode (s.toTree.mapScalars σ.spell) = some s := by
  have hlength := asIndex_natural σ h.arrayLength
  have hfanout := asIndex_natural σ h.fanout
  have hservices := asTable_texts σ s.services
  have htable := serviceTable_of_isTable h.services
  rw [decode, toTree, Tree.of?_mapScalars ?fields ?distinct]
  case fields => exact .field (.field (.field .nil))
  case distinct => decide
  simp [List.lookup_cons, hlength, hfanout, hservices, htable]

theorem EmitSection.decode_toTree (s : EmitSection) :
    decode (s.toTree.mapScalars σ.spell) = some s := by
  rw [decode, toTree, Tree.of?_mapScalars ?fields ?distinct]
  case fields => exact .field (.field (.field .nil))
  case distinct => decide
  simp [List.lookup_cons]

/-! ### Protocols -/

theorem StepDefinition.decode_toTree (d : StepDefinition) :
    decode (d.toTree.mapScalars σ.spell) = some d := by
  have hphase : Phase.decode (d.phase.toTree.mapScalars σ.spell) = some d.phase :=
    asNamed_text σ d.phase.ofName?_name
  rw [decode, toTree, Tree.of?_mapScalars ?fields ?distinct]
  case fields => exact .field (.field (.field .nil))
  case distinct => decide
  simp [List.lookup_cons, hphase]

theorem ProtocolDefinition.decode_toTree (d : ProtocolDefinition) :
    decode (d.toTree.mapScalars σ.spell) = some d := by
  have hsteps := σ.asList_map fun s (_ : s ∈ d.steps) => s.decode_toTree σ
  have hchains := σ.asList_map fun names (_ : names ∈ d.chains) => σ.asList_texts names
  rw [decode, toTree, Tree.of?_mapScalars ?fields ?distinct]
  case fields => exact .field (.field (.field .nil))
  case distinct => decide
  simp [List.lookup_cons, hsteps, hchains]

theorem LifecycleSection.decode_toTree (s : LifecycleSection) :
    decode (s.toTree.mapScalars σ.spell) = some s := by
  have hprotocols := σ.asList_map fun d (_ : d ∈ s.protocols) => d.decode_toTree σ
  rw [decode, toTree, Tree.of?_mapScalars ?fields ?distinct]
  case fields => exact .field .nil
  case distinct => decide
  simp [hprotocols]

/-! ### Documents -/

/-- What is read as a number is not absent. -/
theorem not_isNull_of_asNatural {bits n : Nat} {t : Tree} (h : Tree.asNatural bits t = some n) :
    t.isNull = false := by
  unfold Tree.asNatural at h
  split at h
  · rfl
  · exact Plain.not_contains_of_natural (Option.filter_eq_some_iff.1 h).1 (by decide +kernel)
  · cases h

/-- Whether the numbers of a configuration fit into their fields and its services are a table. -/
structure HarnessConfig.Representable (c : HarnessConfig) : Prop where
  interleaving : ∀ s ∈ c.interleaving, s.unorderedPasses < Nat.pow 2 64
  fabrication : ∀ s ∈ c.fabrication, s.Representable

include hflag in
theorem HarnessConfig.decode_overridesTree {c : HarnessConfig} (h : c.Representable)
    (preset : Preset) :
    decodeOverrides preset (c.overridesTree.mapScalars σ.spell) = some { c with preset } := by
  have hordering := σ.elim_asOption (o := c.ordering) (fun _ _ => rfl)
    fun s _ => s.decode_toTree σ
  have hinterleaving := σ.elim_asOption (o := c.interleaving) (fun _ _ => rfl)
    fun s hs => InterleavingSection.decode_toTree σ hflag (h.interleaving s hs)
  have hhandlers := σ.elim_asOption (o := c.handlers) (fun _ _ => rfl)
    fun s _ => s.decode_toTree σ hflag
  have hfabrication := σ.elim_asOption (o := c.fabrication) (fun _ _ => rfl)
    fun s hs => FabricationSection.decode_toTree σ (h.fabrication s hs)
  have hemit := σ.elim_asOption (o := c.emit) (fun _ _ => rfl) fun s _ => s.decode_toTree σ
  have hlifecycle := σ.elim_asOption (o := c.lifecycle) (fun _ _ => rfl)
    fun s _ => s.decode_toTree σ
  rw [decodeOverrides, overridesTree, Tree.of?_mapScalars ?fields ?distinct]
  case fields =>
    simpa using Tree.Lists.optionalField (.optionalField (.optionalField (.optionalField
      (.optionalField (.optionalField .nil)))))
  case distinct => decide
  simp [List.lookup_append, hordering, hinterleaving, hhandlers, hfabrication, hemit, hlifecycle]

include hflag in
theorem ConfigDocument.decode_toTree {c : HarnessConfig} (h : c.Representable) :
    decode (c.toTree.mapScalars σ.spell) =
      some ⟨some 1, c.preset.name, { c with preset := .standard }⟩ := by
  have hversion : Tree.asOption (Tree.asNatural 32) ((Tree.natural 1).mapScalars σ.spell) =
      some (some 1) := by
    have hone : Tree.asNatural 32 ((Tree.natural 1).mapScalars σ.spell) = some 1 :=
      σ.asNatural (by decide) (by decide)
    rw [Tree.asOption, not_isNull_of_asNatural hone, hone]
    rfl
  have hoverrides : Tree.asOption (HarnessConfig.decodeOverrides .standard)
      (c.overridesTree.mapScalars σ.spell) = some (some { c with preset := .standard }) := by
    rw [Tree.asOption, HarnessConfig.decode_overridesTree σ hflag h .standard]
    rfl
  rw [decode, HarnessConfig.toTree, Tree.of?_mapScalars ?fields ?distinct]
  case fields => exact .field (.field (.field .nil))
  case distinct => decide
  simp [List.lookup_cons, hversion, hoverrides]

namespace HarnessConfig

/-- The configurations that can be put together: from a preset, section by section, each from the
value that it has so far to any other. -/
inductive Assembled : HarnessConfig → Prop where
  | preset (preset : Preset) : Assembled { preset }
  | ordering {c : HarnessConfig} (change : OrderingSection → OrderingSection) : Assembled c →
    Assembled { c with ordering := some (change c.orderingInEffect) }
  | interleaving {c : HarnessConfig} (change : InterleavingSection → InterleavingSection) :
    Assembled c → Assembled { c with interleaving := some (change c.interleavingInEffect) }
  | handlers {c : HarnessConfig} (change : HandlerSection → HandlerSection) : Assembled c →
    Assembled { c with handlers := some (change c.handlersInEffect) }
  | fabrication {c : HarnessConfig} (change : FabricationSection → FabricationSection) :
    (∀ s, IsTable s.services → IsTable (change s).services) → Assembled c →
    Assembled { c with fabrication := some (change c.fabricationInEffect) }
  | emit {c : HarnessConfig} (change : EmitSection → EmitSection) : Assembled c →
    Assembled { c with emit := some (change c.emitInEffect) }
  | lifecycle {c : HarnessConfig} (change : LifecycleSection → LifecycleSection) : Assembled c →
    Assembled { c with lifecycle := some (change c.lifecycleInEffect) }

/-- Every single setting is a change of a section. -/
theorem Assembled.set {c : HarnessConfig} (h : c.Assembled) (setter : Setter) :
    (c.set setter).Assembled := by
  cases setter with
  | instanceOrder v => exact h.ordering fun s => { s with instanceOrder := v }
  | callbackPlacement v => exact h.ordering fun s => { s with callbackPlacement := v }
  | unorderedPasses v => exact h.interleaving fun s => { s with unorderedPasses := v }
  | includeActiveLifecycle v => exact h.interleaving fun s => { s with includeActiveLifecycle := v }
  | policy v => exact h.handlers fun s => { s with policy := v }
  | expandListenerCatalog v => exact h.handlers fun s => { s with expandListenerCatalog := v }
  | arrayLength v => exact h.fabrication (fun s => { s with arrayLength := v }) fun _ hs => hs
  | maxArgumentFanout v =>
      exact h.fabrication (fun s => { s with maxArgumentFanout := v }) fun _ hs => hs
  | service name type =>
      exact h.fabrication (fun s => s.withService name type) fun _ hs => hs.insertEntry name type
  | harnessClass v => exact h.emit fun s => { s with harnessClass := v }
  | stubsClass v => exact h.emit fun s => { s with stubsClass := v }
  | entryMethod v => exact h.emit fun s => { s with entryMethod := v }
  | protocol v => exact h.lifecycle fun s => ⟨s.protocols ++ [v]⟩

theorem assembled_foldl (preset : Preset) (setters : List Setter) :
    (setters.foldl set { preset }).Assembled := by
  have hfold : ∀ c : HarnessConfig, c.Assembled → (setters.foldl set c).Assembled := by
    induction setters with
    | nil => exact fun _ hc => hc
    | cons setter setters ih => exact fun c hc => ih _ (hc.set setter)
  exact hfold _ (.preset preset)

theorem Assembled.isTable {c : HarnessConfig} (h : c.Assembled) :
    IsTable c.fabricationInEffect.services := by
  induction h with
  | preset preset => cases preset <;> exact List.Pairwise.nil
  | fabrication change hchange _ ih => exact hchange _ ih
  | ordering | interleaving | handlers | emit | lifecycle => assumption

/-- In a configuration that is accepted all numbers are small. -/
theorem Assembled.representable {c : HarnessConfig} (h : c.Assembled) (hvalid : c.fault? = none) :
    c.Representable := by
  rw [fault?, Option.or_eq_none_iff, Option.or_eq_none_iff] at hvalid
  obtain ⟨hinterleaving, hfabrication, -⟩ := hvalid
  constructor
  · intro s hs
    rw [interleavingInEffect, Option.mem_def.1 hs, Option.getD_some] at hinterleaving
    rw [InterleavingSection.fault?] at hinterleaving
    split at hinterleaving
    · cases hinterleaving
    · rename_i hrange
      have hpasses : s.unorderedPasses ≤ 16 := Nat.not_lt.1 fun hlt => hrange (.inr hlt)
      exact Nat.lt_of_le_of_lt hpasses (by decide)
  · intro s hs
    have htable := h.isTable
    rw [fabricationInEffect, Option.mem_def.1 hs, Option.getD_some] at hfabrication htable
    rw [FabricationSection.fault?] at hfabrication
    split at hfabrication
    · cases hfabrication
    · rename_i hlength
      split at hfabrication
      · cases hfabrication
      · rename_i hfanout
        have hlength : s.arrayLength ≤ 64 := Nat.not_lt.1 fun hlt => hlength (.inr hlt)
        have hfanout : s.maxArgumentFanout ≤ 32 := Nat.not_lt.1 fun hlt => hfanout (.inr hlt)
        exact ⟨hlength.trans_lt (by decide), hfanout.trans_lt (by decide), htable⟩

theorem build_eq_ok {c : HarnessConfig} {v : ValidConfig} (h : c.build = .ok v) :
    c.fault? = none ∧ v.source = c := by
  rw [build] at h
  split at h
  · cases h
  · rename_i hvalid
    split at h
    · cases h
    · cases h
      exact ⟨hvalid, rfl⟩

include hflag in
/-- What is written of a configuration that was accepted is accepted with the same values. -/
theorem ofTree?_toTree {c : HarnessConfig} {v : ValidConfig} (hc : c.Assembled)
    (h : c.build = .ok v) :
    ValidConfig.ofTree? (some (v.source.toTree.mapScalars σ.spell)) = .ok v := by
  obtain ⟨hvalid, hsource⟩ := build_eq_ok h
  rw [hsource, ValidConfig.ofTree?, Option.bind_some,
    ConfigDocument.decode_toTree σ hflag (hc.representable hvalid)]
  simp only [ConfigDocument.config, Preset.parse?_name]
  exact h

/-- **Exported configurations.** A configuration that was put together from a preset by any changes
of its sections and then accepted is written as a document from which it is read again, with the
same preset, the same values of every section and the same protocols: both where every scalar comes
back as it was, and where numbers, flags and plain texts come back without quotes. -/
theorem exported_reloads {c : HarnessConfig} {v : ValidConfig} (hc : c.Assembled)
    (h : c.build = .ok v) :
    ValidConfig.ofTree? (some v.source.toTree) = .ok v ∧
      ValidConfig.ofTree? (some (v.source.toTree.mapScalars Yaml.restored)) = .ok v := by
  have hjson := ofTree?_toTree .json (fun _ => rfl) hc h
  rw [Spelling.json, Tree.mapScalars_id] at hjson
  exact ⟨hjson, ofTree?_toTree .yaml (by decide) hc h⟩

/-- The smallest preset with another number of passes, two services whose names read as something
else without quotes, and a protocol of its own for services. -/
def customized : HarnessConfig :=
  [.unorderedPasses 3, .service "null" "app.Null", .service "1" "app.One",
    .protocol ⟨"service", [⟨"open", ["int"], .create⟩, ⟨"close", [], .teardown⟩],
      [["open", "close"]]⟩].foldl set { preset := .minimal }

theorem customized_reloads : ∃ v : ValidConfig, customized.build = .ok v ∧
    ValidConfig.ofTree? (some v.source.toTree) = .ok v ∧
    ValidConfig.ofTree? (some (v.source.toTree.mapScalars Yaml.restored)) = .ok v := by
  cases h : customized.build with
  | ok v => exact ⟨v, rfl, exported_reloads (assembled_foldl ..) h⟩
  | error e =>
      have hvalid : customized.build.toOption.isSome := by decide +kernel
      simp [h, Except.toOption] at hvalid

end HarnessConfig
end AppDriver
