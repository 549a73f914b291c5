import AppDriver.Facts.Document
import AppDriver.Proofs.WrittenTrees

/-!
Facts that are written and read again. Every record writes its fields in the order in which they are
known, and leaves out only what the reader supplies. So each kind of record is read as it was
written, whatever the spelling of its scalars: a method, a source of an argument, a binding, a
listener, a component, a declared identifier, a handler, and from these the whole document. The one
condition is that numbers fit into their fields, 32 bits for an identifier and 64 for an index.
-/

namespace AppDriver

variable (σ : Spelling)

@[simp] theorem TypeName.decode_toTree (t : TypeName) :
    decode (t.toTree.mapScalars σ.spell) = some t := by
  rw [decode, toTree, σ.asText_text]
  rfl

@[simp] theorem TypeName.asList_decode (ts : List TypeName) :
    Tree.asList decode ((Tree.list (ts.map toTree)).mapScalars σ.spell) = some ts :=
  σ.asList_map fun t _ => t.decode_toTree σ

@[simp] theorem TypeName.asOption_decode (o : Option TypeName) :
    o.elim (some none)
      ((fun t => Tree.asOption decode (t.mapScalars σ.spell)) ∘ toTree) = some o :=
  σ.elim_asOption (fun t _ => σ.isNull t.text) fun t _ => t.decode_toTree σ

theorem Signature.decode_toTree (m : Signature) :
    decode (m.toTree.mapScalars σ.spell) = some m := by
  rw [decode, toTree, Tree.of?_mapScalars ?fields ?distinct]
  case fields => simpa using Tree.Lists.field (.field (.optionalField .nil))
  case distinct => decide
  simp [List.lookup_cons]

/-! ### Sources of arguments

A source is a record with a tag. It is read whole before the tag is known, so that each of its
scalars must have the type of its text before anything is expected of it.
-/

@[simp] theorem AccessorStep.decode_toTree (s : AccessorStep) :
    decode (s.toTree.mapScalars σ.spell) = some s := by
  rw [decode, toTree, Tree.of?_mapScalars ?fields ?distinct]
  case fields => exact .field (.field .nil)
  case distinct => decide
  simp [List.lookup_cons]

/-- Whether the numbers of a source fit into their fields. -/
def ArgumentSource.Representable : ArgumentSource → Prop
  | .identifier id | .accessor id _ => id < Nat.pow 2 32
  | .component _ => True

@[simp] theorem AccessorStep.typed_toTree (s : AccessorStep) :
    (s.toTree.mapScalars σ.spell).typed = s.toTree := by
  simp [toTree, TypeName.toTree]

theorem AccessorStep.isReadable_toTree (s : AccessorStep) : s.toTree.isReadable = true := rfl

/-- Where nothing is expected of it yet, a source is the tree that was written. -/
theorem ArgumentSource.typed_toTree {a : ArgumentSource} (h : a.Representable) :
    (a.toTree.mapScalars σ.spell).typed = a.toTree := by
  cases a with
  | identifier id =>
      have hid := σ.typed_mapScalars_natural (Nat.lt_trans h (by decide))
      simp [toTree, hid]
  | accessor id chain =>
      have hid := σ.typed_mapScalars_natural (Nat.lt_trans h (by decide))
      simp [toTree, hid, Function.comp_def]
  | component name => simp [toTree, TypeName.toTree]

theorem ArgumentSource.decode_toTree {a : ArgumentSource} (h : a.Representable) :
    decode (a.toTree.mapScalars σ.spell) = some a := by
  have htyped := typed_toTree σ h
  cases a with
  | identifier id =>
      have hid : Tree.asId (.natural id) = some id := if_pos h
      rw [decode, Tree.tagged?_of_typed htyped rfl (by simp)]
      simp [ofTagged, Tree.of?_record (Tree.Lists.field .nil), Fields.required, hid]
  | accessor id chain =>
      have hid : Tree.asId (.natural id) = some id := if_pos h
      have hreadable : Tree.areItemsReadable (chain.map AccessorStep.toTree) = true := by
        simp [Tree.areItemsReadable_eq, AccessorStep.isReadable_toTree]
      -- What is left after the tag is found has no spelling any more.
      have hchain : Tree.asList AccessorStep.decode (.list (chain.map AccessorStep.toTree)) =
          some chain := by
        have hread := Spelling.json.asList_map fun s (_ : s ∈ chain) => s.decode_toTree .json
        rwa [Spelling.json, Tree.mapScalars_id] at hread
      rw [decode, Tree.tagged?_of_typed htyped ?_ (by simp)]
      · simp [ofTagged, Tree.of?_record (Tree.Lists.field (.field .nil)), Fields.required,
          List.lookup_cons, hid, hchain]
      · simpa [Tree.areFieldsReadable, Tree.isReadable, Tree.natural] using hreadable
  | component name =>
      have hname : TypeName.decode name.toTree = some name := rfl
      rw [decode, Tree.tagged?_of_typed htyped rfl (by simp)]
      simp [ofTagged, Tree.of?_record (Tree.Lists.field .nil), Fields.required, hname]

/-! ### Components and their bindings -/

/-- Whether the numbers of a binding fit into their fields. -/
def ParamBinding.Representable (b : ParamBinding) : Prop :=
  b.index < Nat.pow 2 64 ∧ b.source.Representable

/-- Whether the numbers of a listener fit into their fields. -/
def ListenerImpl.Representable (l : ListenerImpl) : Prop :=
  (∀ id ∈ l.registeredOn, id < Nat.pow 2 32) ∧ ∀ b ∈ l.bindings, b.Representable

/-- Whether the numbers of a component fit into their fields. -/
def Component.Representable (c : Component) : Prop :=
  (∀ l ∈ c.listeners, l.Representable) ∧ ∀ b ∈ c.bindings, b.Representable

theorem asId_natural {id : ResourceId} (h : id < Nat.pow 2 32) :
    Tree.asId ((Tree.natural id).mapScalars σ.spell) = some id := σ.asNatural (by decide) h

theorem ParamBinding.decode_toTree {b : ParamBinding} (h : b.Representable) :
    decode (b.toTree.mapScalars σ.spell) = some b := by
  have hindex : Tree.asIndex ((Tree.natural b.index).mapScalars σ.spell) = some b.index :=
    σ.asNatural (by decide) h.1
  have hsource := ArgumentSource.decode_toTree σ h.2
  rw [decode, toTree, Tree.of?_mapScalars ?fields ?distinct]
  case fields => exact .optionalField (.field (.field .nil))
  case distinct => decide
  simp [List.lookup_append, List.lookup_cons, hindex, hsource]

theorem ListenerImpl.decode_toTree {l : ListenerImpl} (h : l.Representable) :
    decode (l.toTree.mapScalars σ.spell) = some l := by
  have hmethods := σ.asList_map fun m (_ : m ∈ l.methods) => m.decode_toTree σ
  have hidentifiers := σ.asList_map fun id hid => asId_natural σ (h.1 id hid)
  have hbindings := σ.asList_map fun b hb => ParamBinding.decode_toTree σ (h.2 b hb)
  rw [decode, toTree, Tree.of?_mapScalars ?fields ?distinct]
  case fields => exact .field (.field (.field (.field .nil)))
  case distinct => decide
  simp [List.lookup_cons, hmethods, hidentifiers, hbindings]

theorem ComponentKind.decode_toTree (k : ComponentKind) :
    decode (k.toTree.mapScalars σ.spell) = some k := by
  rw [decode, toTree, Tree.asNamed, σ.asText_text, Option.bind_some, ofName?_name]

theorem Component.decode_toTree {c : Component} (h : c.Representable) :
    decode (c.toTree.mapScalars σ.spell) = some c := by
  have hkind := c.kind.decode_toTree σ
  have hlifecycle := σ.asList_map fun m (_ : m ∈ c.lifecycle) => m.decode_toTree σ
  have hlisteners := σ.asList_map fun l hl => ListenerImpl.decode_toTree σ (h.1 l hl)
  have hmethods := σ.asList_map fun m (_ : m ∈ c.methods) => m.decode_toTree σ
  have hbindings := σ.asList_map fun b hb => ParamBinding.decode_toTree σ (h.2 b hb)
  rw [decode, toTree, Tree.of?_mapScalars ?fields ?distinct]
  case fields =>
    exact .field (.field (.optionalField (.field (.field (.field (.field (.field (.field .nil))))))))
  case distinct => decide
  simp [List.lookup_append, List.lookup_cons, hkind, hlifecycle, hlisteners, hmethods, hbindings]

/-! ### Identifiers and handlers -/

/-- Whether the identifier of a declaration fits into its field. -/
def IdentifierBinding.Representable (b : IdentifierBinding) : Prop := b.id < Nat.pow 2 32

/-- Whether the identifier of a handler fits into its field. -/
def HandlerBinding.Representable (b : HandlerBinding) : Prop := b.identifier < Nat.pow 2 32

theorem IdentifierBinding.decode_toTree {b : IdentifierBinding} (h : b.Representable) :
    decode (b.toTree.mapScalars σ.spell) = some b := by
  have hid := asId_natural σ h
  rw [decode, toTree, Tree.of?_mapScalars ?fields ?distinct]
  case fields => simpa using Tree.Lists.field (.field (.optionalField (.optionalField .nil)))
  case distinct => decide
  simp [List.lookup_append, List.lookup_cons, hid]

theorem HandlerBinding.decode_toTree {b : HandlerBinding} (h : b.Representable) :
    decode (b.toTree.mapScalars σ.spell) = some b := by
  have hid := asId_natural σ h
  rw [decode, toTree, Tree.of?_mapScalars ?fields ?distinct]
  case fields => exact .optionalField (.field (.field .nil))
  case distinct => decide
  simp [List.lookup_append, List.lookup_cons, hid]

/-! ### Documents -/

/-- Whether every number of a document fits into its field. -/
structure Facts.Representable (d : Facts) : Prop where
  version : d.version < Nat.pow 2 32
  components : ∀ c ∈ d.components, c.Representable
  identifiers : ∀ b ∈ d.identifiers, b.Representable
  handlers : ∀ b ∈ d.handlers, b.Representable

/-- A list that is left out where it is empty is an optional field. -/
theorem Facts.services_eq (d : Facts) :
    (if d.services.isEmpty then [] else [("services", .texts d.services)]) =
      Tree.optionalField "services" Tree.texts
        (if d.services.isEmpty then none else some d.services) := by
  split <;> rfl

theorem Facts.decode_toTree {d : Facts} (h : d.Representable) :
    decode (d.toTree.mapScalars σ.spell) = some d := by
  have hversion : Tree.asNatural 32 ((Tree.natural d.version).mapScalars σ.spell) =
      some d.version := σ.asNatural (by decide) h.version
  have hcomponents := σ.asList_map fun c hc => Component.decode_toTree σ (h.components c hc)
  have hidentifiers := σ.asList_map fun b hb =>
    IdentifierBinding.decode_toTree σ (h.identifiers b hb)
  have hhandlers := σ.asList_map fun b hb => HandlerBinding.decode_toTree σ (h.handlers b hb)
  rw [decode, toTree, services_eq, Tree.of?_mapScalars ?fields ?distinct]
  case fields =>
    simpa using Tree.Lists.field
      (.optionalField (.field (.field (.field (.optionalField .nil)))))
  case distinct => decide
  have hservices : (if d.services = [] then none else some d.services).elim (some [])
      ((fun t => Tree.asList Tree.asText (t.mapScalars σ.spell)) ∘ Tree.texts) =
        some d.services := by
    split
    · next hempty => rw [hempty, Option.elim_none]
    · exact σ.asList_texts d.services
  simp [List.lookup_append, List.lookup_cons, hversion, hcomponents, hidentifiers, hhandlers,
    hservices]

/-- What is written of accepted facts is read as these facts and accepted. -/
theorem Facts.ofTree?_toTree {d : Facts} (hvalid : d.validate = .ok ()) (h : d.Representable) :
    ofTree? (some (d.toTree.mapScalars σ.spell)) = .ok d := by
  rw [ofTree?, Option.bind_some, decode_toTree σ h]
  simp only [d.validate_ok_iff.1 hvalid]

/-- **Written facts.** What is written of accepted facts is read as a document that is equal to them
in every field and is accepted again: in JSON, where every scalar comes back as it was, and in YAML,
where numbers and plain texts come back without quotes. -/
theorem Facts.written_restored (d : Facts) (hvalid : d.validate = .ok ()) (h : d.Representable) :
    (decode d.toTree = some d ∧ ofTree? (some d.toTree) = .ok d) ∧
      decode (d.toTree.mapScalars Yaml.restored) = some d ∧
        ofTree? (some (d.toTree.mapScalars Yaml.restored)) = .ok d := by
  have hjson := decode_toTree .json h
  have hjson' := ofTree?_toTree .json hvalid h
  rw [Spelling.json, Tree.mapScalars_id] at hjson hjson'
  exact ⟨⟨hjson, hjson'⟩, decode_toTree .yaml h, ofTree?_toTree .yaml hvalid h⟩

/-- An activity whose listener takes its arguments from all three sources. Some of its texts would
be numbers without their quotes. -/
def surfaceDocument : Facts where
  app := some "app"
  components := [
    { name := ⟨"app.Main"⟩
      kind := .activity
      superclass := some ⟨"android.app.ListActivity"⟩
      lifecycle := [
        { name := "onCreate", params := [⟨"android.os.Bundle"⟩], returns := some ⟨"void"⟩ }]
      listeners := [
        { interface := ⟨"android.view.SurfaceHolder.Callback"⟩
          registeredOn := [2131034112]
          bindings := [
            { index := 0
              source := .accessor 2131034112 [⟨"getHolder", ⟨"android.view.SurfaceHolder"⟩⟩] },
            { method := some "surfaceChanged", index := 1, source := .component ⟨"app.Main"⟩ },
            { index := 2, source := .identifier 4294967295 }] }]
      handlers := ["12"]
      methods := [{ name := "null" }] }]
  identifiers := [
    { id := 2131034112, declaredType := ⟨"android.view.SurfaceView"⟩, scope := some "1.5" }]
  handlers := [
    { component := some ⟨"app.Main"⟩, method := "12", identifier := 0 },
    { method := "go", identifier := 1 }]
  services := ["account"]

theorem surfaceDocument_restored : surfaceDocument.validate = .ok () ∧ surfaceDocument.Representable ∧
    Facts.ofTree? (some surfaceDocument.toTree) = .ok surfaceDocument ∧
      Facts.ofTree? (some (surfaceDocument.toTree.mapScalars Yaml.restored)) = .ok surfaceDocument := by
  have hvalid : surfaceDocument.validate = .ok () := by decide +kernel
  have hrepresentable : surfaceDocument.Representable := by
    constructor <;>
      simp [surfaceDocument, Component.Representable, ListenerImpl.Representable,
        ParamBinding.Representable, ArgumentSource.Representable,
        IdentifierBinding.Representable, HandlerBinding.Representable]
  obtain ⟨⟨-, hjson⟩, -, hyaml⟩ := Facts.written_restored _ hvalid hrepresentable
  exact ⟨hvalid, hrepresentable, hjson, hyaml⟩

end AppDriver
