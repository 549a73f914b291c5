import AppDriver.Proofs.Filing
import AppDriver.Proofs.RegistryChanges
import AppDriver.Proofs.UniqueLabels

/-! Labels in a registry. No two stand-ins have the same label, and the label of a shared object, of
a plain value and of the answer to an unknown identifier begins with a word that says which of these
it is. What a type is answered with is one of the first two. -/

namespace AppDriver

/-- The words with which the labels of stand-ins of an origin begin, where these are fixed. -/
def Origin.openings : Origin → List String
  | .ambient => ["ambient", "null", "service_"]
  | .value => ["value"]
  | .unresolved none => ["unresolved"]
  | _ => [""]

/-- Whether a text begins as the labels of stand-ins of an origin do. -/
def Origin.Opens (origin : Origin) (text : String) : Prop :=
  ∃ word ∈ origin.openings, word.toList <+: text.toList

theorem Origin.opens_append {origin : Origin} {word : String} (hword : word ∈ origin.openings)
    (rest : String) : origin.Opens (word ++ rest) := by
  refine ⟨word, hword, ?_⟩
  rw [String.toList_append]
  exact List.prefix_append _ _

/-- Where no word is fixed, any text will do. -/
theorem Origin.opens_free (origin : Origin) (hfree : "" ∈ origin.openings) (text : String) :
    origin.Opens text := ⟨"", hfree, List.nil_prefix⟩

theorem Origin.Opens.fresh {origin : Origin} {hint : String} (h : origin.Opens hint)
    (taken : List String) : origin.Opens (Label.fresh taken hint) := by
  have hwords : origin.openings.all Label.isOpening = true := by
    unfold openings
    split <;> decide +kernel
  obtain ⟨word, hword, hbegins⟩ := h
  exact ⟨word, hword, Label.fresh_opening (List.all_eq_true.1 hwords word hword) hbegins taken⟩

namespace Store

variable {s s' : Store} {t : TypeName} {origin made : Origin} {construction : Construction}
  {hint : String} {x : StandInRef} {n : Nat} {busy : List TypeName}

/-- Whether a reference denotes a shared object or a plain value. -/
def IsObject (s : Store) (x : StandInRef) : Prop :=
  s.originAt? x = some .ambient ∨ s.originAt? x = some .value

theorem IsObject.grow (hgrows : s.Grows s') (h : s.IsObject x) : s'.IsObject x :=
  h.imp hgrows.originAt? hgrows.originAt?

/-- Whether the labels of a store are distinct and begin as they should, and its types are answered
with objects and values. What cuts a cycle is an object too, unless its type is one of those that
are being fabricated with another origin. -/
structure Labelled (origin : Origin) (busy : List TypeName) (s : Store) : Prop where
  distinct : s.labels.Nodup
  opened : ∀ y ∈ s.arena, y.origin.Opens y.label
  plain : ∀ e ∈ s.values, s.originAt? e.2 = some .value
  shared : ∀ e ∈ s.ambients, s.IsObject e.2
  cuts : ∀ e ∈ s.cycleBreaks, s.originAt? e.2 = some .ambient ∨
    s.originAt? e.2 = some origin ∧ e.1 ∈ busy

theorem labelled_empty : Labelled .ambient [] {} := by
  constructor <;> simp [labels]

theorem Labelled.keep (h : s.Labelled origin busy) (harena : s'.arena = s.arena)
    (hvalues : s'.values = s.values) (hambients : s'.ambients = s.ambients)
    (hcuts : s'.cycleBreaks ⊆ s.cycleBreaks) : s'.Labelled origin busy := by
  have horigin : ∀ x, s'.originAt? x = s.originAt? x := fun x => by
    rw [originAt?, get?_of_arena harena, originAt?]
  constructor
  · rw [labels, harena]
    exact h.distinct
  · rw [harena]
    exact h.opened
  · intro e he
    rw [horigin]
    exact h.plain e (hvalues ▸ he)
  · intro e he
    rw [IsObject, horigin]
    exact h.shared e (hambients ▸ he)
  · intro e he
    rw [horigin]
    exact h.cuts e (hcuts he)

theorem Labelled.loosen (h : s.Labelled .ambient []) : s.Labelled origin busy :=
  { h with cuts := fun e he => Or.inl ((h.cuts e he).elim id And.left) }

theorem Labelled.settled (h : s.Labelled .ambient busy) : s.Labelled .ambient [] :=
  { h with cuts := fun e he => Or.inl ((h.cuts e he).elim id And.left) }

/-- A cycle that is forgotten need not be cut by an object. -/
theorem Labelled.forgetCycle (h : s.Labelled origin (t :: busy)) :
    (s.forgetCycle t).Labelled origin busy := by
  refine { h with cuts := fun e he => ?_ }
  obtain ⟨hold, hother⟩ := List.mem_filter.1 he
  exact (h.cuts e hold).imp_right fun hcut =>
    ⟨hcut.1, (List.mem_cons.1 hcut.2).resolve_left (bne_iff_ne.1 hother)⟩

theorem Labelled.push (h : s.Labelled origin busy) (hopens : made.Opens hint) :
    (s.push t made construction hint).2.Labelled origin busy := by
  have hgrows := s.push_grows t made construction hint
  constructor
  · have hlabels : (s.push t made construction hint).2.labels =
        s.labels ++ [Label.fresh s.labels hint] := by
      simp [labels, Store.push]
    rw [hlabels]
    have hfresh : s.labels.Disjoint [Label.fresh s.labels hint] := fun label hold hnew =>
      Label.fresh_not_mem s.labels hint (List.mem_singleton.1 hnew ▸ hold)
    exact h.distinct.append (List.nodup_singleton _) hfresh
  · intro y hy
    rcases List.mem_append.1 hy with hold | hnew
    · exact h.opened y hold
    · obtain rfl := List.mem_singleton.1 hnew
      exact hopens.fresh _
  · exact fun e he => hgrows.originAt? (h.plain e he)
  · exact fun e he => (h.shared e he).grow hgrows
  · exact fun e he => (h.cuts e he).imp hgrows.originAt? (.imp_left hgrows.originAt?)

theorem Labelled.enterValue (h : s.Labelled origin busy) (hx : s.originAt? x = some .value) :
    Labelled origin busy { s with values := (t, x) :: s.values } := by
  refine { h with plain := fun e he => ?_ }
  rcases List.mem_cons.1 he with rfl | hold
  · exact hx
  · exact h.plain e hold

theorem Labelled.value (h : s.Labelled origin busy) : (s.value n t).2.Labelled origin busy := by
  rw [Store.value]
  split
  · exact h
  · exact (h.push (Origin.opens_append List.mem_cons_self _)).enterValue
      (s.originAt?_push t .value _ _)

theorem Labelled.typedNull (h : s.Labelled origin busy) :
    (s.typedNull t).2.Labelled origin busy := by
  have hword : "null" ∈ Origin.ambient.openings := by decide
  rw [Store.typedNull]
  split
  · exact h
  · exact (h.push (Origin.opens_append hword _)).keep rfl rfl rfl (List.Subset.refl _)

/-- A cycle is cut with the origin of what is being fabricated. -/
theorem Labelled.cutCycle (h : s.Labelled .ambient []) (ht : t ∈ busy)
    (hopens : origin.Opens hint) : (s.cutCycle t origin hint).2.Labelled origin busy := by
  have hpush : (s.push t origin .degenerate hint).2.Labelled origin busy := h.loosen.push hopens
  refine { hpush with cuts := fun e he => ?_ }
  rcases List.mem_cons.1 he with rfl | hold
  · exact Or.inr ⟨s.originAt?_push t origin .degenerate hint, ht⟩
  · exact hpush.cuts e hold

theorem Labelled.settleAmbient (h : s.Labelled origin busy) (hx : s.IsObject x) :
    (s.settleAmbient t x).2.Labelled origin busy := by
  have henter : ∀ {ambients : List (TypeName × StandInRef)}, (∀ e ∈ ambients, s.IsObject e.2) →
      ∀ t', ∀ e ∈ (t', x) :: ambients, s.IsObject e.2 := by
    intro ambients hambients t' e he
    rcases List.mem_cons.1 he with rfl | hold
    · exact hx
    · exact hambients e hold
  have hfirst := henter h.shared t
  rw [Store.settleAmbient]
  split
  · exact h
  · dsimp only
    split
    · exact { h with shared := hfirst }
    · split
      · exact { h with shared := hfirst }
      · exact { h with shared := henter hfirst _ }

end Store

open Store (Labelled)

/-! ### Fabrication -/

namespace Workshop

/-- What is fabricated with an origin leaves a labelled store. What is fabricated as a shared object
is one or a plain value. -/
structure Labels (u : Underway) (origin : Origin) (out : StandInRef × Store) : Prop where
  labelled : out.2.Labelled origin u.types
  made : origin = .ambient → out.2.IsObject out.1

variable {u : Underway} {origin : Origin} {s : Store} {t : TypeName} {hint : String}

theorem Labels.pushed (h : s.Labelled .ambient []) (hopens : origin.Opens hint)
    (construction : Construction) :
    Labels (u.enterType t) origin (s.push t origin construction hint) where
  labelled := h.loosen.push hopens
  made := by
    rintro rfl
    exact Or.inl (s.originAt?_push t _ construction hint)

/-- A type that has been fabricated is no longer busy. -/
theorem Labels.leave {out : StandInRef × Store} (h : Labels (u.enterType t) origin out) :
    Labels u origin (out.1, out.2.forgetCycle t) :=
  ⟨h.labelled.forgetCycle, h.made⟩

theorem Labels.completed (h : s.Labelled .ambient []) (hopens : origin.Opens hint)
    (construction : Construction) :
    Labels (u.enterType t) origin (s.complete t origin construction hint) := by
  have hforget : (s.forgetCycle t).Labelled .ambient [] := h.loosen.forgetCycle
  rw [Store.complete]
  split
  · rename_i broken hbroken
    have hcut := (h.cuts _ (mem_of_lookup hbroken)).elim id And.left
    split
    · exact ⟨hforget.loosen, fun _ => Or.inl hcut⟩
    · exact .pushed hforget hopens construction
  · exact .pushed h hopens construction

theorem fabrication_labels (w : Workshop) (batch : List Component) :
    (∀ u t s, s.Sound → s.Labelled .ambient [] →
      (w.ambient batch u t s).2.Labelled .ambient []) ∧
    (∀ u t origin hint s, s.Sound → s.Labelled .ambient [] → origin.Opens hint →
      Labels u origin (w.fabricate batch u t origin hint s)) ∧
    (∀ u params s, s.Sound → s.Labelled .ambient [] →
      (w.materialize batch u params s).2.Labelled .ambient []) ∧
    (∀ u p s, s.Sound → s.Labelled .ambient [] →
      (w.supply batch u p s).2.Labelled .ambient []) := by
  apply w.fabrication_induction batch
    (fun _ _ s out => s.Labelled .ambient [] → out.2.Labelled .ambient [])
    (fun u _ origin hint s out => s.Labelled .ambient [] → origin.Opens hint →
      Labels u origin out)
    (fun _ _ s out => s.Labelled .ambient [] → out.2.Labelled .ambient [])
    (fun _ _ s out => s.Labelled .ambient [] → out.2.Labelled .ambient [])
  case registered =>
      intro u t s x hs hx h
      exact h
  case cutClass =>
      intro u s c hs hnew hfind hbusy h
      exact h.typedNull.keep rfl rfl rfl (List.Subset.refl _)
  case enrolled =>
      intro u s c args hs hnew hfind hbusy hargs hstill ih h
      have hopens := Origin.opens_free (.component c.kind) List.mem_cons_self
      exact ((ih h).push (hopens _)).keep rfl rfl rfl (List.Subset.refl _)
  case known =>
      intro u t s x hs hnew hfind hx h
      exact h
  case plain =>
      intro u t s hs hnew hfind hambient hplain h
      exact h.value
  case settled =>
      intro u t s made hs hnew hfind hambient hplain hmade ih h
      obtain ⟨hlabelled, hobject⟩ := ih h (Origin.opens_append List.mem_cons_self _)
      exact (hlabelled.settleAmbient (hobject rfl)).settled
  case fabricatedPlain =>
      intro u t origin hint s hs hplain h hopens
      have hlabelled := h.value (n := w.arrayLength) (t := t)
      refine ⟨hlabelled.loosen, fun _ => Or.inr ?_⟩
      exact hlabelled.plain _ (mem_of_lookup (s.lookup_value _ t))
  case cutType =>
      intro u t origin hint s hs hplain hbusy h hopens
      refine ⟨h.cutCycle hbusy hopens, ?_⟩
      rintro rfl
      exact Or.inl (s.originAt?_push t _ .degenerate hint)
  case noRecipe =>
      intro u t origin hint s hs hplain hbusy hrecipe h hopens
      refine ⟨(h.loosen.push hopens).keep rfl rfl rfl (List.Subset.refl _), ?_⟩
      rintro rfl
      exact Or.inl (s.originAt?_push t _ .degenerate hint)
  case unfabricable =>
      intro u t origin hint s hs hplain hbusy hrecipe h hopens
      obtain ⟨hlabelled, hobject⟩ := Labels.pushed (u := u) (t := t) h hopens .degenerate
      exact Labels.leave ⟨hlabelled.keep rfl rfl rfl (List.Subset.refl _), hobject⟩
  case staticField =>
      intro u t origin hint s owner field hs hplain hbusy hrecipe h hopens
      exact (Labels.pushed h hopens _).leave
  case substituted =>
      intro u t origin hint s concrete made hs hplain hbusy hrecipe hmade ih h hopens
      exact (ih h hopens).leave
  case completed =>
      intro u t origin hint s recipe args construction hs hplain hbusy hrecipe hbuilds hargs ih
        h hopens
      exact (Labels.completed (ih h) hopens construction).leave
  case nil =>
      intro u s hs h
      exact h
  case cons =>
      intro u p ps s first rest hs hfirst hrest ihfirst ihrest h
      exact ihrest (ihfirst h)
  case object =>
      intro u p s out hs hshared ih
      exact ih
  case typedNull =>
      intro u t s hs h
      exact h.typedNull
  case value =>
      intro u t s hs h
      exact h.value

variable (w : Workshop) (batch : List Component)

theorem register_labelled (hs : s.Sound) (c : Component) (h : s.Labelled .ambient []) :
    (w.register batch c s).2.Labelled .ambient [] := by
  rw [register]
  split
  · exact h
  · have hargs := (w.fabrication_labels batch).2.2.1 (Underway.enterClass {} c.name)
      (c.constructorParams.map .ofType) s hs h
    have hopens := Origin.opens_free (.component c.kind) List.mem_cons_self
    exact (hargs.push (hopens _)).keep rfl rfl rfl (List.Subset.refl _)

end Workshop

/-! ### Operations -/

theorem Store.Change.labelled {w : Workshop} {s s' : Store} (hchange : Store.Change w s s')
    (hs : s.Sound) (h : s.Labelled .ambient []) : s'.Labelled .ambient [] := by
  cases hchange with
  | remember hsame hsound =>
      exact h.keep hsame.arena hsame.values hsame.ambients (hsame.cycleBreaks ▸ List.Subset.refl _)
  | fabricate t id hint =>
      have hopens := Origin.opens_free (.identifier id) List.mem_cons_self
      obtain ⟨hlabelled, -⟩ :=
        (w.fabrication_labels []).2.1 {} t (.identifier id) hint s hs h (hopens _)
      exact { hlabelled with
        cuts := fun e he => (hlabelled.cuts e he).imp_right fun hcut =>
          (List.not_mem_nil hcut.2).elim }
  | ambient t => exact (w.fabrication_labels []).1 {} t s hs h
  | value t => exact h.value
  | register batch c => exact w.register_labelled batch hs c h
  | missing t id subject =>
      have hopens := Origin.opens_free (.unresolved (some id)) List.mem_cons_self
      exact (h.push (hopens _)).keep rfl rfl rfl (List.Subset.refl _)
  | service name subject hnew =>
      have hword : "service_" ∈ Origin.ambient.openings := by decide
      exact (h.push (Origin.opens_append hword _)).keep rfl rfl rfl (List.Subset.refl _)
  | unresolved t => exact h.push (Origin.opens_append List.mem_cons_self _)
  | derived parent step hint =>
      exact h.push (Origin.opens_free (.derived parent step.method) List.mem_cons_self _)

theorem Registry.Reachable.labelled {r : Registry} (h : r.Reachable) :
    r.store.Labelled .ambient [] :=
  h.of_changes (P := Store.Labelled .ambient []) Store.labelled_empty Store.Change.labelled

end AppDriver
