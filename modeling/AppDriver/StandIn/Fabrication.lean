import AppDriver.StandIn.Recipe
import AppDriver.StandIn.Store
import AppDriver.Threading

/-!
Fabrication: obtaining the shared object of a type by following recipes, whose parameters are
obtained in the same way. `Underway` lists what is being made at the moment; a type or a class that
is asked for again while it is being made is cut off with a degenerate stand-in. Each recipe that is
followed and each class that is built is one more entry in these lists, and the catalog and the
batch are finite, so the recursion ends: `Workshop.cost` bounds what is left to do.
-/

namespace AppDriver

/-- What stays fixed while stand-ins are made. -/
structure Workshop where
  catalog : FrameworkCatalog := {}
  arrayLength : Nat := 1
deriving DecidableEq, Repr

/-- The types that are being fabricated and the component classes whose arguments are being made. -/
structure Underway where
  types : List TypeName := []
  classes : List TypeName := []
deriving DecidableEq, Repr

namespace Underway

def enterType (u : Underway) (t : TypeName) : Underway := { u with types := t :: u.types }
def enterClass (u : Underway) (t : TypeName) : Underway := { u with classes := t :: u.classes }

/-- How many keys are not in a list. -/
def unvisited (keys visited : List TypeName) : Nat := keys.countP fun k => !visited.contains k

theorem unvisited_cons_le (keys visited : List TypeName) (t : TypeName) :
    unvisited keys (t :: visited) ≤ unvisited keys visited := by
  refine List.countP_mono_left fun k _ h => ?_
  simp only [List.contains_cons, Bool.not_or, Bool.and_eq_true] at h
  exact h.2

theorem unvisited_cons_lt {keys visited : List TypeName} {t : TypeName} (ht : t ∈ keys)
    (hv : visited.contains t = false) :
    unvisited keys (t :: visited) < unvisited keys visited := by
  induction keys with
  | nil => simp at ht
  | cons k keys ih =>
    by_cases hk : k = t
    · subst hk
      have hle := unvisited_cons_le keys visited k
      have hnew : (k :: visited).contains k = true := by simp
      simp only [unvisited, List.countP_cons, hnew, hv] at hle ⊢
      simp only [Bool.not_true, Bool.not_false, Bool.false_eq_true, if_false, if_true]
      omega
    · have hlt := ih ((List.mem_cons.1 ht).resolve_left fun e => hk e.symm)
      have hkt : (k == t) = false := by simpa using hk
      have hsame : (t :: visited).contains k = visited.contains k := by
        rw [List.contains_cons, hkt, Bool.false_or]
      simp only [unvisited, List.countP_cons, hsame] at hlt ⊢
      omega

end Underway

namespace Workshop

/-- How many recipes and classes can still be entered. -/
def remaining (w : Workshop) (batch : List Component) (u : Underway) : Nat :=
  Underway.unvisited (w.catalog.recipes.map (·.1)) u.types +
    Underway.unvisited (batch.map (·.name)) u.classes

/-- More than following one recipe or building one class can cost before the next one is entered. -/
def width (w : Workshop) (batch : List Component) : Nat :=
  9 * ((w.catalog.recipes.flatMap (·.2.params)).length +
    (batch.flatMap (·.constructorParams)).length) + 8

/-- What looks like a view costs one more recipe, that of the context, which does not. -/
def weight (t : TypeName) : Nat := if FrameworkCatalog.isViewType t then 6 else 0

/-- What is left to do when `more` is to be done before anything else is entered. -/
def cost (w : Workshop) (batch : List Component) (u : Underway) (more : Nat) : Nat :=
  w.remaining batch u * w.width batch + more

/-- What obtaining a list of parameters costs. -/
def paramsCost (ps : List ParamSource) : Nat :=
  ps.foldr (fun p more => 3 + weight p.typeName + more) 0 + 1

theorem paramsCost_le (ps : List ParamSource) : paramsCost ps ≤ 9 * ps.length + 1 := by
  induction ps with
  | nil => simp [paramsCost]
  | cons p ps ih =>
    have hw : weight p.typeName ≤ 6 := by unfold weight; split <;> omega
    simp only [paramsCost, List.foldr_cons, List.length_cons] at ih ⊢
    omega

theorem cost_lt_of_remaining_lt {w : Workshop} {batch : List Component} {u v : Underway}
    {more more' : Nat} (h : w.remaining batch u < w.remaining batch v)
    (hm : more < w.width batch) : w.cost batch u more < w.cost batch v more' := by
  have hmul := Nat.mul_le_mul_right (w.width batch) (Nat.succ_le_of_lt h)
  rw [Nat.succ_mul] at hmul
  simp only [cost]
  omega

theorem mem_of_lookup [BEq κ] [LawfulBEq κ] {k : κ} {v : α} {table : List (κ × α)}
    (h : table.lookup k = some v) : (k, v) ∈ table := by
  induction table with
  | nil => simp at h
  | cons e table ih =>
    rw [List.lookup_cons] at h
    split at h
    next hk =>
      obtain rfl := beq_iff_eq.1 hk
      obtain rfl := Option.some.inj h
      exact List.mem_cons_self
    next => exact List.mem_cons_of_mem _ (ih h)

theorem length_le_flatMap {f : α → List β} {a : α} {as : List α} (h : a ∈ as) :
    (f a).length ≤ (as.flatMap f).length :=
  (List.sublist_flatten_of_mem (List.mem_map_of_mem h)).length_le

/-- Following the recipe of a type that is not being fabricated leaves less to do. -/
theorem cost_params_lt {w : Workshop} {batch : List Component} {u : Underway} {t : TypeName}
    {r : Recipe} (hr : w.catalog.recipeFor t = some r) (hu : u.types.contains t = false) :
    w.cost batch (u.enterType t) (paramsCost r.params) < w.cost batch u (weight t + 1) := by
  unfold FrameworkCatalog.recipeFor at hr
  split at hr
  next r' hl =>
    obtain rfl := Option.some.inj hr
    have hmem := mem_of_lookup hl
    refine cost_lt_of_remaining_lt ?_ ?_
    · exact Nat.add_lt_add_right
        (Underway.unvisited_cons_lt (List.mem_map_of_mem hmem) hu) _
    · have hp := paramsCost_le r'.params
      have hlen : r'.params.length ≤ (w.catalog.recipes.flatMap (·.2.params)).length :=
        length_le_flatMap (f := fun e : TypeName × Recipe => e.2.params) hmem
      simp only [width]
      omega
  next =>
    split at hr
    next hview =>
      obtain rfl := Option.some.inj hr
      have hle : w.remaining batch (u.enterType t) ≤ w.remaining batch u :=
        Nat.add_le_add_right (Underway.unvisited_cons_le _ _ _) _
      have hmul := Nat.mul_le_mul_right (w.width batch) hle
      have hctx : weight TypeName.context = 0 := by decide +kernel
      have ht : weight t = 6 := by simp only [weight, hview, if_true]
      simp only [cost, paramsCost, Recipe.params, List.foldr_cons, List.foldr_nil,
        ParamSource.typeName, hctx, ht]
      omega
    next => simp at hr

/-- So does fabricating another type in place of one. -/
theorem cost_substitute_lt {w : Workshop} {batch : List Component} {u : Underway}
    {t c : TypeName} (hr : w.catalog.recipeFor t = some (.substitute c))
    (hu : u.types.contains t = false) :
    w.cost batch (u.enterType t) (weight c + 1) < w.cost batch u (weight t + 1) := by
  unfold FrameworkCatalog.recipeFor at hr
  split at hr
  next r' hl =>
    refine cost_lt_of_remaining_lt ?_ ?_
    · exact Nat.add_lt_add_right
        (Underway.unvisited_cons_lt (List.mem_map_of_mem (mem_of_lookup hl)) hu) _
    · have hw : weight c ≤ 6 := by unfold weight; split <;> omega
      simp only [width]
      omega
  next => split at hr <;> simp at hr

/-- So does building a class of the batch that is not being built. -/
theorem cost_class_lt {w : Workshop} {batch : List Component} {u : Underway} {t : TypeName}
    {c : Component} (hc : batch.find? (·.name == t) = some c)
    (hu : u.classes.contains t = false) :
    w.cost batch (u.enterClass t) (paramsCost (c.constructorParams.map .ofType)) <
      w.cost batch u (weight t + 2) := by
  have hmem := List.mem_of_find?_eq_some hc
  have hname : c.name = t := by simpa using List.find?_some hc
  refine cost_lt_of_remaining_lt ?_ ?_
  · refine Nat.add_lt_add_left (Underway.unvisited_cons_lt ?_ hu) _
    exact hname ▸ List.mem_map_of_mem hmem
  · have hp := paramsCost_le (c.constructorParams.map .ofType)
    have hlen : c.constructorParams.length ≤ (batch.flatMap (·.constructorParams)).length :=
      length_le_flatMap hmem
    simp only [List.length_map] at hp
    simp only [width]
    omega

theorem cost_head_lt (w : Workshop) (batch : List Component) (u : Underway) (p : ParamSource)
    (ps : List ParamSource) :
    w.cost batch u (weight p.typeName + 3) < w.cost batch u (paramsCost (p :: ps)) := by
  simp only [cost, paramsCost, List.foldr_cons]
  omega

theorem cost_tail_lt (w : Workshop) (batch : List Component) (u : Underway) (p : ParamSource)
    (ps : List ParamSource) :
    w.cost batch u (paramsCost ps) < w.cost batch u (paramsCost (p :: ps)) := by
  simp only [cost, paramsCost, List.foldr_cons]
  omega

mutual

/-- The shared object of a type. Where the type is a component class, that is the instance of the
component, and a class of the batch that is not registered yet is registered first. -/
def ambient (w : Workshop) (batch : List Component) (u : Underway) (t : TypeName) (s : Store) :
    StandInRef × Store :=
  match s.component? t with
  | some r => (r, s)
  | none =>
    match _hc : batch.find? (·.name == t) with
    | some c =>
      if _hu : u.classes.contains t then s.cutComponentCycle t
      else
        let args := w.materialize batch (u.enterClass t) (c.constructorParams.map .ofType) s
        args.2.enroll c args.1
    | none =>
      match s.ambients.lookup t with
      | some r => (r, s)
      | none =>
        if t.isPlainValue then s.value w.arrayLength t
        else
          let made := w.fabricate batch u t .ambient ("ambient" ++ t.simpleName) s
          made.2.settleAmbient t made.1
termination_by w.cost batch u (weight t + 2)
decreasing_by
  · exact cost_class_lt _hc (by simpa using _hu)
  · simp only [cost]; omega

/-- A new stand-in of a type, or of the more specific type that stands for it. -/
def fabricate (w : Workshop) (batch : List Component) (u : Underway) (t : TypeName)
    (origin : Origin) (hint : String) (s : Store) : StandInRef × Store :=
  if t.isPlainValue then s.value w.arrayLength t
  else if _hu : u.types.contains t then s.cutCycle t origin hint
  else
    match _hr : w.catalog.recipeFor t with
    | none => s.pushDegenerate t origin hint t.text .noRecipe
    | some .unfabricable =>
      let made := s.pushDegenerate t origin hint t.text .unfabricable
      (made.1, made.2.forgetCycle t)
    | some (.staticField owner field) =>
      let made := s.push t origin (.staticField owner field) hint
      (made.1, made.2.forgetCycle t)
    | some (.substitute concrete) =>
      let made := w.fabricate batch (u.enterType t) concrete origin hint s
      (made.1, made.2.forgetCycle t)
    | some (.constructor params) =>
      let args := w.materialize batch (u.enterType t) params s
      let made := args.2.complete t origin (.constructor args.1) hint
      (made.1, made.2.forgetCycle t)
    | some (.staticFactory owner method params) =>
      let args := w.materialize batch (u.enterType t) params s
      let made := args.2.complete t origin (.staticFactory owner method args.1) hint
      (made.1, made.2.forgetCycle t)
termination_by w.cost batch u (weight t + 1)
decreasing_by
  · exact cost_substitute_lt _hr (by simpa using _hu)
  · exact cost_params_lt _hr (by simpa using _hu)
  · exact cost_params_lt _hr (by simpa using _hu)

/-- The stand-ins for the parameters of a recipe or of a constructor, in order. -/
def materialize (w : Workshop) (batch : List Component) (u : Underway)
    (params : List ParamSource) (s : Store) : List StandInRef × Store :=
  match params with
  | [] => ([], s)
  | p :: ps =>
    let first := w.supply batch u p s
    let rest := w.materialize batch u ps first.2
    (first.1 :: rest.1, rest.2)
termination_by w.cost batch u (paramsCost params)
decreasing_by
  · exact cost_head_lt w batch u p ps
  · exact cost_tail_lt w batch u p ps

/-- The stand-in for one parameter. -/
def supply (w : Workshop) (batch : List Component) (u : Underway) (p : ParamSource) (s : Store) :
    StandInRef × Store :=
  match p with
  | .context => w.ambient batch u TypeName.context s
  | .ambient t => w.ambient batch u t s
  | .degenerate t => s.typedNull t
  | .value t => s.value w.arrayLength t
termination_by w.cost batch u (weight p.typeName + 3)
decreasing_by
  · simp only [cost, ParamSource.typeName]; omega
  · simp only [cost, ParamSource.typeName]; omega

end

/-- Registers a component, together with the classes of the batch that its constructor needs. -/
def register (w : Workshop) (batch : List Component) (c : Component) (s : Store) :
    StandInRef × Store :=
  match s.component? c.name with
  | some r => (r, s)
  | none =>
    let args := w.materialize batch (Underway.enterClass {} c.name)
      (c.constructorParams.map .ofType) s
    args.2.enroll c args.1

end Workshop
end AppDriver
