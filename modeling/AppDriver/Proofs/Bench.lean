import AppDriver.Proofs.FabricationInduction

/-! The bench. Here the types that are being fabricated, the classes that are being registered and
the declarations that wait for it are tables beside the store, which every function finds, changes
and leaves, and nothing in the recursion says that it ends: only a depth limits it. It ends all the
same, since some depth is always enough, and then the answer and the store are those of the
functions that carry a measure. -/

namespace AppDriver

/-- A store and what is in progress on it. -/
structure Bench where
  store : Store := {}
  fabricating : List TypeName := []
  registering : List TypeName := []
  pending : List (TypeName × Component) := []
deriving DecidableEq, Repr

namespace Bench

def withStore (b : Bench) (out : α × Store) : α × Bench := (out.1, { b with store := out.2 })

def enterType (b : Bench) (t : TypeName) : Bench := { b with fabricating := t :: b.fabricating }

def leaveType (b : Bench) (t : TypeName) : Bench :=
  { b with fabricating := b.fabricating.filter (· != t), store := b.store.forgetCycle t }

def enterClass (b : Bench) (t : TypeName) : Bench := { b with registering := t :: b.registering }

def leaveClass (b : Bench) (t : TypeName) : Bench :=
  { b with registering := b.registering.filter (· != t), pending := b.pending.filter (·.1 != t) }

/-- Of several declarations of a class that is not registered, the first one waits for it. -/
def await (b : Bench) (c : Component) : Bench :=
  if (b.store.component? c.name).isSome || (b.pending.lookup c.name).isSome then b
  else { b with pending := b.pending ++ [(c.name, c)] }

/-- Whether nothing is in progress. -/
structure IsClear (b : Bench) : Prop where
  fabricating : b.fabricating = []
  registering : b.registering = []
  pending : b.pending = []
  cycleBreaks : b.store.cycleBreaks = []

end Bench

/-! ### Ends -/

/-- Whether a computation ends: from some depth on it has this answer, so it needs no limit. -/
def Ends (run : Nat → Option α) (x : α) : Prop :=
  ∃ enough, ∀ depth, enough ≤ depth → run depth = some x

section Ends

variable {run run' : Nat → Option α} {x : α}

theorem Ends.step (h : Ends run' x) (hstep : ∀ depth, run (depth + 1) = run' depth) :
    Ends run x := by
  obtain ⟨enough, hrun⟩ := h
  refine ⟨enough + 1, fun depth hdepth => ?_⟩
  obtain ⟨d, rfl⟩ : ∃ d, depth = d + 1 := ⟨depth - 1, by omega⟩
  rw [hstep]
  exact hrun d (by omega)

theorem ends_const (x : α) : Ends (fun _ => some x) x := ⟨0, fun _ _ => rfl⟩

theorem ends_of_succ (h : ∀ depth, run (depth + 1) = some x) : Ends run x := (ends_const x).step h

theorem Ends.unique {y : α} (h : Ends run x) (h' : Ends run y) : x = y := by
  obtain ⟨enough, hx⟩ := h
  obtain ⟨more, hy⟩ := h'
  exact Option.some.inj ((hx (max enough more) (by omega)).symm.trans (hy _ (by omega)))

theorem Ends.bind (h : Ends run x) (next : Nat → α → Option β) {y : β}
    (hnext : Ends (next · x) y) : Ends (fun depth => (run depth).bind (next depth)) y := by
  obtain ⟨enough, hrun⟩ := h
  obtain ⟨more, hmore⟩ := hnext
  refine ⟨max enough more, fun depth hdepth => ?_⟩
  simp only [hrun depth (by omega), Option.bind_some]
  exact hmore depth (by omega)

theorem Ends.map (h : Ends run x) (f : α → β) {y : β} (hf : f x = y) :
    Ends (fun depth => (run depth).bind fun a => some (f a)) y :=
  h.bind _ (hf ▸ ends_const (f x))

end Ends

/-! ### The recursion -/

namespace Workshop

mutual

/-- The functions of fabrication as they change the tables. None of them is an answer if calls would
have to be nested deeper than `depth`. -/
def ambientOn (w : Workshop) : Nat → TypeName → Bench → Option (StandInRef × Bench)
  | 0, _, _ => none
  | depth + 1, t, b =>
    match b.store.component? t with
    | some x => some (x, b)
    | none =>
      match b.pending.lookup t with
      | some c => w.registerOn depth c b
      | none =>
        match b.store.ambients.lookup t with
        | some x => some (x, b)
        | none =>
          if t.isPlainValue then some (b.withStore (b.store.value w.arrayLength t))
          else do
            let made ← w.fabricateOn depth t .ambient ("ambient" ++ t.simpleName) b
            some (made.2.withStore (made.2.store.settleAmbient t made.1))

def registerOn (w : Workshop) : Nat → Component → Bench → Option (StandInRef × Bench)
  | 0, _, _ => none
  | depth + 1, c, b =>
    match b.store.component? c.name with
    | some x => some (x, b)
    | none =>
      if b.registering.contains c.name then some (b.withStore (b.store.cutComponentCycle c.name))
      else do
        let args ← w.materializeOn depth (c.constructorParams.map .ofType) (b.enterClass c.name)
        let left := args.2.leaveClass c.name
        some (left.withStore (left.store.enroll c args.1))

def fabricateOn (w : Workshop) :
    Nat → TypeName → Origin → String → Bench → Option (StandInRef × Bench)
  | 0, _, _, _, _ => none
  | depth + 1, t, origin, hint, b =>
    if t.isPlainValue then some (b.withStore (b.store.value w.arrayLength t))
    else if b.fabricating.contains t then some (b.withStore (b.store.cutCycle t origin hint))
    else
      match w.catalog.recipeFor t with
      | none => some (b.withStore (b.store.pushDegenerate t origin hint t.text .noRecipe))
      | some recipe => do
        let made ← w.followOn depth recipe t origin hint (b.enterType t)
        some (made.1, made.2.leaveType t)

def followOn (w : Workshop) :
    Nat → Recipe → TypeName → Origin → String → Bench → Option (StandInRef × Bench)
  | 0, _, _, _, _, _ => none
  | depth + 1, recipe, t, origin, hint, b =>
    match recipe with
    | .unfabricable =>
      some (b.withStore (b.store.pushDegenerate t origin hint t.text .unfabricable))
    | .staticField owner field =>
      some (b.withStore (b.store.push t origin (.staticField owner field) hint))
    | .substitute concrete => w.fabricateOn depth concrete origin hint b
    | .constructor params => do
      let args ← w.materializeOn depth params b
      some (args.2.withStore (args.2.store.complete t origin (.constructor args.1) hint))
    | .staticFactory owner method params => do
      let args ← w.materializeOn depth params b
      some (args.2.withStore
        (args.2.store.complete t origin (.staticFactory owner method args.1) hint))

def materializeOn (w : Workshop) :
    Nat → List ParamSource → Bench → Option (List StandInRef × Bench)
  | 0, _, _ => none
  | _ + 1, [], b => some ([], b)
  | depth + 1, p :: ps, b => do
    let first ← w.supplyOn depth p b
    let rest ← w.materializeOn depth ps first.2
    some (first.1 :: rest.1, rest.2)

def supplyOn (w : Workshop) : Nat → ParamSource → Bench → Option (StandInRef × Bench)
  | 0, _, _ => none
  | depth + 1, p, b =>
    match p with
    | .context => w.ambientOn depth TypeName.context b
    | .ambient t => w.ambientOn depth t b
    | .degenerate t => some (b.withStore (b.store.typedNull t))
    | .value t => some (b.withStore (b.store.value w.arrayLength t))

end

def registerEachOn (w : Workshop) (depth : Nat) :
    List Component → Bench → Option (List StandInRef × Bench)
  | [], b => some ([], b)
  | c :: cs, b => do
    let first ← w.registerOn depth c b
    let rest ← w.registerEachOn depth cs first.2
    some (first.1 :: rest.1, rest.2)

def registerAllOn (w : Workshop) (depth : Nat) (cs : List Component) (b : Bench) :
    Option (List StandInRef × Bench) := w.registerEachOn depth cs (cs.foldl .await b)

end Workshop

/-! ### The bench during a fabrication -/

/-- The bench while some types and classes are underway: of the declarations that waited at first,
those wait whose classes are not registered. -/
def Underway.bench (u : Underway) (waiting : List (TypeName × Component)) (s : Store) : Bench where
  store := s
  fabricating := u.types
  registering := u.classes
  pending := waiting.filter fun e => (s.component? e.1).isNone

namespace Store

variable {s s' : Store} {batch : List Component} {waiting : List (TypeName × Component)}

/-- Whether for each class that is not registered the declaration of the batch that counts waits. -/
def Awaits (s : Store) (batch : List Component) (waiting : List (TypeName × Component)) : Prop :=
  ∀ t, s.component? t = none → waiting.lookup t = batch.find? (·.name == t)

theorem Awaits.grow (h : s.Awaits batch waiting) (hgrows : s.Grows s') :
    s'.Awaits batch waiting := by
  intro t hnew
  apply h
  cases hold : s.component? t with
  | none => rfl
  | some x =>
      rw [hgrows.component? hold] at hnew
      cases hnew

end Store

section Bench

variable {u : Underway} {waiting : List (TypeName × Component)} {s s' : Store} {t : TypeName}

@[simp] theorem bench_store : (u.bench waiting s).store = s := rfl
@[simp] theorem bench_fabricating : (u.bench waiting s).fabricating = u.types := rfl
@[simp] theorem bench_registering : (u.bench waiting s).registering = u.classes := rfl

theorem lookup_pending {batch : List Component} (h : s.Awaits batch waiting)
    (hnew : s.component? t = none) :
    (u.bench waiting s).pending.lookup t = batch.find? (·.name == t) := by
  rw [← h t hnew]
  exact lookup_filter (p := fun t => (s.component? t).isNone) (by rw [hnew]; rfl)

theorem withStore_bench (h : s'.components = s.components) (x : α) :
    (u.bench waiting s).withStore (x, s') = (x, u.bench waiting s') := by
  have hsame : s'.component? = s.component? := by
    funext t
    rw [Store.component?, h, Store.component?]
  rw [Bench.withStore, Underway.bench, Underway.bench, hsame]

theorem filter_ne_cons {ts : List TypeName} (h : t ∉ ts) : (t :: ts).filter (· != t) = ts := by
  rw [List.filter_cons_of_neg (by simp), List.filter_eq_self]
  rintro t' ht'
  rw [bne_iff_ne]
  rintro rfl
  exact h ht'

theorem leaveType_bench (h : t ∉ u.types) :
    ((u.enterType t).bench waiting s).leaveType t = u.bench waiting (s.forgetCycle t) := by
  have hleft : (t :: u.types).filter (· != t) = u.types := filter_ne_cons h
  rw [Bench.leaveType, Underway.bench, Underway.bench, Underway.enterType, hleft]
  rfl

/-- A class that is enrolled waits no longer. -/
theorem enroll_bench {c : Component} (h : c.name ∉ u.classes) (hnew : s.component? c.name = none)
    (args : List StandInRef) :
    (((u.enterClass c.name).bench waiting s).leaveClass c.name).withStore (s.enroll c args) =
      ((s.enroll c args).1, u.bench waiting (s.enroll c args).2) := by
  have hleft : (c.name :: u.classes).filter (· != c.name) = u.classes := filter_ne_cons h
  have hpending : (waiting.filter fun e => (s.component? e.1).isNone).filter (·.1 != c.name) =
      waiting.filter fun e => ((s.enroll c args).2.component? e.1).isNone := by
    rw [List.filter_filter]
    refine List.filter_congr fun e he => ?_
    by_cases hname : c.name = e.1
    · rw [← hname, Store.component?_enroll hnew]
      simp
    · have hsame : (s.enroll c args).2.component? e.1 = s.component? e.1 :=
        Store.component?_append hname rfl
      rw [hsame]
      simp [Ne.symm hname]
  rw [Bench.leaveClass, Underway.bench, Underway.enterClass]
  simp only [Bench.withStore, Underway.bench, hleft, hpending]

end Bench

namespace Workshop

variable (w : Workshop) (batch : List Component) (waiting : List (TypeName × Component))

variable {waiting} in
/-- What following the recipe of a type leaves on the bench, once the type is left. -/
theorem fabricateOn_ends {u : Underway} {t : TypeName} {origin : Origin} {hint : String}
    {s s' : Store} {recipe : Recipe} {x : StandInRef} (hplain : t.isPlainValue = false)
    (hbusy : t ∉ u.types) (hrecipe : w.catalog.recipeFor t = some recipe)
    (hmade : Ends (w.followOn · recipe t origin hint ((u.enterType t).bench waiting s))
      (x, (u.enterType t).bench waiting s')) :
    Ends (w.fabricateOn · t origin hint (u.bench waiting s))
      (x, u.bench waiting (s'.forgetCycle t)) := by
  have hfree : u.types.contains t = false := by simpa using hbusy
  have hentered : (u.bench waiting s).enterType t = (u.enterType t).bench waiting s := rfl
  have hleft : (x, ((u.enterType t).bench waiting s').leaveType t) =
      (x, u.bench waiting (s'.forgetCycle t)) := by rw [leaveType_bench hbusy]
  apply (hmade.map (fun made => (made.1, made.2.leaveType t)) hleft).step
  intro depth
  rw [fabricateOn]
  simp only [bench_fabricating, hplain, hfree, hrecipe, hentered]
  rfl

variable {waiting} in
theorem registerOn_ends {u : Underway} {s : Store} {c : Component}
    {args : List StandInRef × Store} (hnew : s.component? c.name = none)
    (hbusy : c.name ∉ u.classes) (hstill : args.2.component? c.name = none)
    (hmade : Ends
      (w.materializeOn · (c.constructorParams.map .ofType) ((u.enterClass c.name).bench waiting s))
      (args.1, (u.enterClass c.name).bench waiting args.2)) :
    Ends (w.registerOn · c (u.bench waiting s))
      ((args.2.enroll c args.1).1, u.bench waiting (args.2.enroll c args.1).2) := by
  have hfree : u.classes.contains c.name = false := by simpa using hbusy
  have hentered : (u.bench waiting s).enterClass c.name =
      (u.enterClass c.name).bench waiting s := rfl
  apply (hmade.map (fun args => (args.2.leaveClass c.name).withStore
    ((args.2.leaveClass c.name).store.enroll c args.1)) (enroll_bench hbusy hstill args.1)).step
  intro depth
  rw [registerOn]
  simp only [bench_store, hnew, bench_registering, hfree, hentered]
  rfl

/-- Fabrication ends on the bench, and answers and leaves what the functions with a measure do. -/
theorem fabrication_ends :
    (∀ (u : Underway) t (s : Store), s.Sound → s.Awaits batch waiting →
      Ends (w.ambientOn · t (u.bench waiting s))
        ((w.ambient batch u t s).1, u.bench waiting (w.ambient batch u t s).2)) ∧
    (∀ (u : Underway) t origin hint (s : Store), s.Sound → s.Awaits batch waiting →
      Ends (w.fabricateOn · t origin hint (u.bench waiting s))
        ((w.fabricate batch u t origin hint s).1,
          u.bench waiting (w.fabricate batch u t origin hint s).2)) ∧
    (∀ (u : Underway) params (s : Store), s.Sound → s.Awaits batch waiting →
      Ends (w.materializeOn · params (u.bench waiting s))
        ((w.materialize batch u params s).1,
          u.bench waiting (w.materialize batch u params s).2)) ∧
    (∀ (u : Underway) p (s : Store), s.Sound → s.Awaits batch waiting →
      Ends (w.supplyOn · p (u.bench waiting s))
        ((w.supply batch u p s).1, u.bench waiting (w.supply batch u p s).2)) := by
  apply w.fabrication_induction batch
    (fun u t s out => s.Awaits batch waiting →
      Ends (w.ambientOn · t (u.bench waiting s)) (out.1, u.bench waiting out.2))
    (fun u t origin hint s out => s.Awaits batch waiting →
      Ends (w.fabricateOn · t origin hint (u.bench waiting s)) (out.1, u.bench waiting out.2))
    (fun u params s out => s.Awaits batch waiting →
      Ends (w.materializeOn · params (u.bench waiting s)) (out.1, u.bench waiting out.2))
    (fun u p s out => s.Awaits batch waiting →
      Ends (w.supplyOn · p (u.bench waiting s)) (out.1, u.bench waiting out.2))
  case registered =>
      intro u t s x hs hx h
      apply ends_of_succ
      intro depth
      rw [ambientOn]
      simp only [bench_store, hx]
  case cutClass =>
      intro u s c hs hnew hfind hbusy h
      have hruns : Store.Runs 0 [] [] s (s.cutComponentCycle c.name).2 :=
        (Store.cutComponentCycle_runs hs c.name).1
      have hregister : Ends (w.registerOn · c (u.bench waiting s))
          ((s.cutComponentCycle c.name).1, u.bench waiting (s.cutComponentCycle c.name).2) := by
        apply ends_of_succ
        intro depth
        rw [registerOn]
        simp only [bench_store, hnew, bench_registering, List.contains_iff_mem.2 hbusy, if_true]
        rw [withStore_bench hruns.components]
      apply hregister.step
      intro depth
      rw [ambientOn]
      simp only [bench_store, hnew, lookup_pending h hnew, hfind]
  case enrolled =>
      intro u s c args hs hnew hfind hbusy hargs hstill ih h
      apply (w.registerOn_ends hnew hbusy hstill (ih h)).step
      intro depth
      rw [ambientOn]
      simp only [bench_store, hnew, lookup_pending h hnew, hfind]
  case known =>
      intro u t s x hs hnew hfind hx h
      apply ends_of_succ
      intro depth
      rw [ambientOn]
      simp only [bench_store, hnew, lookup_pending h hnew, hfind, hx]
  case plain =>
      intro u t s hs hnew hfind hambient hplain h
      have hvalue : Store.Effect w.arrayLength [] [] s _ := .value s t
      apply ends_of_succ
      intro depth
      rw [ambientOn]
      simp only [bench_store, hnew, lookup_pending h hnew, hfind, hambient, hplain, if_true]
      rw [withStore_bench hvalue.runs.components]
  case settled =>
      intro u t s made hs hnew hfind hambient hplain hmade ih h
      obtain ⟨-, hholds⟩ := hmade hs
      have hsettle : Store.Effect 0 [] [] made.2 _ := .settleAmbient hplain hholds
      apply ((ih h).map (fun made => made.2.withStore (made.2.store.settleAmbient t made.1))
        (withStore_bench hsettle.runs.components _)).step
      intro depth
      rw [ambientOn]
      simp only [bench_store, hnew, lookup_pending h hnew, hfind, hambient, hplain]
      rfl
  case fabricatedPlain =>
      intro u t origin hint s hs hplain h
      have hvalue : Store.Effect w.arrayLength [] [] s _ := .value s t
      apply ends_of_succ
      intro depth
      rw [fabricateOn, if_pos hplain]
      exact congrArg some (withStore_bench hvalue.runs.components _)
  case cutType =>
      intro u t origin hint s hs hplain hbusy h
      apply ends_of_succ
      intro depth
      rw [fabricateOn]
      simp only [bench_fabricating, hplain, List.contains_iff_mem.2 hbusy, if_true]
      exact congrArg some (withStore_bench rfl _)
  case noRecipe =>
      intro u t origin hint s hs hplain hbusy hrecipe h
      have hfree : u.types.contains t = false := by simpa using hbusy
      apply ends_of_succ
      intro depth
      rw [fabricateOn]
      simp only [bench_fabricating, hplain, hfree, hrecipe]
      exact congrArg some (withStore_bench rfl _)
  case unfabricable =>
      intro u t origin hint s hs hplain hbusy hrecipe h
      apply w.fabricateOn_ends hplain hbusy hrecipe
      apply ends_of_succ
      intro depth
      rw [followOn]
      exact congrArg some (withStore_bench rfl _)
  case staticField =>
      intro u t origin hint s owner field hs hplain hbusy hrecipe h
      apply w.fabricateOn_ends hplain hbusy hrecipe
      apply ends_of_succ
      intro depth
      rw [followOn]
      exact congrArg some (withStore_bench rfl _)
  case substituted =>
      intro u t origin hint s concrete made hs hplain hbusy hrecipe hmade ih h
      apply w.fabricateOn_ends hplain hbusy hrecipe
      apply (ih h).step
      intro depth
      rw [followOn]
  case completed =>
      intro u t origin hint s recipe args construction hs hplain hbusy hrecipe hbuilds hargs ih h
      obtain ⟨hruns, hhas⟩ := hargs hs
      have hcomplete : Store.Runs 0 [] [] args.2 (args.2.complete t origin construction hint).2 :=
        (Store.complete_runs (hruns.sound hs) hplain origin hint (hbuilds.dependencies ▸ hhas)).1
      apply w.fabricateOn_ends hplain hbusy hrecipe
      cases hbuilds with
      | constructor params =>
          apply ((ih h).map (fun args =>
            args.2.withStore (args.2.store.complete t origin (.constructor args.1) hint))
            (withStore_bench hcomplete.components _)).step
          intro depth
          rw [followOn]
          rfl
      | staticFactory owner method params =>
          apply ((ih h).map (fun args => args.2.withStore
            (args.2.store.complete t origin (.staticFactory owner method args.1) hint))
            (withStore_bench hcomplete.components _)).step
          intro depth
          rw [followOn]
          rfl
  case nil =>
      intro u s hs h
      apply ends_of_succ
      intro depth
      rw [materializeOn]
  case cons =>
      intro u p ps s first rest hs hfirst hrest ihfirst ihrest h
      have hlater := ihrest (h.grow (hfirst hs).1.grows)
      apply ((ihfirst h).bind (fun depth first => (w.materializeOn depth ps first.2).bind
        fun rest => some (first.1 :: rest.1, rest.2)) (hlater.map _ rfl)).step
      intro depth
      rw [materializeOn]
      rfl
  case object =>
      intro u p s out hs hshared ih h
      apply (ih h).step
      intro depth
      cases p with
      | context | ambient => rw [supplyOn]; rfl
      | degenerate | value => cases hshared
  case typedNull =>
      intro u t s hs h
      have hnull : Store.Effect 0 [] [] s _ := .typedNull s t
      apply ends_of_succ
      intro depth
      rw [supplyOn]
      exact congrArg some (withStore_bench hnull.runs.components _)
  case value =>
      intro u t s hs h
      have hvalue : Store.Effect w.arrayLength [] [] s _ := .value s t
      apply ends_of_succ
      intro depth
      rw [supplyOn]
      exact congrArg some (withStore_bench hvalue.runs.components _)

end Workshop
end AppDriver
