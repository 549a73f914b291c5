import AppDriver.Proofs.Bench
import AppDriver.Proofs.Enrolment
import AppDriver.Proofs.SharedObjects

/-! What operations leave in progress. Each public operation is followed on the bench: it ends, and
leaves the bench clear, so the next one finds it so. -/

namespace AppDriver

namespace Workshop

variable (w : Workshop) (batch : List Component) (waiting : List (TypeName × Component))

/-! ### Registering a list -/

theorem register_ends {s : Store} (hs : s.Sound) (h : s.Awaits batch waiting) (c : Component) :
    Ends (w.registerOn · c (({} : Underway).bench waiting s))
      ((w.register batch c s).1, ({} : Underway).bench waiting (w.register batch c s).2) := by
  cases hnew : s.component? c.name with
  | some x =>
      apply ends_of_succ
      intro depth
      rw [registerOn, register]
      simp only [bench_store, hnew]
  | none =>
      obtain ⟨hruns, -⟩ := (w.fabrication_obtains batch).2.2.1 (Underway.enterClass {} c.name)
        (c.constructorParams.map .ofType) s hs
      have hstill := (hruns.component?_kept (.inl List.mem_cons_self)).trans hnew
      have hmade := (w.fabrication_ends batch waiting).2.2.1 (Underway.enterClass {} c.name)
        (c.constructorParams.map .ofType) s hs h
      rw [register, hnew]
      exact w.registerOn_ends hnew List.not_mem_nil hstill hmade

theorem registerEach_ends {s : Store} (hs : s.Sound) (h : s.Awaits batch waiting)
    (cs : List Component) :
    Ends (w.registerEachOn · cs (({} : Underway).bench waiting s))
      ((threadMap (w.register batch) cs s).1,
        ({} : Underway).bench waiting (threadMap (w.register batch) cs s).2) := by
  induction cs generalizing s with
  | nil => exact ⟨0, fun _ _ => rfl⟩
  | cons c cs ih =>
      obtain ⟨hgrows, hsound, -⟩ := w.register_grows batch c hs
      have hrest := ih hsound (h.grow hgrows)
      exact (w.register_ends batch waiting hs h c).bind _ (hrest.map _ rfl)

end Workshop

namespace Bench

variable {b : Bench} {c : Component} {cs : List Component} {t : TypeName} {e : TypeName × Component}

theorem foldl_await_eq (cs : List Component) (b : Bench) :
    ∃ pending, cs.foldl .await b = { b with pending } := by
  induction cs generalizing b with
  | nil => exact ⟨b.pending, rfl⟩
  | cons c cs ih =>
      obtain ⟨pending, hrest⟩ := ih (b.await c)
      refine ⟨pending, hrest.trans ?_⟩
      rw [await]
      split <;> rfl

theorem await_store (b : Bench) (c : Component) : (b.await c).store = b.store := by
  rw [await]
  split <;> rfl

theorem lookup_await (hnew : b.store.component? t = none) :
    (b.await c).pending.lookup t = (b.pending.lookup t).or ([c].find? (·.name == t)) := by
  by_cases hname : c.name = t
  · subst hname
    rw [List.find?_cons_of_pos (by simp), await, hnew]
    cases hwaits : b.pending.lookup c.name with
    | some d => simp [hwaits]
    | none => simp [hwaits, List.lookup_append]
  · rw [List.find?_cons_of_neg (by simpa using hname), List.find?_nil, Option.or_none, await]
    split
    · rfl
    · rw [List.lookup_append, List.lookup_cons, beq_eq_false_iff_ne.2 (Ne.symm hname)]
      exact Option.or_none

theorem mem_await (h : e ∈ (b.await c).pending) :
    e ∈ b.pending ∨ b.store.component? e.1 = none ∧ c.name = e.1 := by
  rw [await] at h
  split at h
  · exact Or.inl h
  · rename_i hadd
    rcases List.mem_append.1 h with hold | hnew
    · exact Or.inl hold
    · obtain rfl := List.mem_singleton.1 hnew
      simp only [Bool.or_eq_true, Option.isSome_iff_ne_none, not_or, not_not] at hadd
      exact Or.inr ⟨hadd.1, rfl⟩

/-- For a class that is not registered, the first of its declarations waits. -/
theorem lookup_foldl_await (hnew : b.store.component? t = none) :
    (cs.foldl .await b).pending.lookup t =
      (b.pending.lookup t).or (cs.find? (·.name == t)) := by
  induction cs generalizing b with
  | nil => exact Option.or_none.symm
  | cons c cs ih =>
      have hstill : (b.await c).store.component? t = none := by rw [await_store, hnew]
      rw [List.foldl_cons, ih hstill, lookup_await hnew, Option.or_assoc, ← List.find?_append]
      rfl

theorem mem_foldl_await (h : e ∈ (cs.foldl .await b).pending) :
    e ∈ b.pending ∨ b.store.component? e.1 = none ∧ ∃ c ∈ cs, c.name = e.1 := by
  induction cs generalizing b with
  | nil => exact Or.inl h
  | cons c cs ih =>
      rcases ih h with hfirst | ⟨hnew, d, hd, hname⟩
      · exact (mem_await hfirst).imp_right fun ⟨hnew, hname⟩ =>
          ⟨hnew, c, List.mem_cons_self, hname⟩
      · rw [await_store] at hnew
        exact Or.inr ⟨hnew, d, List.mem_cons_of_mem c hd, hname⟩

end Bench

namespace Workshop

variable (w : Workshop) {s : Store}

/-- A list of components is registered on a clear bench, and leaves it clear. -/
theorem registerAll_ends (hs : s.Sound) (cs : List Component) :
    Ends (w.registerAllOn · cs { store := s })
      ((threadMap (w.register cs) cs s).1, { store := (threadMap (w.register cs) cs s).2 }) := by
  obtain ⟨waiting, hbench⟩ := Bench.foldl_await_eq cs { store := s }
  have hwaiting : waiting = (cs.foldl .await { store := s } : Bench).pending := by rw [hbench]
  have hmem : ∀ e ∈ waiting, s.component? e.1 = none ∧ ∃ c ∈ cs, c.name = e.1 := by
    intro e he
    rw [hwaiting] at he
    exact (Bench.mem_foldl_await he).resolve_left List.not_mem_nil
  have hawaits : s.Awaits cs waiting := by
    intro t hnew
    rw [hwaiting]
    exact Bench.lookup_foldl_await hnew
  -- At first every declaration that waits is of a class that is not registered; in the end none is.
  have hfirst : (cs.foldl .await { store := s } : Bench) = ({} : Underway).bench waiting s := by
    have hall : (waiting.filter fun e => (s.component? e.1).isNone) = waiting :=
      List.filter_eq_self.2 fun e he => by rw [(hmem e he).1]; rfl
    rw [hbench, Underway.bench, hall]
  have hlast : (waiting.filter fun e =>
      ((threadMap (w.register cs) cs s).2.component? e.1).isNone) = [] := by
    refine List.filter_eq_nil_iff.2 fun e he hnone => ?_
    obtain ⟨-, c, hc, hname⟩ := hmem e he
    have hanswers := Registry.registerComponents_answers (r := ⟨w, s⟩) hs cs
    obtain ⟨x, -, hx⟩ := forall₂_left hanswers hc
    have hregistered : (threadMap (w.register cs) cs s).2.component? c.name = some x := hx
    rw [← hname, hregistered] at hnone
    cases hnone
  have heach := w.registerEach_ends cs waiting hs hawaits cs
  rw [← hfirst, Underway.bench, hlast] at heach
  exact heach

/-! ### Operations -/

def resolveOn (w : Workshop) (depth : Nat) (id : ResourceId) (t : TypeName) (b : Bench) :
    Option (StandInRef × Bench) :=
  match b.store.byIdentifier.lookup id with
  | some x => some (x, b)
  | none =>
    match b.store.component? t with
    | some x =>
      some (b.withStore (x, { b.store with byIdentifier := (id, x) :: b.store.byIdentifier }))
    | none => do
      let hint := ((b.store.declared.lookup id).bind (·.name)).getD ("view" ++ toString id)
      let made ← w.fabricateOn depth t (.identifier id) hint b
      some (made.2.withStore (made.1,
        { made.2.store with byIdentifier := (id, made.1) :: made.2.store.byIdentifier }))

def resolveDeclaredOn (w : Workshop) (depth : Nat) (id : ResourceId) (fallback : TypeName)
    (b : Bench) : Option (StandInRef × Bench) :=
  match b.store.byIdentifier.lookup id with
  | some x => some (x, b)
  | none =>
    match b.store.declared.lookup id with
    | some d => w.resolveOn depth id d.declaredType b
    | none =>
      let made := b.store.pushDegenerate fallback (.unresolved (some id))
        ("missing" ++ toString id) ("R.id " ++ toString id) .missingIdentifier
      some (b.withStore (made.1,
        { made.2 with byIdentifier := (id, made.1) :: made.2.byIdentifier }))

def systemServiceOn (w : Workshop) (depth : Nat) (name : String) (b : Bench) :
    Option (StandInRef × Bench) :=
  match b.store.services.lookup name with
  | some x => some (x, b)
  | none => do
    let made ← match w.catalog.serviceType? name with
      | some t => w.ambientOn depth t b
      | none => some (b.withStore (b.store.pushDegenerate TypeName.object .ambient
          ("service_" ++ name) ("service '" ++ name ++ "'") .unknownService))
    some (made.2.withStore (made.1,
      { made.2.store with services := (name, made.1) :: made.2.store.services }))

def argumentForOn (w : Workshop) (depth : Nat) (t : TypeName) (b : Bench) :
    Option (StandInRef × Bench) :=
  if t.isPlainValue then some (b.withStore (b.store.value w.arrayLength t))
  else w.ambientOn depth t b

open Registry (Operation Answer)

/-- An operation on the bench. Those that fabricate nothing concern the store alone. -/
def performOn (w : Workshop) (depth : Nat) (b : Bench) : Operation → Option (Answer × Bench)
  | .resolve id t => do
    let out ← w.resolveOn depth id t b
    some (.standIn out.1, out.2)
  | .resolveDeclared id fallback => do
    let out ← w.resolveDeclaredOn depth id fallback b
    some (.standIn out.1, out.2)
  | .ambient t => do
    let out ← w.ambientOn depth t b
    some (.standIn out.1, out.2)
  | .systemService name => do
    let out ← w.systemServiceOn depth name b
    some (.standIn out.1, out.2)
  | .argumentFor t => do
    let out ← w.argumentForOn depth t b
    some (.standIn out.1, out.2)
  | .registerComponent c => do
    let out ← w.registerOn depth c b
    some (.standIn out.1, out.2)
  | .registerComponents cs => do
    let out ← w.registerAllOn depth cs b
    some (.standIns out.1, out.2)
  | op =>
    let out := op.run { workshop := w, store := b.store }
    some (b.withStore (out.1, out.2.store))

theorem ambient_ends (hs : s.Sound) (t : TypeName) :
    Ends (w.ambientOn · t { store := s })
      ((w.ambient [] {} t s).1, { store := (w.ambient [] {} t s).2 }) :=
  (w.fabrication_ends [] []).1 {} t s hs fun _ _ => rfl

theorem resolve_ends (hs : s.Sound) (id : ResourceId) (t : TypeName) :
    Ends (w.resolveOn · id t { store := s }) ((Registry.resolve ⟨w, s⟩ id t).1,
      { store := (Registry.resolve ⟨w, s⟩ id t).2.store }) := by
  simp only [resolveOn]
  rw [Registry.resolve, Registry.findViewById?]
  cases s.byIdentifier.lookup id with
  | some x => exact ends_const _
  | none =>
      cases s.component? t with
      | some x => exact ends_const _
      | none =>
          have hmade := (w.fabrication_ends [] []).2.1 {} t (.identifier id)
            (((s.declared.lookup id).bind (·.name)).getD ("view" ++ toString id)) s hs
            fun _ _ => rfl
          exact hmade.map _ rfl

theorem resolveDeclared_ends (hs : s.Sound) (id : ResourceId) (t : TypeName) :
    Ends (w.resolveDeclaredOn · id t { store := s }) ((Registry.resolveDeclared ⟨w, s⟩ id t).1,
      { store := (Registry.resolveDeclared ⟨w, s⟩ id t).2.store }) := by
  simp only [resolveDeclaredOn]
  rw [Registry.resolveDeclared, Registry.findViewById?, Registry.declaredType?]
  cases s.byIdentifier.lookup id with
  | some x => exact ends_const _
  | none =>
      cases s.declared.lookup id with
      | some d => exact w.resolve_ends hs id d.declaredType
      | none => exact ends_const _

theorem systemService_ends (hs : s.Sound) (name : String) :
    Ends (w.systemServiceOn · name { store := s }) ((Registry.systemService ⟨w, s⟩ name).1,
      { store := (Registry.systemService ⟨w, s⟩ name).2.store }) := by
  simp only [systemServiceOn]
  rw [Registry.systemService, Registry.catalog]
  cases s.services.lookup name with
  | some x => exact ends_const _
  | none =>
      cases w.catalog.serviceType? name with
      | some t => exact (w.ambient_ends hs t).map _ rfl
      | none => exact ends_const _

theorem argumentFor_ends (hs : s.Sound) (t : TypeName) :
    Ends (w.argumentForOn · t { store := s }) ((Registry.argumentFor ⟨w, s⟩ t).1,
      { store := (Registry.argumentFor ⟨w, s⟩ t).2.store }) := by
  simp only [argumentForOn]
  rw [Registry.argumentFor]
  split
  · exact ends_const _
  · exact w.ambient_ends hs t

theorem perform_ends (hs : s.Sound) (op : Operation) :
    Ends (w.performOn · { store := s } op)
      ((op.run ⟨w, s⟩).1, { store := (op.run ⟨w, s⟩).2.store }) := by
  cases op with
  | resolve id t => exact (w.resolve_ends hs id t).map _ rfl
  | resolveDeclared id t => exact (w.resolveDeclared_ends hs id t).map _ rfl
  | ambient t => exact (w.ambient_ends hs t).map _ rfl
  | systemService name => exact (w.systemService_ends hs name).map _ rfl
  | argumentFor t => exact (w.argumentFor_ends hs t).map _ rfl
  | registerComponent c => exact (w.register_ends [] [] hs (fun _ _ => rfl) c).map _ rfl
  | registerComponents cs => exact (w.registerAll_ends hs cs).map _ rfl
  | declare | unresolved | value | derived | deriveChain => exact ends_const _

end Workshop

open Registry (Operation Answer)

/-- The benches that operations with references that exist make of an empty one. -/
inductive Bench.Reached : Workshop → Bench → Prop
  | start (catalog : FrameworkCatalog) (arrayLength : Nat) :
    Reached ((Registry.new catalog).withArrayLength arrayLength).workshop {}
  | step {w : Workshop} {b b' : Bench} {answer : Answer} (op : Operation) : Reached w b →
    op.isAdmissible ⟨w, b.store⟩ = true → Ends (w.performOn · b op) (answer, b') → Reached w b'

/-- On a bench that is reached nothing is in progress, and its store is that of a registry. -/
theorem Bench.Reached.reachable {w : Workshop} {b : Bench} (h : Reached w b) :
    b = { store := b.store } ∧ Registry.Reachable ⟨w, b.store⟩ := by
  induction h with
  | start catalog arrayLength => exact ⟨rfl, .new catalog arrayLength⟩
  | @step w b b' answer op hb hop hperform ih =>
      obtain ⟨hclear, hreachable⟩ := ih
      have hends := w.perform_ends hreachable.sound op
      rw [← hclear] at hends
      obtain ⟨-, rfl⟩ := Prod.mk.inj (hperform.unique hends)
      have hnext := hreachable.step op hop
      have hworkshop := (Registry.run_evolves hreachable.sound op).workshop
      have hsame : (op.run ⟨w, b.store⟩).2 = ⟨w, (op.run ⟨w, b.store⟩).2.store⟩ :=
        congrArg (Registry.mk · _) hworkshop
      rw [hsame] at hnext
      exact ⟨rfl, hnext⟩

/-- **Operations end.** On every bench that is reached, every operation ends without a limit of its
depth, with the answer and the store of the registry. Then nothing is in progress: no type is being
fabricated, no class is being registered or waits for it, and no cut of a cycle is left over. -/
theorem Workshop.operation_ends {w : Workshop} {b : Bench} (h : b.Reached w) (op : Operation) :
    ∃ b', Ends (w.performOn · b op) ((op.run ⟨w, b.store⟩).1, b') ∧
      b'.store = (op.run ⟨w, b.store⟩).2.store ∧ b'.IsClear := by
  obtain ⟨hclear, hreachable⟩ := h.reachable
  have hends := w.perform_ends hreachable.sound op
  rw [← hclear] at hends
  have htidy := (Registry.run_sharesNew _ op hreachable.sound hreachable.tidy).1
  refine ⟨_, hends, rfl, rfl, rfl, rfl, ?_⟩
  exact List.eq_nil_iff_forall_not_mem.2 fun e he => List.not_mem_nil (htidy.breaks e he)

/-- Recipes that need each other. -/
def ringCatalog : FrameworkCatalog :=
  { recipes := [(⟨"app.Head"⟩, .constructor [.ambient ⟨"app.Tail"⟩]),
      (⟨"app.Tail"⟩, .substitute ⟨"app.Head"⟩)] }

/-- The stand-in that cuts the cycle is the shared object of both types. -/
theorem ring_ends : Bench.Reached (Registry.new ringCatalog).workshop {} ∧
    ∃ b', Ends ((Registry.new ringCatalog).workshop.performOn · {} (.ambient ⟨"app.Head"⟩))
        (.standIn ⟨0⟩, b') ∧ b'.IsClear := by
  have hstart : Bench.Reached (Registry.new ringCatalog).workshop {} := .start ringCatalog 1
  obtain ⟨b', hends, -, hclear⟩ := Workshop.operation_ends hstart (.ambient ⟨"app.Head"⟩)
  have hanswer : ((Operation.ambient ⟨"app.Head"⟩).run
      ⟨(Registry.new ringCatalog).workshop, {}⟩).1 = .standIn ⟨0⟩ := by decide +kernel
  rw [hanswer] at hends
  exact ⟨hstart, b', hends, hclear⟩

end AppDriver
