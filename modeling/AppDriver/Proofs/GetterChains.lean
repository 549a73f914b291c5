import AppDriver.Proofs.GetterCalls
import AppDriver.Proofs.SettledArguments
import Mathlib.Data.List.Induction

/-! Chains of getters. Every getter leads to a later place in the arena, and the stand-in there knows
the call that it answers. A chain can therefore be read off backwards from its end, and the reading
stops at the start of the chain and not before: two chains with one start end at one stand-in exactly
if they call the same getters in the same order, whatever types they declare. Nothing else answers
with a stand-in at which a chain ends, since that answers a getter call and no other answer does. -/

namespace AppDriver.Registry

variable {r : Registry} {start x : StandInRef} {c d : List AccessorStep}

/-! ### Following a chain -/

theorem follow?_concat (chain : List AccessorStep) (step : AccessorStep) (start : StandInRef) :
    r.follow? start (chain ++ [step]) =
      (r.follow? start chain).bind fun parent => r.store.derived.lookup (parent, step.method) := by
  induction chain generalizing start with
  | nil =>
      rw [List.nil_append, follow?, follow?, Option.bind_some]
      exact Option.bind_fun_some _
  | cons first chain ih =>
      rw [List.cons_append, follow?, follow?, Option.bind_assoc]
      exact congrArg _ (funext ih)

/-- What a chain declares of the types of its values does not matter. -/
theorem follow?_of_methods (h : c.map (·.method) = d.map (·.method)) (start : StandInRef) :
    r.follow? start c = r.follow? start d := by
  induction c generalizing d start with
  | nil =>
      obtain rfl := List.map_eq_nil_iff.1 h.symm
      rfl
  | cons step c ih =>
      obtain ⟨step', d, rfl, hmethod, hrest⟩ := List.map_eq_cons_iff.1 h.symm
      have hnext := funext (ih hrest.symm)
      rw [follow?, follow?, show step'.method = step.method from hmethod, hnext]

/-! ### Reading a chain backwards -/

/-- The stand-in that a getter returns comes after the one that it is called on. -/
theorem Reachable.lt_of_derived (h : Reachable r) {parent : StandInRef} {method : String}
    (hx : r.store.derived.lookup (parent, method) = some x) : parent.index < x.index := by
  have horigin := h.apart.derived _ (Workshop.mem_of_lookup hx)
  obtain ⟨y, hy, horigin⟩ := Option.map_eq_some_iff.1 horigin
  exact (h.lookup_of_derived hy horigin).2

/-- A stand-in is returned by one getter of one other stand-in. -/
theorem Reachable.derived_injective (h : Reachable r) {call call' : StandInRef × String}
    (hx : r.store.derived.lookup call = some x) (hx' : r.store.derived.lookup call' = some x) :
    call = call' := by
  have hcall := h.apart.derived _ (Workshop.mem_of_lookup hx)
  have hcall' := h.apart.derived _ (Workshop.mem_of_lookup hx')
  obtain ⟨hparent, hmethod⟩ := Origin.derived.inj (Option.some.inj (hcall.symm.trans hcall'))
  exact Prod.ext hparent hmethod

theorem Reachable.le_of_follow? (h : Reachable r) {chain : List AccessorStep}
    (hx : r.follow? start chain = some x) : start.index + chain.length ≤ x.index := by
  induction chain generalizing start with
  | nil =>
      cases hx
      exact Nat.le_refl _
  | cons step chain ih =>
      obtain ⟨next, hnext, hrest⟩ := Option.bind_eq_some_iff.1 hx
      have hfirst := h.lt_of_derived hnext
      have hlater := ih hrest
      rw [List.length_cons]
      omega

/-- The end of a chain says which getters it called. -/
theorem Reachable.methods_of_follow? (h : Reachable r) (hc : r.follow? start c = some x)
    (hd : r.follow? start d = some x) : c.map (·.method) = d.map (·.method) := by
  induction c using List.reverseRecOn generalizing d x with
  | nil =>
      cases hc
      have hshort := h.le_of_follow? hd
      obtain rfl : d = [] := List.length_eq_zero_iff.1 (by omega)
      rfl
  | append_singleton c step ih =>
      have hlong := h.le_of_follow? hc
      rw [List.length_append, List.length_singleton] at hlong
      rcases d.eq_nil_or_concat' with rfl | ⟨d, step', rfl⟩
      · -- A chain with a getter does not come back to its start.
        cases hd
        omega
      · rw [follow?_concat] at hc hd
        obtain ⟨parent, hparent, hlast⟩ := Option.bind_eq_some_iff.1 hc
        obtain ⟨parent', hparent', hlast'⟩ := Option.bind_eq_some_iff.1 hd
        obtain ⟨rfl, hmethod⟩ := Prod.mk.inj (h.derived_injective hlast hlast')
        rw [List.map_append, List.map_append, ih hparent hparent', List.map_singleton,
          List.map_singleton, hmethod]

/-- A stand-in at which a chain with a getter ends answers a getter call. -/
theorem Reachable.callAt?_follow? (h : Reachable r) (hx : r.follow? start c = some x)
    (hc : c ≠ []) : ∃ call, r.store.callAt? x = some (some call) := by
  obtain ⟨c, step, rfl⟩ := c.eq_nil_or_concat'.resolve_left hc
  rw [follow?_concat] at hx
  obtain ⟨parent, -, hlast⟩ := Option.bind_eq_some_iff.1 hx
  exact ⟨_, Store.callAt?_of_originAt? (h.apart.derived _ (Workshop.mem_of_lookup hlast))⟩

/-! ### Deriving chains -/

theorem Reachable.deriveChain (h : Reachable r) (hstart : r.contains start = true)
    (chain : List AccessorStep) : Reachable (r.deriveChain start chain).2 :=
  h.step (.deriveChain start chain)
    (Operation.isAdmissible_deriveChain.2 (Or.inr (contains_iff.1 hstart)))

/-- **Aliases among chains of getters.** Two chains that are followed from one stand-in, with any run
in between, end at the same stand-in exactly if they call the same getters in the same order. An
operation that follows no getter does not answer with the end of a chain that has one, neither later
nor earlier in a run. -/
theorem chains_alias_iff (h : Reachable r) (hstart : r.contains start = true)
    (c d : List AccessorStep) :
    (∀ late, Leads (r.deriveChain start c).2 late →
      ((r.deriveChain start c).1 = (late.deriveChain start d).1 ↔
        c.map (·.method) = d.map (·.method))) ∧
    (c ≠ [] → ∀ op : Operation, op.followsGetters = false →
      (∀ late, Leads (r.deriveChain start c).2 late →
        (r.deriveChain start c).1 ∉ (op.run late).1.refs) ∧
      ∀ early, Reachable early → Leads (op.run early).2 r →
        (r.deriveChain start c).1 ∉ (op.run early).1.refs) := by
  have hend := h.deriveChain hstart c
  have hfollowed := follow?_deriveChain c start h.sound
  constructor
  · intro late hlead
    have hlate := hlead.evolves hend.sound
    have hexists : late.contains start = true := by
      have hgrows := (deriveChain_settles c start h.sound).grows.trans hlate.grows
      exact contains_iff.2 (hgrows.has (contains_iff.1 hstart))
    have hlast := (hlead.reachable hend).deriveChain hexists d
    -- In the last registry both chains are on record.
    have hc := (deriveChain_settles d start hlate.sound).toEvolves.follow? (hlate.follow? hfollowed)
    have hd := follow?_deriveChain d start hlate.sound
    constructor
    · intro heq
      rw [← heq] at hd
      exact hlast.methods_of_follow? hc hd
    · intro hmethods
      rw [follow?_of_methods hmethods, hd] at hc
      exact (Option.some.inj hc).symm
  · intro hne op hop
    obtain ⟨call, hcall⟩ := hend.callAt?_follow? hfollowed hne
    constructor
    · intro late hlead hmem
      have hanswer := (hlead.reachable hend).callAt?_answer hop hmem
      have hgrows := (hlead.evolves hend.sound).grows.trans
        (run_evolves (hlead.evolves hend.sound).sound op).grows
      rw [Store.callAt?_extend hgrows.arena hcall] at hanswer
      cases hanswer
    · intro early hearly hlead hmem
      have hanswer := hearly.callAt?_answer hop hmem
      have hgrows := (hlead.evolves (run_evolves hearly.sound op).sound).grows.trans
        (deriveChain_settles c start h.sound).grows
      rw [Store.callAt?_extend hgrows.arena hanswer] at hcall
      cases hcall

/-- A registry in which the view of one identifier has been resolved. -/
def playerRegistry : Registry := ((new {}).resolve 1 ⟨"app.PlayerView"⟩).2

theorem playerRegistry_reachable : Reachable playerRegistry :=
  .step (.resolve 1 ⟨"app.PlayerView"⟩) (.new {} 1) rfl

def holderChain : List AccessorStep := [⟨"getHolder", ⟨"android.view.SurfaceHolder"⟩⟩]

def surfaceChain : List AccessorStep := holderChain ++ [⟨"getSurface", ⟨"android.view.Surface"⟩⟩]

/-- After the context has been asked for, the getter still returns the same holder, also where
another type is declared for it; the surface is another stand-in, and so are the context and the
view. -/
theorem holder_aliases : Reachable playerRegistry ∧ playerRegistry.contains ⟨0⟩ = true ∧
    let holder := playerRegistry.deriveChain ⟨0⟩ holderChain
    let context := holder.2.ambient TypeName.context
    holder.1 = (context.2.deriveChain ⟨0⟩ [⟨"getHolder", TypeName.object⟩]).1 ∧
      holder.1 ≠ (context.2.deriveChain ⟨0⟩ surfaceChain).1 ∧ holder.1 ≠ context.1 ∧
      holder.1 ≠ ((new {}).resolve 1 ⟨"app.PlayerView"⟩).1 := by
  have hview : playerRegistry.contains ⟨0⟩ = true := by decide +kernel
  have haliases := chains_alias_iff playerRegistry_reachable hview holderChain
  have hcontext : Leads (playerRegistry.deriveChain ⟨0⟩ holderChain).2
      ((playerRegistry.deriveChain ⟨0⟩ holderChain).2.ambient TypeName.context).2 :=
    .single ⟨.ambient TypeName.context, rfl, rfl⟩
  refine ⟨playerRegistry_reachable, hview, ?_, ?_, ?_, ?_⟩
  · exact ((haliases [⟨"getHolder", TypeName.object⟩]).1 _ hcontext).2 rfl
  · exact mt ((haliases surfaceChain).1 _ hcontext).1 (by decide)
  · have hlater := ((haliases []).2 (by decide) (.ambient TypeName.context) rfl).1 _ .refl
    exact mt List.mem_singleton.2 hlater
  · have hearlier := ((haliases []).2 (by decide) (.resolve 1 ⟨"app.PlayerView"⟩) rfl).2 _
      (.new {} 1) .refl
    exact mt List.mem_singleton.2 hearlier

end AppDriver.Registry
