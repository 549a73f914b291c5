import AppDriver.Threading
import Mathlib.Data.List.Forall2

/-! Threading a state through a list: what every step keeps, the whole run keeps, and every answer is
that of its element at a state in between. -/

namespace AppDriver

theorem forall₂_left {R : α → β → Prop} {as : List α} {bs : List β} (h : List.Forall₂ R as bs)
    {a : α} (ha : a ∈ as) : ∃ b ∈ bs, R a b := by
  induction h with
  | nil => cases ha
  | cons hr _ ih =>
      rcases List.mem_cons.1 ha with rfl | ha
      · exact ⟨_, List.mem_cons_self, hr⟩
      · obtain ⟨b, hb, hab⟩ := ih ha
        exact ⟨b, List.mem_cons_of_mem _ hb, hab⟩

theorem forall₂_getElem? {R : α → β → Prop} {as : List α} {bs : List β}
    (h : List.Forall₂ R as bs) {k : Nat} {a : α} (ha : as[k]? = some a) :
    ∃ b, bs[k]? = some b ∧ R a b := by
  induction h generalizing k with
  | nil => cases ha
  | cons hr _ ih =>
      cases k with
      | zero =>
          cases ha
          exact ⟨_, rfl, hr⟩
      | succ k => exact ih ha

/-- Lists that are related to elements by what they map to join to what the elements map to. -/
theorem flatten_of_forall₂ {f : β → List γ} {g : α → List γ} {as : List α} {bs : List β}
    (h : List.Forall₂ (fun a b => f b = g a) as bs) : (bs.map f).flatten = as.flatMap g := by
  induction h with
  | nil => rfl
  | cons hab _ ih => rw [List.map_cons, List.flatten_cons, List.flatMap_cons, hab, ih]

theorem mapM_eq_some_map {f : α → Option β} {g : α → β} {as : List α}
    (h : ∀ a ∈ as, f a = some (g a)) : as.mapM f = some (as.map g) := by
  induction as with
  | nil => rfl
  | cons a as ih =>
      rw [List.mapM_cons, h a List.mem_cons_self, ih fun b hb => h b (List.mem_cons_of_mem a hb)]
      rfl

theorem mapM_flatMap_eq_some {f : β → Option γ} {g : α → List β} {h : α → List γ} {as : List α}
    (hread : ∀ a ∈ as, (g a).mapM f = some (h a)) : (as.flatMap g).mapM f = some (as.flatMap h) := by
  induction as with
  | nil => rfl
  | cons a as ih =>
      rw [List.flatMap_cons, List.mapM_append, hread a List.mem_cons_self,
        ih fun b hb => hread b (List.mem_cons_of_mem a hb)]
      rfl

section Threading

variable {R : σ → σ → Prop} (hrefl : ∀ s, R s s) (htrans : ∀ {a b c}, R a b → R b c → R a c)

include hrefl htrans in
theorem threadMap_rel {f : α → σ → β × σ} (as : List α) (hstep : ∀ a ∈ as, ∀ s, R s (f a s).2)
    (s : σ) : R s (threadMap f as s).2 := by
  induction as generalizing s with
  | nil => exact hrefl s
  | cons a as ih =>
      exact htrans (hstep a List.mem_cons_self s)
        (ih (fun b hb => hstep b (List.mem_cons_of_mem a hb)) _)

include hrefl htrans in
/-- Every answer of a run is that of its element at a state between the first and the last. -/
theorem threadMap_answers {f : α → σ → β × σ} (hstep : ∀ a s, R s (f a s).2) (as : List α)
    (s : σ) :
    List.Forall₂ (fun a b => ∃ t, R s t ∧ b = (f a t).1 ∧ R (f a t).2 (threadMap f as s).2) as
      (threadMap f as s).1 := by
  induction as generalizing s with
  | nil => exact .nil
  | cons a as ih =>
      refine .cons ⟨s, hrefl s, rfl, threadMap_rel hrefl htrans as (fun b _ => hstep b) _⟩ ?_
      refine (ih (f a s).2).imp fun b answer h => ?_
      obtain ⟨t, ht, hb, hlast⟩ := h
      exact ⟨t, htrans (hstep a s) ht, hb, hlast⟩

include hrefl htrans in
/-- Every element of the joined answers is in the answer of one element at a state in between. -/
theorem mem_threadFlatMap {f : α → σ → List β × σ} (hstep : ∀ a s, R s (f a s).2) {as : List α}
    {s : σ} {b : β} (hb : b ∈ (threadFlatMap f as s).1) :
    ∃ a ∈ as, ∃ t, R s t ∧ b ∈ (f a t).1 ∧ R (f a t).2 (threadFlatMap f as s).2 := by
  obtain ⟨answer, hanswer, hmem⟩ := List.mem_flatten.1 hb
  obtain ⟨a, ha, t, ht, rfl, hlast⟩ :=
    forall₂_left (threadMap_answers hrefl htrans hstep as s).flip hanswer
  exact ⟨a, ha, t, ht, hmem, hlast⟩

end Threading

/-- As `threadMap_invariant`, where only the elements of the list keep it. -/
theorem threadMap_keeps {P : σ → Prop} {f : α → σ → β × σ} (as : List α)
    (hstep : ∀ a ∈ as, ∀ s, P s → P (f a s).2) {s : σ} (h : P s) : P (threadMap f as s).2 :=
  threadMap_rel (R := fun s s' => P s → P s') (fun _ h => h) (fun h h' hs => h' (h hs)) as hstep
    s h

/-- A run whose steps give certain answers and stay among certain states gives these answers. -/
theorem threadMap_settled {L : σ → Prop} {f : α → σ → β × σ} {as : List α} {bs : List β}
    (h : List.Forall₂ (fun a b => ∀ s, L s → (f a s).1 = b ∧ L (f a s).2) as bs) {s : σ}
    (hs : L s) : (threadMap f as s).1 = bs ∧ L (threadMap f as s).2 := by
  induction h generalizing s with
  | nil => exact ⟨rfl, hs⟩
  | cons hstep _ ih =>
      obtain ⟨hfirst, hnext⟩ := hstep s hs
      obtain ⟨hrest, hlast⟩ := ih hnext
      exact ⟨congrArg₂ List.cons hfirst hrest, hlast⟩

theorem threadMap_forall₂ {P : α → β → Prop} {f : α → σ → β × σ} (h : ∀ a s, P a (f a s).1)
    (as : List α) (s : σ) : List.Forall₂ P as (threadMap f as s).1 := by
  have hanswers := threadMap_answers (R := fun _ _ : σ => True) (fun _ => trivial)
    (fun _ _ => trivial) (f := f) (fun _ _ => trivial) as s
  refine hanswers.imp fun a b hb => ?_
  obtain ⟨t, -, rfl, -⟩ := hb
  exact h a t

end AppDriver
