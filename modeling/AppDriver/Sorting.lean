/-!
Stable sorting by insertion, and lists of distinct elements in ascending order. Main statements:
sorting only rearranges (`sorted_perm`), puts its result in order (`sorted_pairwise`), and keeps the
order of elements that may precede each other (`filter_sorted`).
-/

namespace AppDriver

/-- Puts an element before the first one that it may precede. -/
def insertInOrder (le : α → α → Bool) (a : α) : List α → List α
  | [] => [a]
  | b :: bs => if le a b then a :: b :: bs else b :: insertInOrder le a bs

/-- Sorts a list; elements that may precede each other keep their order. -/
def sorted (le : α → α → Bool) : List α → List α
  | [] => []
  | a :: as => insertInOrder le a (sorted le as)

/-- The distinct elements of a list in order. -/
def sortedDistinct [BEq α] (le : α → α → Bool) (as : List α) : List α :=
  sorted le as.eraseDups

theorem insertInOrder_perm (le : α → α → Bool) (a : α) (as : List α) :
    (insertInOrder le a as).Perm (a :: as) := by
  induction as with
  | nil => exact .refl _
  | cons b bs ih =>
    simp only [insertInOrder]
    split
    · exact .refl _
    · exact (ih.cons b).trans (.swap a b bs)

theorem sorted_perm (le : α → α → Bool) (as : List α) : (sorted le as).Perm as := by
  induction as with
  | nil => exact .refl _
  | cons a as ih => exact (insertInOrder_perm le a _).trans (ih.cons a)

theorem mem_insertInOrder {le : α → α → Bool} {a x : α} {as : List α} :
    x ∈ insertInOrder le a as ↔ x = a ∨ x ∈ as := by
  simpa using (insertInOrder_perm le a as).mem_iff (a := x)

theorem insertInOrder_pairwise {le : α → α → Bool} (total : ∀ a b, le a b || le b a)
    (trans : ∀ a b c, le a b → le b c → le a c) (a : α) {as : List α}
    (h : as.Pairwise (le · ·)) : (insertInOrder le a as).Pairwise (le · ·) := by
  induction as with
  | nil => simp [insertInOrder]
  | cons b bs ih =>
    obtain ⟨hb, hbs⟩ := List.pairwise_cons.1 h
    simp only [insertInOrder]
    split
    next hab =>
      refine List.pairwise_cons.2 ⟨fun x hx => ?_, h⟩
      rcases List.mem_cons.1 hx with rfl | hx
      · exact hab
      · exact trans _ _ _ hab (hb x hx)
    next hab =>
      refine List.pairwise_cons.2 ⟨fun x hx => ?_, ih hbs⟩
      rcases mem_insertInOrder.1 hx with rfl | hx
      · simpa [hab] using total x b
      · exact hb x hx

theorem sorted_pairwise {le : α → α → Bool} (total : ∀ a b, le a b || le b a)
    (trans : ∀ a b c, le a b → le b c → le a c) (as : List α) :
    (sorted le as).Pairwise (le · ·) := by
  induction as with
  | nil => simp [sorted]
  | cons a as ih => exact insertInOrder_pairwise total trans a ih

theorem filter_insertInOrder_of_neg (le : α → α → Bool) {q : α → Bool} {a : α} (ha : ¬q a = true)
    (as : List α) : (insertInOrder le a as).filter q = as.filter q := by
  induction as with
  | nil => simp [insertInOrder, ha]
  | cons b bs ih =>
    simp only [insertInOrder]
    split
    · rw [List.filter_cons_of_neg ha]
    · rw [List.filter_cons, List.filter_cons, ih]

theorem filter_insertInOrder_of_pos {le : α → α → Bool} {q : α → Bool} {a : α} (ha : q a = true)
    {as : List α} (hle : ∀ b ∈ as, q b = true → le a b = true) :
    (insertInOrder le a as).filter q = a :: as.filter q := by
  induction as with
  | nil => simp [insertInOrder, ha]
  | cons b bs ih =>
    simp only [insertInOrder]
    split
    next => rw [List.filter_cons_of_pos ha]
    next hab =>
      have hb : ¬q b = true := fun hb => hab (hle b List.mem_cons_self hb)
      rw [List.filter_cons_of_neg hb, List.filter_cons_of_neg hb]
      exact ih fun c hc => hle c (List.mem_cons_of_mem _ hc)

/-- Elements that may all precede each other come out in the order in which they stand. -/
theorem filter_sorted {le : α → α → Bool} {q : α → Bool} {as : List α}
    (hle : ∀ a ∈ as, ∀ b ∈ as, q a = true → q b = true → le a b = true) :
    (sorted le as).filter q = as.filter q := by
  induction as with
  | nil => rfl
  | cons a as ih =>
    have hrest := ih fun b hb c hc => hle b (List.mem_cons_of_mem _ hb) c (List.mem_cons_of_mem _ hc)
    rw [sorted]
    by_cases ha : q a = true
    · rw [filter_insertInOrder_of_pos ha, hrest, List.filter_cons_of_pos ha]
      intro b hb hqb
      exact hle a List.mem_cons_self b
        (List.mem_cons_of_mem _ ((sorted_perm le as).mem_iff.1 hb)) ha hqb
    · rw [filter_insertInOrder_of_neg le ha, hrest, List.filter_cons_of_neg ha]

end AppDriver
