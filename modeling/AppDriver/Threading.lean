/-!
Passing a state along a list: each element is answered in turn, and the state that one leaves is the
state that the next one finds.
-/

namespace AppDriver

/-- Answers the elements of a list from left to right, handing the state on. -/
def threadMap (f : α → σ → β × σ) : List α → σ → List β × σ
  | [], s => ([], s)
  | a :: as, s =>
    let first := f a s
    let rest := threadMap f as first.2
    (first.1 :: rest.1, rest.2)

/-- As `threadMap`, for elements with any number of answers. -/
def threadFlatMap (f : α → σ → List β × σ) (as : List α) (s : σ) : List β × σ :=
  let answers := threadMap f as s
  (answers.1.flatten, answers.2)

theorem length_threadMap (f : α → σ → β × σ) (as : List α) (s : σ) :
    (threadMap f as s).1.length = as.length := by
  induction as generalizing s with
  | nil => rfl
  | cons a as ih => simp [threadMap, ih]

/-- What every step keeps, the whole run keeps. -/
theorem threadMap_invariant {P : σ → Prop} {f : α → σ → β × σ}
    (keep : ∀ a s, P s → P (f a s).2) (as : List α) {s : σ} (h : P s) :
    P (threadMap f as s).2 := by
  induction as generalizing s with
  | nil => exact h
  | cons a as ih => exact ih (keep a s h)

end AppDriver
