/-!
# Scanners

A scanner goes over a list from left to right and changes its state at each element. What it does at
an element depends on the state in which it comes to it, so the elements are paired with these
states.
-/

namespace VbOutline.Text

/-- Each element with the state in which a scanner comes to it. -/
def states {σ α : Type} (step : σ → α → σ) (start : σ) (xs : List α) : List (σ × α) :=
  (xs.foldl (fun acc x ↦ (step acc.1 x, (acc.1, x) :: acc.2)) (start, [])).2.reverse

section

variable {σ α : Type} (step : σ → α → σ)

theorem foldl_states (start : σ) (seen : List (σ × α)) (xs : List α) :
    (xs.foldl (fun acc x ↦ (step acc.1 x, (acc.1, x) :: acc.2)) (start, seen)).2.reverse =
      seen.reverse ++ states step start xs := by
  induction xs generalizing start seen with
  | nil => simp [states]
  | cons x xs ih =>
    have hone := ih (step start x) [(start, x)]
    have hall := ih (step start x) ((start, x) :: seen)
    simp only [states, List.foldl_cons] at hone hall ⊢
    rw [hall, hone]
    simp

@[simp]
theorem states_nil (start : σ) : states step start [] = [] := rfl

@[simp]
theorem states_cons (start : σ) (x : α) (xs : List α) :
    states step start (x :: xs) = (start, x) :: states step (step start x) xs := by
  have h := foldl_states step (step start x) [(start, x)] xs
  simpa [states] using h

end

end VbOutline.Text
