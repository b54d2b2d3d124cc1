import Mathlib.Data.List.Basic

/-! # Folds whose steps commute

A step that commutes with all the steps after it may be told last, and a step that does nothing
twice may be told again. -/
namespace Dominion.Framework

universe u v

variable {σ : Type u} {α : Type v} {f : σ → α → σ} {a : α} {after : List α}

private theorem foldl_comm (h : ∀ b ∈ after, ∀ s, f (f s b) a = f (f s a) b) (s : σ) :
    after.foldl f (f s a) = f (after.foldl f s) a := by
  induction after generalizing s with
  | nil => rfl
  | cons b after ih =>
    simp only [List.foldl_cons]
    rw [← h b List.mem_cons_self s]
    exact ih (fun c hc => h c (List.mem_cons_of_mem _ hc)) (f s b)

/-- A step in its place acts as one at the end. -/
theorem foldl_insert (h : ∀ b ∈ after, ∀ s, f (f s b) a = f (f s a) b) (s : σ) (before : List α) :
    (before ++ a :: after).foldl f s = f ((before ++ after).foldl f s) a := by
  simp only [List.foldl_append,List.foldl_cons]
  exact foldl_comm h (before.foldl f s)

/-- A step that was told in its place does nothing at the end. -/
theorem foldl_again (h : ∀ b ∈ after, ∀ s, f (f s b) a = f (f s a) b)
    (hagain : ∀ s, f (f s a) a = f s a) (s : σ) (before : List α) :
    f ((before ++ a :: after).foldl f s) a = (before ++ a :: after).foldl f s := by
  rw [foldl_insert h,hagain]

end Dominion.Framework
