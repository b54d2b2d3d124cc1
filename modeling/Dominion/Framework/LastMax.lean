import Mathlib.Data.List.Basic
import Mathlib.Data.List.Induction
import Mathlib.Order.Lattice

/-! # The last element of the highest rank

A cell that keeps an element until one of the same or a higher rank arrives holds the last of the
elements of the highest rank among those that arrived. -/
namespace Dominion.Framework

universe u v

variable {α : Type u} {β : Type v} [LinearOrder β] (rank : α → β)

structure LastMax (xs : List α) (x : α) : Prop where
  split : ∃ before after, xs = before ++ x :: after ∧ (∀ y ∈ before, rank y ≤ rank x) ∧
    ∀ y ∈ after, rank y < rank x

/-- The cell takes an arrival unless what it holds ranks higher. -/
def keepMax : Option α → α → Option α
  | none,x => some x
  | some y,x => if rank y ≤ rank x then some x else some y

variable {rank} {xs : List α} {x : α}

namespace LastMax

theorem mem (h : LastMax rank xs x) : x ∈ xs := by
  obtain ⟨before,after,rfl,-,-⟩ := h.split
  simp

theorem rank_le (h : LastMax rank xs x) : ∀ y ∈ xs, rank y ≤ rank x := by
  obtain ⟨before,after,rfl,hbefore,hafter⟩ := h.split
  intro y hy
  rcases List.mem_append.mp hy with hy | hy
  · exact hbefore y hy
  · rcases List.mem_cons.mp hy with rfl | hy
    · exact le_rfl
    · exact (hafter y hy).le

/-- An arrival that the cell takes. -/
theorem append_of_le {y : α} (h : LastMax rank xs x) (hle : rank x ≤ rank y) :
    LastMax rank (xs ++ [y]) y where
  split := ⟨xs,[],rfl,fun z hz => (h.rank_le z hz).trans hle,by simp⟩

/-- An arrival that the cell refuses. -/
theorem append_of_lt {y : α} (h : LastMax rank xs x) (hlt : rank y < rank x) :
    LastMax rank (xs ++ [y]) x where
  split := by
    obtain ⟨before,after,rfl,hbefore,hafter⟩ := h.split
    refine ⟨before,after ++ [y],by simp,hbefore,fun z hz => ?_⟩
    rcases List.mem_append.mp hz with hz | hz
    · exact hafter z hz
    · rw [List.mem_singleton.mp hz]
      exact hlt

end LastMax

private theorem foldl_keepMax (xs : List α) :
    xs = [] ∧ xs.foldl (keepMax rank) none = none ∨
      ∃ x, xs.foldl (keepMax rank) none = some x ∧ LastMax rank xs x := by
  induction xs using List.reverseRecOn with
  | nil => exact .inl ⟨rfl,rfl⟩
  | append_singleton xs y ih =>
    right
    rw [List.foldl_append,List.foldl_cons,List.foldl_nil]
    rcases ih with ⟨rfl,hnone⟩ | ⟨x,hx,hlast⟩
    · rw [hnone]
      exact ⟨y,rfl,⟨[],[],rfl,by simp,by simp⟩⟩
    · rw [hx,keepMax]
      by_cases hle : rank x ≤ rank y
      · rw [if_pos hle]
        exact ⟨y,rfl,hlast.append_of_le hle⟩
      · rw [if_neg hle]
        exact ⟨x,rfl,hlast.append_of_lt (not_le.mp hle)⟩

theorem lastMax_of_foldl (h : xs.foldl (keepMax rank) none = some x) : LastMax rank xs x := by
  have hfold : xs = [] ∧ xs.foldl (keepMax rank) none = none ∨
      ∃ x, xs.foldl (keepMax rank) none = some x ∧ LastMax rank xs x := foldl_keepMax xs
  rcases hfold with ⟨-,hnone⟩ | ⟨y,hy,hlast⟩
  · rw [hnone] at h
    cases h
  · cases h.symm.trans hy
    exact hlast

end Dominion.Framework
