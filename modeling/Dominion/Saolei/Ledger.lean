import Mathlib.Data.List.Nodup
import Dominion.Saolei.Member

/-! # The ledger of settled turns -/
namespace Dominion.Saolei

/-- The turns that have settled and the wakes they were consumed as: each turn at most once, and
all but the one that the pump still owes. -/
structure Ledger (turns : Nat → Option Settlement) (nextTurn : Nat)
    (fed : List (Nat × Option Outcome)) (disposed : Bool) (owed : Option Nat) : Prop where
  settled_lt : ∀ id st, turns id = some st → id < nextTurn
  owed_lt : ∀ id, owed = some id → id < nextTurn
  nodup : (fed.map Prod.fst).Nodup
  faithful : ∀ id wake, (id,wake) ∈ fed → ∃ st, turns id = some st ∧
    (wake = some st.outcome ∨ (wake = none ∧ st.outcome = .settled))
  owed_fresh : ∀ id, owed = some id → id ∉ fed.map Prod.fst
  complete : disposed = false → ∀ id st, turns id = some st →
    owed = some id ∨ id ∈ fed.map Prod.fst

namespace Ledger

variable {turns : Nat → Option Settlement} {nextTurn id : Nat}
  {fed : List (Nat × Option Outcome)} {disposed : Bool} {owed : Option Nat}

private theorem fed_lt (h : Ledger turns nextTurn fed disposed owed) (hid : id ∈ fed.map Prod.fst) :
    id < nextTurn := by
  obtain ⟨⟨id',wake⟩,hmem,rfl⟩ := List.mem_map.mp hid
  obtain ⟨st,hst,-⟩ := h.faithful _ _ hmem
  exact h.settled_lt _ st hst

/-- A turn number is taken that no turn uses. -/
theorem skip (h : Ledger turns nextTurn fed disposed owed) :
    Ledger turns (nextTurn + 1) fed disposed owed where
  settled_lt id st hst := Nat.lt_succ_of_lt (h.settled_lt id st hst)
  owed_lt id ho := Nat.lt_succ_of_lt (h.owed_lt id ho)
  nodup := h.nodup
  faithful := h.faithful
  owed_fresh := h.owed_fresh
  complete := h.complete

theorem start (h : Ledger turns nextTurn fed disposed none) :
    Ledger turns (nextTurn + 1) fed disposed (some nextTurn) where
  settled_lt id st hst := Nat.lt_succ_of_lt (h.settled_lt id st hst)
  owed_lt id ho := by
    cases ho
    exact Nat.lt_succ_self _
  nodup := h.nodup
  faithful := h.faithful
  owed_fresh id ho hmem := by
    cases ho
    exact Nat.lt_irrefl _ (h.fed_lt hmem)
  complete hd id st hst := Or.inr ((h.complete hd id st hst).resolve_left (by simp))

theorem settle (h : Ledger turns nextTurn fed disposed (some id)) (hnone : turns id = none)
    (st : Settlement) :
    Ledger (Function.update turns id (some st)) nextTurn fed disposed (some id) where
  settled_lt id' st' hst' := by
    by_cases he : id' = id
    · subst id'
      exact h.owed_lt id rfl
    · rw [Function.update_of_ne he] at hst'
      exact h.settled_lt id' st' hst'
  owed_lt := h.owed_lt
  nodup := h.nodup
  faithful id' wake hmem := by
    obtain ⟨st',hst',hwake⟩ := h.faithful id' wake hmem
    have he : id' ≠ id := by
      rintro rfl
      rw [hnone] at hst'
      cases hst'
    exact ⟨st',by rw [Function.update_of_ne he,hst'],hwake⟩
  owed_fresh := h.owed_fresh
  complete hd id' st' hst' := by
    by_cases he : id' = id
    · subst id'
      exact Or.inl rfl
    · rw [Function.update_of_ne he] at hst'
      exact h.complete hd id' st' hst'

/-- The decision entry consumes the turn that the pump owes. -/
theorem feed {wake : Option Outcome} (h : Ledger turns nextTurn fed disposed owed)
    (hwake : ∀ id, owed = some id → ∃ st, turns id = some st ∧
      (wake = some st.outcome ∨ (wake = none ∧ st.outcome = .settled))) :
    Ledger turns nextTurn (fed ++ owed.toList.map fun id => (id,wake)) disposed none := by
  cases owed with
  | none => simpa using h
  | some id =>
    refine ⟨h.settled_lt,by simp,?_,?_,by simp,?_⟩
    · simpa [List.nodup_append] using ⟨h.nodup,fun a w ha hid =>
        h.owed_fresh id rfl (List.mem_map.mpr ⟨(a,w),ha,hid⟩)⟩
    · intro id' wake' hmem
      rcases List.mem_append.mp hmem with hmem | hmem
      · exact h.faithful id' wake' hmem
      · simp only [Option.toList_some,List.map_cons,List.map_nil,List.mem_singleton,
          Prod.mk.injEq] at hmem
        obtain ⟨rfl,rfl⟩ := hmem
        exact hwake _ rfl
    · intro hd id' st hst
      right
      rw [List.map_append]
      rcases h.complete hd id' st hst with howed | hfed
      · cases howed
        exact List.mem_append_right _ (by simp)
      · exact List.mem_append_left _ hfed

theorem drop (h : Ledger turns nextTurn fed true owed) : Ledger turns nextTurn fed true none where
  settled_lt := h.settled_lt
  owed_lt id ho := by cases ho
  nodup := h.nodup
  faithful := h.faithful
  owed_fresh id ho := by cases ho
  complete hd := by cases hd

theorem dispose (h : Ledger turns nextTurn fed disposed owed) :
    Ledger turns nextTurn fed true owed where
  settled_lt := h.settled_lt
  owed_lt := h.owed_lt
  nodup := h.nodup
  faithful := h.faithful
  owed_fresh := h.owed_fresh
  complete hd := by cases hd

end Ledger

end Dominion.Saolei
