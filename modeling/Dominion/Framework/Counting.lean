import Mathlib.Data.List.Count

/-! # Counting the members of an indexed pool -/
namespace Dominion.Framework

universe u

variable {α : Type u} {l : List α} {p : α → Bool} {i j : Nat} {a b : α}

theorem countP_set_add (h : l[i]? = some b) :
    (l.set i a).countP p + (if p b then 1 else 0) = l.countP p + (if p a then 1 else 0) := by
  induction l generalizing i with
  | nil => simp at h
  | cons x xs ih =>
    cases i with
    | zero =>
      have hx : x = b := by simpa using h
      subst x
      simp only [List.set_cons_zero,List.countP_cons]
      omega
    | succ i =>
      have hrec := ih (i := i) (by simpa using h)
      simp only [List.set_cons_succ,List.countP_cons]
      omega

theorem countP_pos_of_getElem? (h : l[i]? = some a) (ha : p a = true) : 0 < l.countP p :=
  List.countP_pos_iff.mpr ⟨a,List.mem_of_getElem? h,ha⟩

theorem exists_getElem?_of_countP_pos (h : 0 < l.countP p) :
    ∃ (i : Nat) (a : α), l[i]? = some a ∧ p a = true := by
  obtain ⟨a,hmem,ha⟩ := List.countP_pos_iff.mp h
  obtain ⟨i,hi⟩ := List.mem_iff_getElem?.mp hmem
  exact ⟨i,a,hi,ha⟩

/-- At most one member counted means at most one place. -/
theorem index_unique_of_countP_le_one (hle : l.countP p ≤ 1) (hi : l[i]? = some a)
    (hj : l[j]? = some b) (ha : p a = true) (hb : p b = true) : i = j := by
  induction l generalizing i j with
  | nil => simp at hi
  | cons x xs ih =>
    rw [List.countP_cons] at hle
    cases i with
    | zero =>
      cases j with
      | zero => rfl
      | succ j =>
        have hx : x = a := by simpa using hi
        have hpos := countP_pos_of_getElem? (l := xs) (by simpa using hj) hb
        rw [hx,if_pos ha] at hle
        omega
    | succ i =>
      cases j with
      | zero =>
        have hx : x = b := by simpa using hj
        have hpos := countP_pos_of_getElem? (l := xs) (by simpa using hi) ha
        rw [hx,if_pos hb] at hle
        omega
      | succ j =>
        have hrec := ih (by omega) (by simpa using hi) (by simpa using hj)
        rw [hrec]

end Dominion.Framework
