import Mathlib.Data.List.Sort
import Mathlib.Data.List.Nodup

/-! # Seek pagination

A list in the order of several comparators, read page by page.  A page resumes behind an element:
the two agree by the first comparators and are told apart by the next. -/
namespace Dominion.Framework.Seek

open Std

universe u

variable {α : Type u} {ts : List (α → α → Ordering)} {cmp : α → α → Ordering} {c x : α}
  {xs : List α}

/-- By the first comparator that tells two elements apart. -/
def compareBy (ts : List (α → α → Ordering)) : α → α → Ordering :=
  ts.foldr compareLex fun _ _ => .eq

private theorem compareBy_cons (t : α → α → Ordering) (ts : List (α → α → Ordering)) (a b : α) :
    compareBy (t :: ts) a b = (t a b).then (compareBy ts a b) :=
  rfl

theorem transCmp_compareBy (h : ∀ t ∈ ts, TransCmp t) : TransCmp (compareBy ts) := by
  induction ts with
  | nil => exact { eq_swap := rfl, isLE_trans := fun _ _ => rfl }
  | cons t ts ih =>
    have ht : TransCmp t := h t List.mem_cons_self
    have hts : TransCmp (compareBy ts) := ih fun s hs => h s (List.mem_cons_of_mem t hs)
    exact inferInstanceAs (TransCmp (compareLex t (compareBy ts)))

theorem compareBy_eq_eq {a b : α} : compareBy ts a b = .eq ↔ ∀ t ∈ ts, t a b = .eq := by
  induction ts with
  | nil => simp [compareBy]
  | cons t ts ih => simp [compareBy_cons,Ordering.then_eq_eq,ih]

/-- Some rung of the ladder: equal before it, and ahead of `x` on it. -/
def Beyond (ts : List (α → α → Ordering)) (c x : α) : Prop :=
  ∃ before t after, ts = before ++ t :: after ∧ (∀ s ∈ before, s c x = .eq) ∧ t c x = .lt

theorem beyond_cons {t : α → α → Ordering} :
    Beyond (t :: ts) c x ↔ t c x = .lt ∨ (t c x = .eq ∧ Beyond ts c x) := by
  constructor
  · intro h
    obtain ⟨before,r,after,heq,hbefore,hr⟩ := h
    cases before with
    | nil =>
      cases heq
      exact Or.inl hr
    | cons s before =>
      cases heq
      exact Or.inr ⟨hbefore t List.mem_cons_self,before,r,after,rfl,
        fun s hs => hbefore s (List.mem_cons_of_mem t hs),hr⟩
  · intro h
    rcases h with h | ⟨h,before,r,after,heq,hbefore,hr⟩
    · exact ⟨[],t,ts,rfl,by simp,h⟩
    · refine ⟨t :: before,r,after,by rw [heq,List.cons_append],?_,hr⟩
      intro s hs
      rcases List.mem_cons.mp hs with rfl | hs
      · exact h
      · exact hbefore s hs

/-- The ladder is the lexicographic order. -/
theorem beyond_iff : Beyond ts c x ↔ compareBy ts c x = .lt := by
  induction ts with
  | nil => simp [Beyond,compareBy]
  | cons t ts ih =>
    rw [beyond_cons,ih,compareBy_cons]
    cases t c x <;> simp [Ordering.then]

/-! ## Pages of a sorted list -/

def sorted (cmp : α → α → Ordering) (xs : List α) : List α :=
  xs.insertionSort fun a b => cmp a b ≠ .gt

/-- No two elements tie. -/
def Distinct (cmp : α → α → Ordering) (xs : List α) : Prop :=
  xs.Pairwise fun a b => cmp a b ≠ .eq

theorem perm_sorted (xs : List α) : (sorted cmp xs).Perm xs :=
  List.perm_insertionSort _ xs

section

variable [TransCmp cmp]

private theorem sorted_pairwise (xs : List α) :
    (sorted cmp xs).Pairwise fun a b => cmp a b ≠ .gt := by
  have htotal : Std.Total fun a b => cmp a b ≠ .gt := by
    refine ⟨fun a b => ?_⟩
    have hswap : cmp b a = (cmp a b).swap := OrientedCmp.eq_swap
    rw [hswap]
    cases cmp a b <;> simp
  have htrans : IsTrans α fun a b => cmp a b ≠ .gt := by
    refine ⟨fun a b c hab hbc => ?_⟩
    rw [ne_eq,← Ordering.isLE_iff_ne_gt] at hab hbc ⊢
    exact TransCmp.isLE_trans hab hbc
  exact List.pairwise_insertionSort _ xs

private theorem Distinct.perm {ys : List α} (h : Distinct cmp xs) (hperm : xs.Perm ys) :
    Distinct cmp ys :=
  (hperm.pairwise_iff fun hab hba => hab (OrientedCmp.eq_symm hba)).mp h

theorem Distinct.sorted (h : Distinct cmp xs) :
    (sorted cmp xs).Pairwise fun a b => cmp a b = .lt := by
  refine (sorted_pairwise xs).imp₂ (fun a b hgt heq => ?_) (h.perm (perm_sorted xs).symm)
  cases hab : cmp a b with
  | lt => rfl
  | eq => exact absurd hab heq
  | gt => exact absurd hab hgt

private theorem lt_asymm {a b : α} (h : cmp a b = .lt) : cmp b a ≠ .lt := by
  have hswap : cmp b a = (cmp a b).swap := OrientedCmp.eq_swap
  rw [hswap,h]
  decide

/-- A list that ascends strictly is the sorted list of its elements. -/
theorem sorted_eq {ys : List α} (hperm : xs.Perm ys)
    (hxs : xs.Pairwise fun a b => cmp a b = .lt) : sorted cmp ys = xs := by
  have hdistinct : Distinct cmp xs := by
    apply hxs.imp
    intro a b hab
    rw [hab]
    decide
  apply List.Perm.eq_of_pairwise _ (hdistinct.perm hperm).sorted hxs
    ((perm_sorted ys).trans hperm.symm)
  intro a b _ _ hab hba
  exact absurd hba (lt_asymm hab)

/-- In a strictly ascending list the elements behind one are those after it. -/
theorem filter_behind (h : xs.Pairwise fun a b => cmp a b = .lt) {n : Nat}
    (hc : xs[n]? = some c) : (xs.filter fun x => cmp c x = .lt) = xs.drop (n + 1) := by
  induction xs generalizing n with
  | nil => cases hc
  | cons y ys ih =>
    obtain ⟨hy,hys⟩ := List.pairwise_cons.mp h
    cases n with
    | zero =>
      obtain rfl : y = c := by simpa using hc
      have hall : (ys.filter fun x => cmp y x = .lt) = ys :=
        List.filter_eq_self.mpr fun x hx => decide_eq_true (hy x hx)
      have hself : cmp y y ≠ .lt := fun hlt => lt_asymm hlt hlt
      rw [List.filter_cons_of_neg (by simpa using hself),hall]
      rfl
    | succ n =>
      have hmem : c ∈ ys := List.mem_of_getElem? (by simpa using hc)
      have hnot : cmp c y ≠ .lt := lt_asymm (hy c hmem)
      rw [List.filter_cons_of_neg (by simpa using hnot),ih hys (by simpa using hc)]
      rfl

/-- Sorting what lies behind an element of the sorted list yields the rest of the list. -/
theorem sorted_behind (h : Distinct cmp xs) {n : Nat} (hc : (sorted cmp xs)[n]? = some c) :
    sorted cmp (xs.filter fun x => cmp c x = .lt) = (sorted cmp xs).drop (n + 1) := by
  rw [← filter_behind h.sorted hc]
  apply sorted_eq
  · exact (perm_sorted xs).filter _
  · exact h.sorted.sublist List.filter_sublist

end

end Dominion.Framework.Seek
