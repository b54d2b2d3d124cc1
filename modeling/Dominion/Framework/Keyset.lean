import Mathlib.Data.List.Sort
import Mathlib.Data.List.Nodup

/-! # Keyset pagination

A list read page by page in descending order of a key; the cursor of a page is the key of its last
entry. -/
namespace Dominion.Framework.Keyset

universe u v

variable {α : Type u} {κ : Type v} [LinearOrder κ] (key : α → κ)

/-- In descending order of the key. -/
def descending (xs : List α) : List α :=
  xs.insertionSort fun a b => key b ≤ key a

/-- The entries behind a cursor. -/
def behind (xs : List α) : Option κ → List α
  | none => descending key xs
  | some c => descending key (xs.filter fun x => key x < c)

variable {key}

theorem perm_descending (xs : List α) : (descending key xs).Perm xs :=
  List.perm_insertionSort _ xs

theorem descending_pairwise (xs : List α) :
    (descending key xs).Pairwise fun a b => key b ≤ key a := by
  have htotal : Std.Total fun a b => key b ≤ key a := ⟨fun a b => le_total (key b) (key a)⟩
  have htrans : IsTrans α fun a b => key b ≤ key a := ⟨fun _ _ _ hab hbc => hbc.trans hab⟩
  exact List.pairwise_insertionSort _ xs

/-- Different keys descend strictly. -/
theorem descending_strict {xs : List α} (h : (xs.map key).Nodup) :
    (descending key xs).Pairwise fun a b => key b < key a := by
  have hkeys : ((descending key xs).map key).Nodup :=
    ((perm_descending xs).map key).nodup_iff.mpr h
  have hne : (descending key xs).Pairwise fun a b => key a ≠ key b := List.pairwise_map.mp hkeys
  exact (descending_pairwise xs).imp₂ (fun _ _ hle hne => lt_of_le_of_ne hle (Ne.symm hne)) hne

/-- A list of different keys has one descending order. -/
theorem descending_eq {xs ys : List α} (hperm : xs.Perm ys)
    (hxs : xs.Pairwise fun a b => key b < key a) : descending key ys = xs := by
  have hys : (ys.map key).Nodup := by
    refine ((hperm.map key).nodup_iff).mp (List.pairwise_map.mpr ?_)
    exact hxs.imp fun hlt => (ne_of_lt hlt).symm
  refine List.Perm.eq_of_pairwise (fun a b _ _ hab hba => ?_) (descending_strict hys) hxs
    ((perm_descending ys).trans hperm.symm)
  exact absurd hab (lt_asymm hba)

private theorem behind_strict {xs : List α} (h : (xs.map key).Nodup) (cursor : Option κ) :
    (behind key xs cursor).Pairwise fun a b => key b < key a := by
  cases cursor with
  | none => exact descending_strict h
  | some c => exact descending_strict (h.sublist (List.filter_sublist.map key))

/-- In strictly descending order the entries below the last one of a page are the rest. -/
theorem filter_below_page {xs : List α} (h : xs.Pairwise fun a b => key b < key a) {n : Nat}
    {last : α} (hlast : xs[n]? = some last) :
    (xs.filter fun x => key x < key last) = xs.drop (n + 1) := by
  induction xs generalizing n with
  | nil => cases hlast
  | cons x xs ih =>
    obtain ⟨hx,hxs⟩ := List.pairwise_cons.mp h
    cases n with
    | zero =>
      obtain rfl : x = last := by simpa using hlast
      have hall : (xs.filter fun y => key y < key x) = xs :=
        List.filter_eq_self.mpr fun y hy => decide_eq_true (hx y hy)
      simp [hall]
    | succ n =>
      have hmem : last ∈ xs := List.mem_of_getElem? (by simpa using hlast)
      have hnot : ¬key x < key last := not_lt_of_gt (hx last hmem)
      rw [List.filter_cons_of_neg (by simpa using hnot),ih hxs (by simpa using hlast)]
      rfl

/-- The entries behind the last one of a page are the rest of what the page was taken from. -/
theorem behind_page {xs : List α} (h : (xs.map key).Nodup) (cursor : Option κ) {n : Nat} {last : α}
    (hlast : (behind key xs cursor)[n]? = some last) :
    behind key xs (some (key last)) = (behind key xs cursor).drop (n + 1) := by
  have hstrict := behind_strict h cursor
  rw [← filter_below_page hstrict hlast]
  refine descending_eq ?_ (hstrict.sublist List.filter_sublist)
  cases cursor with
  | none => exact (perm_descending xs).filter _
  | some c =>
    have hbelow : key last < c := by
      have hmem : last ∈ xs.filter fun x => key x < c :=
        (perm_descending _).mem_iff.mp (List.mem_of_getElem? hlast)
      exact of_decide_eq_true (List.mem_filter.mp hmem).2
    have hfound : (descending key (xs.filter fun x => key x < c)).Perm
      (xs.filter fun x => key x < c) := perm_descending _
    have hperm := hfound.filter fun x => decide (key x < key last)
    have hboth : ((xs.filter fun x => key x < c).filter fun x => key x < key last) =
        xs.filter fun x => key x < key last := by
      rw [List.filter_filter]
      refine List.filter_congr fun x _ => ?_
      by_cases hx : key x < key last
      · simp [hx,hx.trans hbelow]
      · simp [hx]
    exact hboth ▸ hperm

end Dominion.Framework.Keyset
