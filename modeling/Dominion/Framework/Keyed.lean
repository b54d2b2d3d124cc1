import Mathlib.Data.List.Nodup

/-! # Lists of records with distinct keys

An operation on the first record of a key is then an operation on every record of it, so that it
can be followed record by record. -/
namespace Dominion.Framework

universe u v

variable {α : Type u} {κ : Type v} [DecidableEq κ] {key : α → κ} {k : κ} {l : List α} {i : Nat}

/-- The place of a record of the key. -/
def placeOf (key : α → κ) (k : κ) (l : List α) : Option Nat :=
  l.findIdx? fun a => key a = k

theorem placeOf_eq_none : placeOf key k l = none ↔ ∀ a ∈ l, key a ≠ k := by
  simp [placeOf]

private theorem placeOf_cons {a : α} : placeOf key k (a :: l) =
    if key a = k then some 0 else (placeOf key k l).map (· + 1) := by
  simp [placeOf,List.findIdx?_cons]

/-- The place in a longer list is the first one, or it is in the rest. -/
theorem placeOf_cons_some {a : α} (h : placeOf key k (a :: l) = some i) :
    key a = k ∧ i = 0 ∨ key a ≠ k ∧ ∃ j, placeOf key k l = some j ∧ i = j + 1 := by
  rw [placeOf_cons] at h
  split at h
  · rename_i hk
    exact .inl ⟨hk,(Option.some.inj h).symm⟩
  · rename_i hk
    obtain ⟨j,hj,hi⟩ := Option.map_eq_some_iff.mp h
    exact .inr ⟨hk,j,hj,hi.symm⟩

theorem placeOf_some (h : placeOf key k l = some i) :
    ∃ a, l[i]? = some a ∧ l.find? (fun a => key a = k) = some a := by
  induction l generalizing i with
  | nil => cases h
  | cons a l ih =>
    rcases placeOf_cons_some h with ⟨hk,rfl⟩ | ⟨hk,j,hj,rfl⟩
    · exact ⟨a,rfl,by simp [hk]⟩
    · obtain ⟨b,hb,hfind⟩ := ih hj
      exact ⟨b,by simpa using hb,by simpa [hk] using hfind⟩

theorem modify_placeOf (hn : (l.map key).Nodup) (h : placeOf key k l = some i) (f : α → α) :
    l.modify i f = l.map fun a => if key a = k then f a else a := by
  induction l generalizing i with
  | nil => cases h
  | cons a l ih =>
    simp only [List.map_cons,List.nodup_cons] at hn
    rcases placeOf_cons_some h with ⟨hk,rfl⟩ | ⟨hk,j,hj,rfl⟩
    · have hrest : l.map (fun b => if key b = k then f b else b) = l := by
        refine (List.map_congr_left fun b hb => ?_).trans (List.map_id' l)
        have hb' : key b ≠ k := fun he => hn.1 (hk ▸ he ▸ List.mem_map_of_mem hb)
        simp [hb']
      simp [hk,hrest]
    · simp [hk,ih hn.2 hj]

theorem eraseIdx_placeOf (hn : (l.map key).Nodup) (h : placeOf key k l = some i) :
    l.eraseIdx i = l.filter fun a => key a ≠ k := by
  induction l generalizing i with
  | nil => cases h
  | cons a l ih =>
    simp only [List.map_cons,List.nodup_cons] at hn
    rcases placeOf_cons_some h with ⟨hk,rfl⟩ | ⟨hk,j,hj,rfl⟩
    · have hrest : l.filter (fun b => key b ≠ k) = l := by
        refine List.filter_eq_self.mpr fun b hb => ?_
        have hb' : key b ≠ k := fun he => hn.1 (hk ▸ he ▸ List.mem_map_of_mem hb)
        simp [hb']
      simp only [List.eraseIdx_cons_zero,List.filter_cons]
      simpa [hk] using hrest.symm
    · have hrest := ih hn.2 hj
      simp only [List.eraseIdx_cons_succ,List.filter_cons]
      simpa [hk] using hrest

theorem mem_modify {a : α} {f : α → α} (h : a ∈ l.modify i f) : ∃ b ∈ l, a = b ∨ a = f b := by
  obtain ⟨j,hj⟩ := List.mem_iff_getElem?.mp h
  rw [List.getElem?_modify] at hj
  obtain ⟨b,hb,ha⟩ := Option.map_eq_some_iff.mp hj
  refine ⟨b,List.mem_of_getElem? hb,?_⟩
  split at ha
  · exact .inr ha.symm
  · exact .inl ha.symm

theorem map_modify {β : Type v} {f : α → α} {g : β → β} {c : α → β} (l : List α) (i : Nat)
    (h : ∀ a, l[i]? = some a → c (f a) = g (c a)) : (l.modify i f).map c = (l.map c).modify i g := by
  induction l generalizing i with
  | nil => simp
  | cons a l ih =>
    cases i with
    | zero => simp [h a rfl]
    | succ i => simp [ih i fun b hb => h b (by simpa using hb)]

/-- A change at the first place of a kind keeps the records that are not of it. -/
theorem mem_set_findIdx? {p : α → Bool} {a b : α} (h : l.findIdx? p = some i) (ha : a ∈ l)
    (hp : p a = false) : a ∈ l.set i b := by
  induction l generalizing i with
  | nil => cases ha
  | cons c l ih =>
    rw [List.findIdx?_cons] at h
    split at h
    · rename_i hc
      have hi : i = 0 := (Option.some.inj h).symm
      subst hi
      rcases List.mem_cons.mp ha with rfl | hmem
      · exact absurd hp (by simp [hc])
      · exact List.mem_cons_of_mem _ hmem
    · obtain ⟨j,hj,rfl⟩ := Option.map_eq_some_iff.mp h
      rcases List.mem_cons.mp ha with rfl | hmem
      · exact List.mem_cons_self
      · exact List.mem_cons_of_mem _ (ih hj hmem)

end Dominion.Framework
