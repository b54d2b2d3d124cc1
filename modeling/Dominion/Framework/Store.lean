import Mathlib.Data.List.AList

/-! # Synchronizing a keyed store

A store is brought to a list of desired entries: each is merged with the live entry of its key,
and then the managed entries of all other keys are erased.  The result realizes the desired
entries, whatever the store held before, just when no two of them contend for a key and no live
entry resists its merge. -/
namespace Dominion.Framework

universe u v

/-- A finite map. -/
abbrev Store (κ : Type u) (α : Type v) := AList fun _ : κ => α

namespace Store

variable {κ : Type u} {α : Type v} [DecidableEq κ] {s s' : Store κ α} {k : κ} {d v : α}
  {ds : List (κ × α)}

/-- Each desired entry in turn, merged with the live entry of its key. -/
def putAll (merge : Option α → α → α) (s : Store κ α) (ds : List (κ × α)) : Store κ α :=
  ds.foldl (fun s d => s.insert d.1 (merge (s.lookup d.1) d.2)) s

theorem putAll_append (merge : Option α → α → α) (s : Store κ α) (ds ds' : List (κ × α)) :
    putAll merge s (ds ++ ds') = putAll merge (putAll merge s ds) ds' :=
  List.foldl_append

theorem lookup_putAll_of_notMem (merge : Option α → α → α) (h : k ∉ ds.map Prod.fst) :
    (putAll merge s ds).lookup k = s.lookup k := by
  induction ds generalizing s with
  | nil => rfl
  | cons e ds ih =>
    simp only [List.map_cons,List.mem_cons,not_or] at h
    exact (ih h.2).trans (AList.lookup_insert_ne h.1)

/-- No two entries contend for a key. -/
def Unambiguous (ds : List (κ × α)) : Prop :=
  ∀ k d d', (k,d) ∈ ds → (k,d') ∈ ds → d = d'

theorem lookup_putAll {merge : Option α → α → α}
    (hidem : ∀ live d, merge (some (merge live d)) d = merge live d) (h : Unambiguous ds)
    (hd : (k,d) ∈ ds) : (putAll merge s ds).lookup k = some (merge (s.lookup k) d) := by
  induction ds generalizing s with
  | nil => cases hd
  | cons e ds ih =>
    obtain ⟨k',d'⟩ := e
    have htail : Unambiguous ds := fun k d d' hd hd' =>
      h k d d' (List.mem_cons_of_mem _ hd) (List.mem_cons_of_mem _ hd')
    by_cases hk : k = k'
    · subst k'
      have hsame : d' = d := h k d' d List.mem_cons_self hd
      subst d'
      have hput : (s.insert k (merge (s.lookup k) d)).lookup k = some (merge (s.lookup k) d) :=
        AList.lookup_insert s
      by_cases hmem : k ∈ ds.map Prod.fst
      · -- The entry is written once more, over itself.
        obtain ⟨⟨k₁,d₁⟩,hd₁,rfl⟩ := List.mem_map.mp hmem
        have hsame : d₁ = d := h k₁ d₁ d (List.mem_cons_of_mem _ hd₁) hd
        subst d₁
        refine (ih htail hd₁).trans ?_
        rw [hput,hidem]
      · exact (lookup_putAll_of_notMem merge hmem).trans hput
    · have hd' : (k,d) ∈ ds := by
        rcases List.mem_cons.mp hd with he | hd'
        · exact absurd (congrArg Prod.fst he) hk
        · exact hd'
      refine (ih htail hd').trans ?_
      rw [AList.lookup_insert_ne hk]

/-- Entries under their keys, the last one of each. -/
def indexedBy (key : α → κ) (xs : List α) : Store κ α :=
  xs.foldl (fun s x => s.insert (key x) x) ∅

private theorem lookup_foldl_insert {key : α → κ} {xs : List α}
    (h : (xs.foldl (fun s x => s.insert (key x) x) s).lookup k = some v) :
    s.lookup k = some v ∨ v ∈ xs ∧ key v = k := by
  induction xs generalizing s with
  | nil => exact Or.inl h
  | cons x xs ih =>
    rcases ih h with hinsert | ⟨hv,hk⟩
    · by_cases hx : k = key x
      · rw [hx,AList.lookup_insert] at hinsert
        cases hinsert
        exact Or.inr ⟨List.mem_cons_self,hx.symm⟩
      · rw [AList.lookup_insert_ne hx] at hinsert
        exact Or.inl hinsert
    · exact Or.inr ⟨List.mem_cons_of_mem _ hv,hk⟩

private theorem isSome_foldl_insert {key : α → κ} {xs : List α}
    (h : (s.lookup k).isSome = true ∨ ∃ x ∈ xs, key x = k) :
    ((xs.foldl (fun s x => s.insert (key x) x) s).lookup k).isSome = true := by
  induction xs generalizing s with
  | nil => simpa using h
  | cons x xs ih =>
    apply ih
    by_cases hx : k = key x
    · rw [hx,AList.lookup_insert]
      exact Or.inl rfl
    · rw [AList.lookup_insert_ne hx]
      rcases h with hs | ⟨y,hy,hk⟩
      · exact Or.inl hs
      · rcases List.mem_cons.mp hy with rfl | hrest
        · exact absurd hk.symm hx
        · exact Or.inr ⟨y,hrest,hk⟩

theorem mem_of_lookup_indexedBy {key : α → κ} {xs : List α}
    (h : (indexedBy key xs).lookup k = some v) : v ∈ xs ∧ key v = k := by
  rcases lookup_foldl_insert h with hempty | hmem
  · rw [AList.lookup_empty] at hempty
    cases hempty
  · exact hmem

theorem lookup_indexedBy_isSome {key : α → κ} {xs : List α} :
    ((indexedBy key xs).lookup k).isSome = true ↔ ∃ x ∈ xs, key x = k := by
  constructor
  · intro h
    obtain ⟨v,hv⟩ := Option.isSome_iff_exists.mp h
    exact ⟨v,mem_of_lookup_indexedBy hv⟩
  · exact fun h => isSome_foldl_insert (Or.inr h)

/-- Each entry in turn whose key is free. -/
def addAll (s : Store κ α) (ds : List (κ × α)) : Store κ α :=
  ds.foldl (fun s d => if (s.lookup d.1).isSome then s else s.insert d.1 d.2) s

theorem addAll_append (s : Store κ α) (ds ds' : List (κ × α)) :
    addAll s (ds ++ ds') = addAll (addAll s ds) ds' :=
  List.foldl_append

private theorem lookup_addAll (h : (addAll s ds).lookup k = some v) :
    s.lookup k = some v ∨ (k,v) ∈ ds := by
  induction ds generalizing s with
  | nil => exact Or.inl h
  | cons e ds ih =>
    rcases ih h with hs | hd
    · dsimp only at hs
      split at hs
      · exact Or.inl hs
      · by_cases hk : k = e.1
        · subst k
          rw [AList.lookup_insert] at hs
          cases hs
          exact Or.inr List.mem_cons_self
        · rw [AList.lookup_insert_ne hk] at hs
          exact Or.inl hs
    · exact Or.inr (List.mem_cons_of_mem _ hd)

private theorem lookup_addAll_of_some (h : s.lookup k = some v) :
    (addAll s ds).lookup k = some v := by
  induction ds generalizing s with
  | nil => exact h
  | cons e ds ih =>
    apply ih
    dsimp only
    split
    · exact h
    · rename_i hfree
      have hk : k ≠ e.1 := by
        rintro rfl
        rw [h] at hfree
        exact hfree rfl
      rw [AList.lookup_insert_ne hk]
      exact h

/-- Erases those of the listed entries that `p` picks. -/
def eraseAll (p : κ → α → Bool) (s : Store κ α) (listed : List (Σ _ : κ, α)) : Store κ α :=
  listed.foldl (fun s e => if p e.1 e.2 then s.erase e.1 else s) s

private theorem lookup_eraseAll (p : κ → α → Bool) (listed : List (Σ _ : κ, α)) :
    (eraseAll p s listed).lookup k =
      if ∃ e ∈ listed, e.1 = k ∧ p e.1 e.2 then none else s.lookup k := by
  induction listed generalizing s with
  | nil => simp [eraseAll]
  | cons e listed ih =>
    show (eraseAll p (if p e.1 e.2 then s.erase e.1 else s) listed).lookup k = _
    rw [ih]
    simp only [List.mem_cons,exists_eq_or_imp]
    by_cases hpick : e.1 = k ∧ p e.1 e.2 = true
    · obtain ⟨rfl,hp⟩ := hpick
      simp only [hp,and_self,true_or,if_true,AList.lookup_erase,ite_self]
    · have hkept : (if p e.1 e.2 then s.erase e.1 else s).lookup k = s.lookup k := by
        split
        · rename_i hp
          exact AList.lookup_erase_ne fun he => hpick ⟨he.symm,hp⟩
        · rfl
      simp only [hpick,false_or,hkept]

/-- The entries listed are those of the store that `q` selects. -/
theorem lookup_eraseAll_entries (p : κ → α → Bool) (q : (Σ _ : κ, α) → Bool) :
    (eraseAll p s (s.entries.filter q)).lookup k =
      (s.lookup k).filter fun v => !(q ⟨k,v⟩ && p k v) := by
  rw [lookup_eraseAll]
  cases hk : s.lookup k with
  | none => simp
  | some v =>
    have hentry : ∀ w, (⟨k,w⟩ : Σ _ : κ, α) ∈ s.entries ↔ w = v := by
      intro w
      rw [← AList.mem_lookup_iff,hk]
      exact ⟨fun h => (Option.some.inj h).symm,fun h => h ▸ rfl⟩
    have hpick : (∃ e ∈ s.entries.filter q, e.1 = k ∧ p e.1 e.2) ↔ (q ⟨k,v⟩ && p k v) = true := by
      constructor
      · rintro ⟨⟨k',w⟩,he,rfl,hp⟩
        obtain ⟨hmem,hq⟩ := List.mem_filter.mp he
        have hw := (hentry w).mp hmem
        subst w
        simp [hq,hp]
      · intro hqp
        simp only [Bool.and_eq_true] at hqp
        exact ⟨⟨k,v⟩,List.mem_filter.mpr ⟨(hentry v).mpr rfl,hqp.1⟩,rfl,hqp.2⟩
    by_cases hqp : (q ⟨k,v⟩ && p k v) = true
    · rw [if_pos (hpick.mpr hqp)]
      simp [Option.filter,hqp]
    · rw [if_neg (fun h => hqp (hpick.mp h))]
      simp [Option.filter,hqp]

/-- The managed entries of `s` are the desired ones, each up to `rel`. -/
structure Realizes (managed : α → Bool) (rel : α → α → Prop) (ds : List (κ × α))
    (s : Store κ α) : Prop where
  present : ∀ k d, (k,d) ∈ ds → ∃ v, s.lookup k = some v ∧ rel v d
  only : ∀ k v, s.lookup k = some v → managed v = true → k ∈ ds.map Prod.fst

/-- The entries that are not managed are the same. -/
def Untouched (managed : α → Bool) (s s' : Store κ α) : Prop :=
  ∀ k v, managed v = false → (s'.lookup k = some v ↔ s.lookup k = some v)

theorem Untouched.refl (managed : α → Bool) (s : Store κ α) : Untouched managed s s :=
  fun _ _ _ => Iff.rfl

theorem Untouched.trans {managed : α → Bool} {s₁ s₂ s₃ : Store κ α}
    (h : Untouched managed s₁ s₂) (h' : Untouched managed s₂ s₃) : Untouched managed s₁ s₃ :=
  fun k v hv => (h' k v hv).trans (h k v hv)

theorem Untouched.symm {managed : α → Bool} (h : Untouched managed s s') :
    Untouched managed s' s :=
  fun k v hv => (h k v hv).symm

theorem untouched_addAll {managed : α → Bool} (h : ∀ k d, (k,d) ∈ ds → managed d = true) :
    Untouched managed s (addAll s ds) := by
  intro k v hv
  constructor
  · intro hlookup
    rcases lookup_addAll hlookup with hlive | hd
    · exact hlive
    · rw [h k v hd] at hv
      cases hv
  · exact lookup_addAll_of_some

/-- What a synchronization relies on: a merge is idempotent, it realizes the desired entry
unless the live one `resists`, and what realizes a desired entry is managed and tells it from
the other desired ones. -/
structure Merges (merge : Option α → α → α) (managed : α → Bool) (rel resists : α → α → Prop)
    (ds : List (κ × α)) : Prop where
  idem : ∀ live d, merge (some (merge live d)) d = merge live d
  rel_iff : ∀ k d, (k,d) ∈ ds → ∀ live,
    rel (merge live d) d ↔ ∀ v, live = some v → ¬resists v d
  managed_of_rel : ∀ k d, (k,d) ∈ ds → ∀ v, rel v d → managed v = true
  rel_det : ∀ k d d', (k,d) ∈ ds → (k,d') ∈ ds → ∀ v, rel v d → rel v d' → d = d'

/-- Every live entry that a desired one meets is managed and does not resist it. -/
def Receptive (managed : α → Bool) (resists : α → α → Prop) (ds : List (κ × α))
    (s : Store κ α) : Prop :=
  ∀ k d, (k,d) ∈ ds → ∀ v, s.lookup k = some v → managed v = true ∧ ¬resists v d

omit [DecidableEq κ] in
private theorem unambiguous_iff :
    Unambiguous ds ↔ ∀ d ∈ ds, ∀ d' ∈ ds, d.1 = d'.1 → d.2 = d'.2 := by
  constructor
  · rintro h ⟨k,d⟩ hd ⟨k',d'⟩ hd' hk
    cases hk
    exact h k d d' hd hd'
  · intro h k d d' hd hd'
    exact h (k,d) hd (k,d') hd' rfl

instance [DecidableEq α] (ds : List (κ × α)) : Decidable (Unambiguous ds) :=
  decidable_of_iff' _ unambiguous_iff

private theorem receptive_iff {managed : α → Bool} {resists : α → α → Prop} :
    Receptive managed resists ds s ↔
      ∀ d ∈ ds, ∀ v ∈ s.lookup d.1, managed v = true ∧ ¬resists v d.2 :=
  ⟨fun h d hd => h d.1 d.2 hd,fun h k d hd => h (k,d) hd⟩

instance (managed : α → Bool) (resists : α → α → Prop) [DecidableRel resists]
    (ds : List (κ × α)) (s : Store κ α) : Decidable (Receptive managed resists ds s) :=
  decidable_of_iff' _ receptive_iff

/-- `s'` is `s` after the writes and the erasures. -/
def SyncedBy (merge : Option α → α → α) (managed : α → Bool) (ds : List (κ × α))
    (s s' : Store κ α) : Prop :=
  ∀ k, s'.lookup k =
    ((putAll merge s ds).lookup k).filter fun v => !managed v || decide (k ∈ ds.map Prod.fst)

section Sync

variable {merge : Option α → α → α} {managed : α → Bool} {rel resists : α → α → Prop}

theorem SyncedBy.lookup_of_mem (hsync : SyncedBy merge managed ds s s')
    (hm : Merges merge managed rel resists ds) (hu : Unambiguous ds) (hd : (k,d) ∈ ds) :
    s'.lookup k = some (merge (s.lookup k) d) := by
  have hkey : k ∈ ds.map Prod.fst := List.mem_map.mpr ⟨_,hd,rfl⟩
  rw [hsync k,lookup_putAll hm.idem hu hd]
  simp [Option.filter,hkey]

private theorem SyncedBy.lookup_of_notMem (hsync : SyncedBy merge managed ds s s')
    (hk : k ∉ ds.map Prod.fst) : s'.lookup k = (s.lookup k).filter fun v => !managed v := by
  rw [hsync k,lookup_putAll_of_notMem merge hk]
  simp [hk]

/-- A synchronized store that realizes the desired entries and leaves the others alone met
neither contention nor resistance. -/
theorem SyncedBy.receptive (hsync : SyncedBy merge managed ds s s')
    (hm : Merges merge managed rel resists ds) (hr : Realizes managed rel ds s')
    (hun : Untouched managed s s') : Unambiguous ds ∧ Receptive managed resists ds s := by
  have hu : Unambiguous ds := by
    intro k d d' hd hd'
    obtain ⟨v,hv,hrel⟩ := hr.present k d hd
    obtain ⟨v',hv',hrel'⟩ := hr.present k d' hd'
    rw [hv] at hv'
    cases hv'
    exact hm.rel_det k d d' hd hd' v hrel hrel'
  refine ⟨hu,fun k d hd live hlive => ?_⟩
  obtain ⟨v,hv,hrel⟩ := hr.present k d hd
  have hmerge := hsync.lookup_of_mem hm hu hd
  rw [hv,hlive] at hmerge
  cases hmerge
  refine ⟨?_,(hm.rel_iff k d hd (some live)).mp hrel live rfl⟩
  by_contra hunmanaged
  -- A live entry of another owner has been overwritten.
  have hkept := (hun k live (by simpa using hunmanaged)).mpr hlive
  rw [hv] at hkept
  rw [← Option.some.inj hkept] at hunmanaged
  exact hunmanaged (hm.managed_of_rel k d hd _ hrel)

private theorem SyncedBy.realizes (hsync : SyncedBy merge managed ds s s')
    (hm : Merges merge managed rel resists ds) (hu : Unambiguous ds)
    (hr : Receptive managed resists ds s) : Realizes managed rel ds s' where
  present k d hd := by
    refine ⟨_,hsync.lookup_of_mem hm hu hd,(hm.rel_iff k d hd _).mpr fun v hv => ?_⟩
    exact (hr k d hd v hv).2
  only k v hv hmanaged := by
    by_contra hk
    rw [hsync.lookup_of_notMem hk,Option.filter_eq_some_iff] at hv
    rw [hmanaged] at hv
    cases hv.2

private theorem SyncedBy.untouched (hsync : SyncedBy merge managed ds s s')
    (hm : Merges merge managed rel resists ds) (hu : Unambiguous ds)
    (hr : Receptive managed resists ds s) : Untouched managed s s' := by
  intro k v hv
  by_cases hk : k ∈ ds.map Prod.fst
  · -- Both sides are false: the entry of a desired key is managed, before and after.
    obtain ⟨⟨k',d⟩,hd,rfl⟩ := List.mem_map.mp hk
    have hrealized := (hsync.realizes hm hu hr).present k' d hd
    constructor
    · intro hlookup
      obtain ⟨w,hw,hrel⟩ := hrealized
      rw [hlookup] at hw
      cases hw
      rw [hm.managed_of_rel k' d hd v hrel] at hv
      cases hv
    · intro hlookup
      rw [(hr k' d hd v hlookup).1] at hv
      cases hv
  · rw [hsync.lookup_of_notMem hk,Option.filter_eq_some_iff]
    simp [hv]

theorem SyncedBy.iff (hsync : SyncedBy merge managed ds s s')
    (hm : Merges merge managed rel resists ds) :
    Realizes managed rel ds s' ∧ Untouched managed s s' ↔
      Unambiguous ds ∧ Receptive managed resists ds s :=
  ⟨fun h => hsync.receptive hm h.1 h.2,
    fun h => ⟨hsync.realizes hm h.1 h.2,hsync.untouched hm h.1 h.2⟩⟩

omit [DecidableEq κ] in
/-- A merge that writes the desired entry as it is. -/
theorem Merges.overwrite {managed : α → Bool}
    (hmanaged : ∀ k d, (k,d) ∈ ds → managed d = true) :
    Merges (fun _ d => d) managed Eq (fun _ _ => False) ds where
  idem _ _ := rfl
  rel_iff _ _ _ _ := by simp
  managed_of_rel k d hd v hv := hv ▸ hmanaged k d hd
  rel_det _ _ _ _ _ _ hv hv' := hv.symm.trans hv'

end Sync

end Store

end Dominion.Framework
