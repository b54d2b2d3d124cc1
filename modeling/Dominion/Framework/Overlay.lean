import Mathlib.Data.List.Infix
import Mathlib.Data.List.Nodup

/-! # Right-biased unions of documents

A document is laid over another one: it replaces what the other has at the same path, but for
mappings of both, which are merged key by key.  Rules say which mappings can be merged and which
keys are passed over where they are. -/
namespace Dominion.Framework

/-! ## Entries -/

section entries

variable {κ α : Type} [DecidableEq κ] {k k' : κ} {v : α} {fs : List (κ × α)}

/-- The entry of the key is replaced, or a new one is added. -/
def put (k : κ) (v : α) : List (κ × α) → List (κ × α)
  | [] => [(k,v)]
  | (k',v') :: rest => if k' = k then (k,v) :: rest else (k',v') :: put k v rest

theorem lookup_cons_self : ((k,v) :: fs).lookup k = some v := by
  simp

theorem lookup_cons_ne (h : k ≠ k') : ((k',v) :: fs).lookup k = fs.lookup k := by
  have hk : (k == k') = false := by simpa using h
  rw [List.lookup_cons,hk]

@[simp] theorem lookup_put_self : (put k v fs).lookup k = some v := by
  induction fs with
  | nil => exact lookup_cons_self
  | cons e fs ih =>
    obtain ⟨k₁,v₁⟩ := e
    rw [put]
    split
    · exact lookup_cons_self
    · rename_i hk
      rw [lookup_cons_ne (Ne.symm hk),ih]

theorem lookup_put_ne (h : k' ≠ k) : (put k v fs).lookup k' = fs.lookup k' := by
  induction fs with
  | nil => exact lookup_cons_ne h
  | cons e fs ih =>
    obtain ⟨k₁,v₁⟩ := e
    rw [put]
    split
    · rename_i hk
      rw [lookup_cons_ne h,hk,lookup_cons_ne h]
    · by_cases hk : k' = k₁
      · rw [hk,lookup_cons_self,lookup_cons_self]
      · rw [lookup_cons_ne hk,lookup_cons_ne hk,ih]

/-- An entry that is written again stays as it is. -/
theorem put_lookup (h : fs.lookup k = some v) : put k v fs = fs := by
  induction fs with
  | nil => cases h
  | cons e fs ih =>
    obtain ⟨k₁,v₁⟩ := e
    rw [put]
    split
    · rename_i hk
      rw [hk,lookup_cons_self] at h
      rw [hk,Option.some.inj h]
    · rename_i hk
      rw [lookup_cons_ne (Ne.symm hk)] at h
      rw [ih h]

theorem lookup_eq_none : fs.lookup k = none ↔ k ∉ fs.map Prod.fst := by
  induction fs with
  | nil => simp
  | cons e fs ih =>
    obtain ⟨k₁,v₁⟩ := e
    by_cases hk : k = k₁
    · simp [hk]
    · rw [lookup_cons_ne hk,ih]
      simp [hk]

theorem mem_of_lookup (h : fs.lookup k = some v) : (k,v) ∈ fs := by
  induction fs with
  | nil => cases h
  | cons e fs ih =>
    obtain ⟨k₁,v₁⟩ := e
    by_cases hk : k = k₁
    · rw [hk,lookup_cons_self] at h
      rw [hk,Option.some.inj h]
      exact List.mem_cons_self
    · rw [lookup_cons_ne hk] at h
      exact List.mem_cons_of_mem _ (ih h)

theorem lookup_of_mem (hn : (fs.map Prod.fst).Nodup) (h : (k,v) ∈ fs) : fs.lookup k = some v := by
  induction fs with
  | nil => cases h
  | cons e fs ih =>
    obtain ⟨k₁,v₁⟩ := e
    rw [List.map_cons,List.nodup_cons] at hn
    rcases List.mem_cons.mp h with he | hmem
    · cases he
      exact lookup_cons_self
    · have hne : k ≠ k₁ := fun hk => hn.1 (List.mem_map.mpr ⟨_,hmem,hk⟩)
      rw [lookup_cons_ne hne,ih hn.2 hmem]

theorem mem_keys_put : k' ∈ (put k v fs).map Prod.fst ↔ k' = k ∨ k' ∈ fs.map Prod.fst := by
  by_cases hk : k' = k
  · have hsome : (put k v fs).lookup k = some v := lookup_put_self
    have hmem := List.mem_map_of_mem (f := Prod.fst) (mem_of_lookup hsome)
    rw [hk]
    exact ⟨fun _ => .inl rfl,fun _ => hmem⟩
  · have hnone : (put k v fs).lookup k' = fs.lookup k' := lookup_put_ne hk
    rw [← not_iff_not,← lookup_eq_none,hnone,lookup_eq_none]
    simp [hk]

theorem nodup_put (h : (fs.map Prod.fst).Nodup) : ((put k v fs).map Prod.fst).Nodup := by
  induction fs with
  | nil => simp [put]
  | cons e fs ih =>
    obtain ⟨k₁,v₁⟩ := e
    rw [List.map_cons,List.nodup_cons] at h
    rw [put]
    split
    · rename_i hk
      rw [List.map_cons,List.nodup_cons,← hk]
      exact h
    · rename_i hk
      rw [List.map_cons,List.nodup_cons]
      refine ⟨fun hmem => ?_,ih h.2⟩
      rcases mem_keys_put.mp hmem with he | hmem
      · exact hk he
      · exact h.1 hmem

/-- What was written last counts. -/
theorem put_put {w : α} : put k w (put k v fs) = put k w fs := by
  induction fs with
  | nil => simp [put]
  | cons e fs ih =>
    obtain ⟨k₁,v₁⟩ := e
    by_cases hk : k₁ = k
    · simp [put,hk]
    · simp [put,hk,ih]

end entries

/-! ## Documents -/

/-- A scalar, a list or a mapping. -/
inductive Doc (κ σ : Type) where
  | scalar (s : σ)
  | list (xs : List (Doc κ σ))
  | map (fs : List (κ × Doc κ σ))

namespace Doc

/-- What is at a path by itself: a mapping without its entries, or a whole value. -/
inductive Kind (κ σ : Type) where
  | mapping
  | whole (t : Doc κ σ)

section paths

variable {κ σ : Type} [DecidableEq κ] {c d r : Doc κ σ} {p : List κ} {k : κ}
  {fs : List (κ × Doc κ σ)}

def kind : Doc κ σ → Kind κ σ
  | .map _ => .mapping
  | t => .whole t

def IsLeaf (t : Doc κ σ) : Prop :=
  ∀ fs, t ≠ .map fs

def atPath : Doc κ σ → List κ → Option (Doc κ σ)
  | t,[] => some t
  | .map fs,k :: p => (fs.lookup k).bind fun t => t.atPath p
  | _,_ :: _ => none

@[simp] theorem atPath_nil : c.atPath [] = some c := by
  rw [atPath]

@[simp] theorem atPath_map : (map fs).atPath (k :: p) =
    (fs.lookup k).bind fun t => t.atPath p := by
  rw [atPath]

private theorem IsLeaf.atPath (h : c.IsLeaf) : c.atPath (k :: p) = none := by
  cases c with
  | scalar s => rw [Doc.atPath]; simp
  | list xs => rw [Doc.atPath]; simp
  | map fs => exact absurd rfl (h fs)

/-- A value on the way is not a mapping. -/
def Covered (c : Doc κ σ) (p : List κ) : Prop :=
  ∃ q t, q <+: p ∧ c.atPath q = some t ∧ t.IsLeaf

/-- The document decides nothing at the path. -/
def Spared (c : Doc κ σ) (p : List κ) : Prop :=
  c.atPath p = none ∧ ¬Covered c p

/-- The first document, and the second one where the first decides nothing. -/
structure RightUnion (c d r : Doc κ σ) : Prop where
  present : ∀ p t, c.atPath p = some t → (r.atPath p).map kind = some t.kind
  covered : ∀ p, c.atPath p = none → Covered c p → r.atPath p = none
  kept : ∀ p, Spared c p → r.atPath p = d.atPath p

/-- At every path the documents have the same, but for the order of entries. -/
def Same (c d : Doc κ σ) : Prop :=
  ∀ p, (c.atPath p).map kind = (d.atPath p).map kind

/-- At the path the second document has what the first one decides there. -/
def Repeats (c d : Doc κ σ) (p : List κ) : Prop :=
  (∀ t, c.atPath p = some t → (d.atPath p).map kind = some t.kind) ∧
    (c.atPath p = none → d.atPath p = none)

/-- There is only one right-biased union. -/
theorem RightUnion.same {r' : Doc κ σ} (h : RightUnion c d r) (h' : RightUnion c d r') :
    r.Same r' := by
  intro p
  cases hc : c.atPath p with
  | some t => rw [h.present p t hc,h'.present p t hc]
  | none =>
    by_cases hcovered : Covered c p
    · rw [h.covered p hc hcovered,h'.covered p hc hcovered]
    · rw [h.kept p ⟨hc,hcovered⟩,h'.kept p ⟨hc,hcovered⟩]

private theorem atPath_append (c : Doc κ σ) (q p : List κ) :
    c.atPath (q ++ p) = (c.atPath q).bind fun t => t.atPath p := by
  induction q generalizing c with
  | nil => rw [List.nil_append,atPath_nil,Option.bind_some]
  | cons k q ih =>
    cases c with
    | scalar s => simp [atPath]
    | list xs => simp [atPath]
    | map fs =>
      rw [List.cons_append,atPath_map,atPath_map,Option.bind_assoc]
      congr
      funext t
      exact ih t

/-- Below a whole value there is nothing. -/
theorem atPath_below_leaf {q : List κ} {t : Doc κ σ} (hq : q <+: p) (ht : c.atPath q = some t)
    (hleaf : t.IsLeaf) (hne : c.atPath p ≠ none) : p = q := by
  obtain ⟨rest,rfl⟩ := hq
  cases rest with
  | nil => rw [List.append_nil]
  | cons k rest =>
    rw [atPath_append,ht,Option.bind_some,hleaf.atPath] at hne
    exact absurd rfl hne

omit [DecidableEq κ] in
private theorem kind_eq_leaf {t u : Doc κ σ} (h : u.kind = t.kind) (hleaf : t.IsLeaf) : u = t := by
  cases t with
  | map fs => exact absurd rfl (hleaf fs)
  | scalar s =>
    cases u with
    | map fs => cases h
    | scalar s' => exact Kind.whole.inj h
    | list xs => exact Kind.whole.inj h
  | list xs =>
    cases u with
    | map fs => cases h
    | scalar s' => exact Kind.whole.inj h
    | list xs' => exact Kind.whole.inj h

private theorem IsLeaf.covered (h : c.IsLeaf) : Covered c p :=
  ⟨[],c,List.nil_prefix,atPath_nil,h⟩

private theorem covered_map :
    Covered (map fs) (k :: p) ↔ ∃ t, fs.lookup k = some t ∧ Covered t p := by
  constructor
  · rintro ⟨q,t,hq,ht,hleaf⟩
    cases q with
    | nil =>
      rw [atPath_nil] at ht
      exact absurd (Option.some.inj ht).symm (hleaf fs)
    | cons k' q =>
      obtain ⟨rfl,hrest⟩ := List.cons_prefix_cons.mp hq
      rw [atPath_map] at ht
      obtain ⟨u,hu,ht⟩ := Option.bind_eq_some_iff.mp ht
      exact ⟨u,hu,q,t,hrest,ht,hleaf⟩
  · rintro ⟨u,hu,q,t,hq,ht,hleaf⟩
    refine ⟨k :: q,t,List.cons_prefix_cons.mpr ⟨rfl,hq⟩,?_,hleaf⟩
    rw [atPath_map,hu]
    exact ht

theorem spared_map : Spared (map fs) (k :: p) ↔ ∀ t, fs.lookup k = some t → Spared t p := by
  unfold Spared
  rw [covered_map,atPath_map]
  cases fs.lookup k with
  | none => simp
  | some t => simp

end paths

/-- No mapping has two entries of one key. -/
inductive Distinct {κ σ : Type} : Doc κ σ → Prop
  | scalar (s : σ) : Distinct (.scalar s)
  | list {xs : List (Doc κ σ)} (h : ∀ x ∈ xs, Distinct x) : Distinct (.list xs)
  | map {fs : List (κ × Doc κ σ)} (hn : (fs.map Prod.fst).Nodup)
      (h : ∀ e ∈ fs, Distinct e.2) : Distinct (.map fs)

end Doc

/-! ## Laying over -/

/-- Which mappings can be merged, by their keys, and which keys are passed over. -/
structure Rules (κ : Type) where
  merges : List κ → Bool
  skips : κ → Bool

section overlay

variable {κ σ : Type} [DecidableEq κ] (R : Rules κ)

mutual

/-- The entries are laid over the entries of a mapping, one after the other. -/
def overlayFields (dst : List (κ × Doc κ σ)) : List (κ × Doc κ σ) → List (κ × Doc κ σ)
  | [] => dst
  | (key,srcVal) :: rest =>
    if R.skips key then overlayFields dst rest
    else overlayFields (put key (overlay (dst.lookup key) srcVal) dst) rest

def overlay (dstVal : Option (Doc κ σ)) : Doc κ σ → Doc κ σ
  | .scalar s => .scalar s
  | .list xs => .list xs
  | .map fs =>
    match dstVal with
    | some (.map ds) =>
      if R.merges (fs.map Prod.fst) && R.merges (ds.map Prod.fst) then .map (overlayFields ds fs)
      else .map fs
    | _ => .map fs

end

mutual

/-- The entries without those that are passed over where they are merged. -/
def pruneFields (dst : List (κ × Doc κ σ)) : List (κ × Doc κ σ) → List (κ × Doc κ σ)
  | [] => []
  | (key,srcVal) :: rest =>
    if R.skips key then pruneFields dst rest
    else (key,prune (dst.lookup key) srcVal) :: pruneFields dst rest

def prune (dstVal : Option (Doc κ σ)) : Doc κ σ → Doc κ σ
  | .scalar s => .scalar s
  | .list xs => .list xs
  | .map fs =>
    match dstVal with
    | some (.map ds) =>
      if R.merges (fs.map Prod.fst) && R.merges (ds.map Prod.fst) then .map (pruneFields ds fs)
      else .map fs
    | _ => .map fs

end

variable {R} {src dst fs : List (κ × Doc κ σ)} {k : κ} {c d t v : Doc κ σ}
  {dstVal : Option (Doc κ σ)} {p : List κ}

private theorem lookup_overlayFields_of_skips (h : R.skips k = true) :
    (overlayFields R dst src).lookup k = dst.lookup k := by
  induction src generalizing dst with
  | nil => rw [overlayFields]
  | cons e src ih =>
    obtain ⟨key,v⟩ := e
    rw [overlayFields]
    split
    · exact ih
    · rename_i hkey
      have hne : k ≠ key := fun he => hkey (he ▸ h)
      rw [ih,lookup_put_ne hne]

private theorem lookup_overlayFields_of_notMem (h : k ∉ src.map Prod.fst) :
    (overlayFields R dst src).lookup k = dst.lookup k := by
  induction src generalizing dst with
  | nil => rw [overlayFields]
  | cons e src ih =>
    obtain ⟨key,v⟩ := e
    simp only [List.map_cons,List.mem_cons,not_or] at h
    rw [overlayFields]
    split
    · exact ih h.2
    · rw [ih h.2,lookup_put_ne h.1]

/-- What an entry leaves, whatever the order of the entries. -/
theorem lookup_overlayFields (hn : (src.map Prod.fst).Nodup) (hs : R.skips k = false)
    (h : src.lookup k = some v) :
    (overlayFields R dst src).lookup k = some (overlay R (dst.lookup k) v) := by
  induction src generalizing dst with
  | nil => cases h
  | cons e src ih =>
    obtain ⟨key,v₁⟩ := e
    simp only [List.map_cons,List.nodup_cons] at hn
    rw [overlayFields]
    by_cases hk : k = key
    · rw [hk,lookup_cons_self] at h
      rw [← hk,if_neg (by simp [hs]),lookup_overlayFields_of_notMem (hk ▸ hn.1),lookup_put_self,
        Option.some.inj h]
    · rw [lookup_cons_ne hk] at h
      split
      · exact ih hn.2 h
      · rw [ih hn.2 h,lookup_put_ne hk]

private theorem lookup_pruneFields : (pruneFields R dst src).lookup k =
    if R.skips k then none else (src.lookup k).map (prune R (dst.lookup k)) := by
  induction src with
  | nil => simp [pruneFields]
  | cons e src ih =>
    obtain ⟨key,v⟩ := e
    rw [pruneFields]
    by_cases hk : k = key
    · rw [hk,lookup_cons_self]
      rw [hk] at ih
      split
      · rename_i hs
        rw [ih,if_pos hs]
      · rw [lookup_cons_self]
        rfl
    · rw [lookup_cons_ne hk]
      split
      · exact ih
      · rw [lookup_cons_ne hk,ih]

/-- Both mappings can be merged. -/
def Merged (R : Rules κ) (dstVal : Option (Doc κ σ)) (fs ds : List (κ × Doc κ σ)) : Prop :=
  dstVal = some (.map ds) ∧ (R.merges (fs.map Prod.fst) && R.merges (ds.map Prod.fst)) = true

theorem overlay_merged {ds : List (κ × Doc κ σ)} (h : Merged R dstVal fs ds) :
    overlay R dstVal (.map fs) = .map (overlayFields R ds fs) ∧
      prune R dstVal (.map fs) = .map (pruneFields R ds fs) := by
  obtain ⟨rfl,hm⟩ := h
  simp [overlay,prune,hm]

/-- A mapping that is not merged replaces what was there. -/
theorem overlay_replaced (h : ∀ ds, ¬Merged R dstVal fs ds) :
    overlay R dstVal (.map fs) = .map fs ∧ prune R dstVal (.map fs) = .map fs := by
  cases dstVal with
  | none => simp [overlay,prune]
  | some t =>
    cases t with
    | scalar s => simp [overlay,prune]
    | list xs => simp [overlay,prune]
    | map ds =>
      have hmerges : ¬(R.merges (fs.map Prod.fst) && R.merges (ds.map Prod.fst)) = true :=
        fun hm => h ds ⟨rfl,hm⟩
      simp [overlay,prune,hmerges]

private theorem overlay_leaf (h : v.IsLeaf) : overlay R dstVal v = v ∧ prune R dstVal v = v := by
  cases v with
  | scalar s => rw [overlay,prune]; exact ⟨rfl,rfl⟩
  | list xs => rw [overlay,prune]; exact ⟨rfl,rfl⟩
  | map fs => exact absurd rfl (h fs)

private theorem Doc.Distinct.lookup (h : (Doc.map fs).Distinct)
    (hv : fs.lookup k = some v) : v.Distinct := by
  cases h with
  | map hn hall => exact hall _ (mem_of_lookup hv)

omit [DecidableEq κ] in
private theorem Doc.Distinct.nodup (h : (Doc.map fs).Distinct) : (fs.map Prod.fst).Nodup := by
  cases h with
  | map hn hall => exact hn

/-- The mappings that both documents have on the way can be merged. -/
def Mergeable (R : Rules κ) (dstVal : Option (Doc κ σ)) (v : Doc κ σ) (p : List κ) : Prop :=
  ∀ q, q <+: p → q ≠ p → (∀ k ∈ q, R.skips k = false) → ∀ fs ds, v.atPath q = some (.map fs) →
    (dstVal.bind fun t => t.atPath q) = some (.map ds) →
      (R.merges (fs.map Prod.fst) && R.merges (ds.map Prod.fst)) = true

private theorem mergeable_map {ds : List (κ × Doc κ σ)} :
    Mergeable R (some (.map ds)) (.map fs) (k :: p) ↔
      (R.merges (fs.map Prod.fst) && R.merges (ds.map Prod.fst)) = true ∧
        (R.skips k = false → ∀ v, fs.lookup k = some v → Mergeable R (ds.lookup k) v p) := by
  constructor
  · intro h
    constructor
    · exact h [] List.nil_prefix (by simp) (by simp) fs ds Doc.atPath_nil (by simp)
    · intro hs v hv q hq hne hskips gs es hgs hes
      apply h (k :: q) (List.cons_prefix_cons.mpr ⟨rfl,hq⟩) (by simpa using hne)
      · intro k' hk'
        rcases List.mem_cons.mp hk' with rfl | hk'
        · exact hs
        · exact hskips k' hk'
      · rw [Doc.atPath_map,hv]
        exact hgs
      · simpa using hes
  · intro h q hq hne hskips gs es hgs hes
    cases q with
    | nil =>
      rw [Doc.atPath_nil] at hgs
      rw [Option.bind_some,Doc.atPath_nil] at hes
      cases hgs
      cases hes
      exact h.1
    | cons k' q =>
      obtain ⟨rfl,hrest⟩ := List.cons_prefix_cons.mp hq
      rw [Doc.atPath_map] at hgs
      obtain ⟨v,hv,hgs⟩ := Option.bind_eq_some_iff.mp hgs
      apply h.2 (hskips k' List.mem_cons_self) v hv q hrest (by simpa using hne)
        (fun k hk => hskips k (List.mem_cons_of_mem _ hk)) gs es hgs
      simpa using hes

omit [DecidableEq κ] in
/-- Whether the mappings of a document and what is below are merged. -/
theorem merged_cases (R : Rules κ) (dstVal : Option (Doc κ σ)) (fs : List (κ × Doc κ σ)) :
    (∃ ds, Merged R dstVal fs ds) ∨ ∀ ds, ¬Merged R dstVal fs ds := by
  by_cases h : ∃ ds, Merged R dstVal fs ds
  · exact .inl h
  · exact .inr (not_exists.mp h)

omit [DecidableEq κ] in
private theorem doc_cases (v : Doc κ σ) : v.IsLeaf ∨ ∃ fs, v = .map fs := by
  cases v with
  | scalar s => exact .inl (by intro fs h; cases h)
  | list xs => exact .inl (by intro fs h; cases h)
  | map fs => exact .inr ⟨fs,rfl⟩

private theorem kind_overlay : (overlay R dstVal v).kind = (prune R dstVal v).kind := by
  rcases doc_cases v with hleaf | ⟨fs,rfl⟩
  · rw [(overlay_leaf hleaf).1,(overlay_leaf hleaf).2]
  · rcases merged_cases R dstVal fs with ⟨ds,h⟩ | h
    · rw [(overlay_merged h).1,(overlay_merged h).2]
      rfl
    · rw [(overlay_replaced h).1,(overlay_replaced h).2]

/-- What is below a merged mapping, where the entry is not passed over. -/
theorem atPath_overlayFields {ds : List (κ × Doc κ σ)} (hn : (fs.map Prod.fst).Nodup)
    (hs : R.skips k = false) (hv : fs.lookup k = some v) :
    (Doc.map (overlayFields R ds fs)).atPath (k :: p) =
      (overlay R (ds.lookup k) v).atPath p := by
  rw [Doc.atPath_map,lookup_overlayFields hn hs hv]
  rfl

private theorem atPath_pruneFields {ds : List (κ × Doc κ σ)} (hs : R.skips k = false)
    (hv : fs.lookup k = some v) : (Doc.map (pruneFields R ds fs)).atPath (k :: p) =
      (prune R (ds.lookup k) v).atPath p := by
  rw [Doc.atPath_map,lookup_pruneFields,if_neg (by simp [hs]),hv]
  rfl

/-- An entry that is left is not passed over and comes from the document that is laid over. -/
theorem lookup_pruneFields_some {ds : List (κ × Doc κ σ)}
    (h : (pruneFields R ds fs).lookup k = some t) :
    R.skips k = false ∧ ∃ v, fs.lookup k = some v ∧ t = prune R (ds.lookup k) v := by
  rw [lookup_pruneFields] at h
  split at h
  · cases h
  · rename_i hs
    obtain ⟨v,hv,he⟩ := Option.map_eq_some_iff.mp h
    exact ⟨by simpa using hs,v,hv,he.symm⟩

private theorem overlay_present (hd : v.Distinct)
    (h : (prune R dstVal v).atPath p = some t) :
    ((overlay R dstVal v).atPath p).map Doc.kind = some t.kind := by
  induction p generalizing dstVal v with
  | nil =>
    rw [Doc.atPath_nil] at h
    rw [Doc.atPath_nil,Option.map_some,kind_overlay,Option.some.inj h]
  | cons k p ih =>
    rcases doc_cases v with hleaf | ⟨fs,rfl⟩
    · rw [(overlay_leaf hleaf).2,hleaf.atPath] at h
      cases h
    · rcases merged_cases R dstVal fs with ⟨ds,hm⟩ | hm
      · rw [(overlay_merged hm).2,Doc.atPath_map] at h
        obtain ⟨u,hu,hbelow⟩ := Option.bind_eq_some_iff.mp h
        obtain ⟨hs,v,hv,rfl⟩ := lookup_pruneFields_some hu
        rw [(overlay_merged hm).1,atPath_overlayFields hd.nodup hs hv]
        exact ih (hd.lookup hv) hbelow
      · rw [(overlay_replaced hm).2] at h
        rw [(overlay_replaced hm).1,h]
        rfl

private theorem overlay_covered (hd : v.Distinct)
    (hnone : (prune R dstVal v).atPath p = none) (h : (prune R dstVal v).Covered p) :
    (overlay R dstVal v).atPath p = none := by
  induction p generalizing dstVal v with
  | nil =>
    rw [Doc.atPath_nil] at hnone
    cases hnone
  | cons k p ih =>
    rcases doc_cases v with hleaf | ⟨fs,rfl⟩
    · rw [(overlay_leaf hleaf).1,hleaf.atPath]
    · rcases merged_cases R dstVal fs with ⟨ds,hm⟩ | hm
      · rw [(overlay_merged hm).2] at hnone h
        obtain ⟨u,hu,hbelow⟩ := Doc.covered_map.mp h
        obtain ⟨hs,v,hv,rfl⟩ := lookup_pruneFields_some hu
        rw [atPath_pruneFields hs hv] at hnone
        rw [(overlay_merged hm).1,atPath_overlayFields hd.nodup hs hv]
        exact ih (hd.lookup hv) hnone hbelow
      · rw [(overlay_replaced hm).2] at hnone
        rw [(overlay_replaced hm).1,hnone]

private theorem map_of_atPath (h : (dstVal.bind fun u => u.atPath (k :: p)) = some t) :
    ∃ ds, dstVal = some (.map ds) := by
  obtain ⟨u,hu,ht⟩ := Option.bind_eq_some_iff.mp h
  rcases doc_cases u with hleaf | ⟨ds,rfl⟩
  · rw [hleaf.atPath] at ht
    cases ht
  · exact ⟨ds,hu⟩

/-- Where nothing is laid over, the mapping keeps what is below. -/
theorem atPath_overlayFields_kept {ds : List (κ × Doc κ σ)}
    (h : R.skips k = true ∨ fs.lookup k = none) :
    (Doc.map (overlayFields R ds fs)).atPath (k :: p) = (Doc.map ds).atPath (k :: p) := by
  rw [Doc.atPath_map,Doc.atPath_map]
  rcases h with hs | hnone
  · rw [lookup_overlayFields_of_skips hs]
  · rw [lookup_overlayFields_of_notMem (lookup_eq_none.mp hnone)]

private theorem overlay_kept (hd : v.Distinct) (h : (prune R dstVal v).Spared p)
    (hm : (dstVal.bind fun u => u.atPath p) ≠ none → Mergeable R dstVal v p) :
    (overlay R dstVal v).atPath p = dstVal.bind fun u => u.atPath p := by
  induction p generalizing dstVal v with
  | nil =>
    rw [Doc.Spared,Doc.atPath_nil] at h
    cases h.1
  | cons k p ih =>
    rcases doc_cases v with hleaf | ⟨fs,rfl⟩
    · rw [(overlay_leaf hleaf).2] at h
      exact absurd hleaf.covered h.2
    · rcases merged_cases R dstVal fs with ⟨ds,hmerged⟩ | hmerged
      · rw [(overlay_merged hmerged).2] at h
        rw [(overlay_merged hmerged).1,hmerged.1,Option.bind_some]
        rw [hmerged.1] at hm
        by_cases hs : R.skips k = true
        · exact atPath_overlayFields_kept (.inl hs)
        · cases hv : fs.lookup k with
          | none => exact atPath_overlayFields_kept (.inr hv)
          | some v =>
            have hs' : R.skips k = false := by simpa using hs
            rw [atPath_overlayFields hd.nodup hs' hv,Doc.atPath_map]
            apply ih (hd.lookup hv)
            · apply Doc.spared_map.mp h
              rw [lookup_pruneFields,if_neg hs,hv]
              rfl
            · intro hne
              exact (mergeable_map.mp (hm (by simpa using hne))).2 hs' v hv
      · rw [(overlay_replaced hmerged).2] at h
        rw [(overlay_replaced hmerged).1,h.1]
        symm
        rw [Option.eq_none_iff_forall_ne_some]
        intro t ht
        obtain ⟨ds,hds⟩ := map_of_atPath ht
        have hmerges := hm (by rw [ht]; simp)
        rw [hds] at hmerges
        exact hmerged ds ⟨hds,(mergeable_map.mp hmerges).1⟩

/-- A value is kept only below mappings that can be merged. -/
theorem mergeable_of_kept (hd : v.Distinct) (h : (prune R dstVal v).Spared p)
    (ht : (dstVal.bind fun u => u.atPath p) = some t)
    (hk : (overlay R dstVal v).atPath p = some t) :
    Mergeable R dstVal v p := by
  induction p generalizing dstVal v with
  | nil =>
    rw [Doc.Spared,Doc.atPath_nil] at h
    cases h.1
  | cons k p ih =>
    rcases doc_cases v with hleaf | ⟨fs,rfl⟩
    · rw [(overlay_leaf hleaf).2] at h
      exact absurd hleaf.covered h.2
    · rcases merged_cases R dstVal fs with ⟨ds,hmerged⟩ | hmerged
      · rw [(overlay_merged hmerged).2] at h
        rw [(overlay_merged hmerged).1] at hk
        rw [hmerged.1] at ht
        rw [hmerged.1,mergeable_map]
        refine ⟨hmerged.2,fun hs v hv => ?_⟩
        rw [atPath_overlayFields hd.nodup hs hv] at hk
        apply ih (hd.lookup hv) _ (by simpa using ht) hk
        apply Doc.spared_map.mp h
        rw [lookup_pruneFields,if_neg (by simp [hs]),hv]
        rfl
      · rw [(overlay_replaced hmerged).2] at h
        rw [(overlay_replaced hmerged).1,h.1] at hk
        cases hk

/-- The result is the right-biased union, of what is not passed over, just when every value that
is to be kept is below mappings that can be merged. -/
theorem rightUnion_overlay_iff (hd : c.Distinct) :
    Doc.RightUnion (prune R (some d) c) d (overlay R (some d) c) ↔
      ∀ p, (prune R (some d) c).Spared p → d.atPath p ≠ none → Mergeable R (some d) c p := by
  constructor
  · intro h p hp hne
    obtain ⟨t,ht⟩ := Option.ne_none_iff_exists'.mp hne
    exact mergeable_of_kept hd hp ht ((h.kept p hp).trans ht)
  · intro h
    constructor
    · intro p t ht
      exact overlay_present hd ht
    · intro p hnone hcovered
      exact overlay_covered hd hnone hcovered
    · intro p hp
      exact overlay_kept hd hp fun hne => h p hp hne

/-! ## What is passed over -/

private theorem kind_prune : (prune R dstVal v).kind = v.kind := by
  rcases doc_cases v with hleaf | ⟨fs,rfl⟩
  · rw [(overlay_leaf hleaf).2]
  · rcases merged_cases R dstVal fs with ⟨ds,h⟩ | h
    · rw [(overlay_merged h).2]
      rfl
    · rw [(overlay_replaced h).2]

/-- What is left of a document was there. -/
theorem atPath_prune (h : (prune R dstVal v).atPath p = some t) :
    ∃ u, v.atPath p = some u ∧ u.kind = t.kind := by
  induction p generalizing dstVal v with
  | nil =>
    rw [Doc.atPath_nil] at h
    cases h
    exact ⟨v,Doc.atPath_nil,kind_prune.symm⟩
  | cons k p ih =>
    rcases doc_cases v with hleaf | ⟨fs,rfl⟩
    · rw [(overlay_leaf hleaf).2] at h
      exact ⟨t,h,rfl⟩
    · rcases merged_cases R dstVal fs with ⟨ds,hm⟩ | hm
      · rw [(overlay_merged hm).2,Doc.atPath_map] at h
        obtain ⟨u,hu,hbelow⟩ := Option.bind_eq_some_iff.mp h
        obtain ⟨_,v,hv,rfl⟩ := lookup_pruneFields_some hu
        obtain ⟨w,hw,hkind⟩ := ih hbelow
        exact ⟨w,by rw [Doc.atPath_map,hv,Option.bind_some,hw],hkind⟩
      · rw [(overlay_replaced hm).2] at h
        exact ⟨t,h,rfl⟩

private theorem covered_prune (h : (prune R dstVal v).Covered p) : v.Covered p := by
  obtain ⟨q,t,hq,ht,hleaf⟩ := h
  obtain ⟨u,hu,hkind⟩ := atPath_prune ht
  exact ⟨q,t,hq,Doc.kind_eq_leaf hkind hleaf ▸ hu,hleaf⟩

private theorem spared_prune (h : v.Spared p) : (prune R dstVal v).Spared p := by
  refine ⟨?_,fun hcovered => h.2 (covered_prune hcovered)⟩
  rw [Option.eq_none_iff_forall_ne_some]
  intro t ht
  obtain ⟨u,hu,_⟩ := atPath_prune ht
  rw [h.1] at hu
  cases hu

/-- A key is passed over only below mappings that are merged. -/
theorem mergeable_of_passed (h : (prune R dstVal v).Spared p) (hv : ¬v.Spared p) :
    Mergeable R dstVal v p := by
  induction p generalizing dstVal v with
  | nil =>
    rw [Doc.Spared,Doc.atPath_nil] at h
    cases h.1
  | cons k p ih =>
    rcases doc_cases v with hleaf | ⟨fs,rfl⟩
    · rw [(overlay_leaf hleaf).2] at h
      exact absurd h hv
    · rcases merged_cases R dstVal fs with ⟨ds,hmerged⟩ | hmerged
      · rw [(overlay_merged hmerged).2] at h
        rw [hmerged.1,mergeable_map]
        refine ⟨hmerged.2,fun hs u hu => ?_⟩
        apply ih
        · apply Doc.spared_map.mp h
          rw [lookup_pruneFields,if_neg (by simp [hs]),hu]
          rfl
        · intro hspared
          apply hv
          rw [Doc.spared_map]
          intro u' hu'
          rw [hu] at hu'
          exact Option.some.inj hu' ▸ hspared
      · rw [(overlay_replaced hmerged).2] at h
        exact absurd h hv

/-- Where the document decides something and what is left of it nothing, an entry above is passed
over, and the result is what was there. -/
theorem overlay_passed (hd : v.Distinct) (h : (prune R dstVal v).Spared p) (hv : ¬v.Spared p) :
    (overlay R dstVal v).atPath p = dstVal.bind fun u => u.atPath p :=
  overlay_kept hd h fun _ => mergeable_of_passed h hv

/-- The result is the right-biased union just when every value that is to be kept is below
mappings that can be merged, and the values that are passed over are there already. -/
theorem rightUnion_iff (hd : c.Distinct) : Doc.RightUnion c d (overlay R (some d) c) ↔
    (∀ p, c.Spared p → d.atPath p ≠ none → Mergeable R (some d) c p) ∧
      ∀ p, (prune R (some d) c).Spared p → ¬c.Spared p → c.Repeats d p := by
  constructor
  · intro h
    refine ⟨fun p hp hne => ?_,fun p hp hc => ⟨fun t ht => ?_,fun hnone => ?_⟩⟩
    · obtain ⟨t,ht⟩ := Option.ne_none_iff_exists'.mp hne
      exact mergeable_of_kept hd (spared_prune hp) ht ((h.kept p hp).trans ht)
    · have hpresent := h.present p t ht
      rw [overlay_passed hd hp hc] at hpresent
      exact hpresent
    · have hcovered : c.Covered p := not_not.mp fun hn => hc ⟨hnone,hn⟩
      have hnothing := h.covered p hnone hcovered
      rw [overlay_passed hd hp hc] at hnothing
      exact hnothing
  · rintro ⟨hkept,hrepeats⟩
    have hleft : Doc.RightUnion (prune R (some d) c) d (overlay R (some d) c) := by
      rw [rightUnion_overlay_iff hd]
      intro p hp hne
      by_cases hc : c.Spared p
      · exact hkept p hc hne
      · exact mergeable_of_passed hp hc
    constructor
    · intro p t ht
      cases hu : (prune R (some d) c).atPath p with
      | some u =>
        obtain ⟨t',ht',hkind⟩ := atPath_prune hu
        rw [ht] at ht'
        rw [hleft.present p u hu,Option.some.inj ht',hkind]
      | none =>
        by_cases hcovered : (prune R (some d) c).Covered p
        · obtain ⟨q,u,hq,hleaf,huleaf⟩ := hcovered
          obtain ⟨u',hu',hkind⟩ := atPath_prune hleaf
          have hpq := Doc.atPath_below_leaf hq hu' (Doc.kind_eq_leaf hkind huleaf ▸ huleaf)
            (by rw [ht]; simp)
          rw [hpq,hleaf] at hu
          cases hu
        · have hne : ¬c.Spared p := by
            intro hspared
            rw [hspared.1] at ht
            cases ht
          rw [overlay_passed hd ⟨hu,hcovered⟩ hne]
          exact (hrepeats p ⟨hu,hcovered⟩ hne).1 t ht
    · intro p hnone hcovered
      have hne : ¬c.Spared p := fun hspared => hspared.2 hcovered
      have hu : (prune R (some d) c).atPath p = none := by
        rw [Option.eq_none_iff_forall_ne_some]
        intro u hu
        obtain ⟨t,ht,_⟩ := atPath_prune hu
        rw [hnone] at ht
        cases ht
      by_cases hc : (prune R (some d) c).Covered p
      · exact hleft.covered p hu hc
      · rw [overlay_passed hd ⟨hu,hc⟩ hne]
        exact (hrepeats p ⟨hu,hc⟩ hne).2 hnone
    · intro p hp
      exact hleft.kept p (spared_prune hp)

mutual

theorem pruneFields_of_skips_false (hR : ∀ k, R.skips k = false) (dst : List (κ × Doc κ σ)) :
    ∀ src, pruneFields R dst src = src
  | [] => by rw [pruneFields]
  | (key,v) :: rest => by
    rw [pruneFields,if_neg (by simp [hR]),prune_of_skips_false hR _ v,
      pruneFields_of_skips_false hR dst rest]

/-- Nothing is passed over. -/
theorem prune_of_skips_false (hR : ∀ k, R.skips k = false) (dstVal : Option (Doc κ σ)) :
    ∀ v, prune R dstVal v = v
  | .scalar s => by rw [prune]
  | .list xs => by rw [prune]
  | .map fs => by
    rcases merged_cases R dstVal fs with ⟨ds,h⟩ | h
    · rw [(overlay_merged h).2,pruneFields_of_skips_false hR ds fs]
    · rw [(overlay_replaced h).2]

end

/-- The rules without keys that are passed over. -/
def Rules.keeping (R : Rules κ) : Rules κ :=
  { R with skips := fun _ => false }

private theorem pruneFields_put (h : k ∉ src.map Prod.fst) :
    pruneFields R (put k v dst) src = pruneFields R dst src := by
  induction src with
  | nil => rw [pruneFields,pruneFields]
  | cons e src ih =>
    obtain ⟨key,t⟩ := e
    simp only [List.map_cons,List.mem_cons,not_or] at h
    rw [pruneFields,pruneFields,ih h.2,lookup_put_ne (Ne.symm h.1)]

private theorem keys_pruneFields :
    ((pruneFields R dst src).map Prod.fst).Sublist (src.map Prod.fst) := by
  induction src with
  | nil => rw [pruneFields]
  | cons e src ih =>
    obtain ⟨key,t⟩ := e
    rw [pruneFields]
    split
    · exact ih.cons key
    · exact ih.cons_cons key

mutual

theorem overlayFields_prune
    (hR : ∀ ks ks', ks'.Sublist ks → R.merges ks = true → R.merges ks' = true) :
    ∀ (src dst : List (κ × Doc κ σ)), (Doc.map src).Distinct →
      overlayFields R dst src = overlayFields R.keeping dst (pruneFields R dst src)
  | [],dst,_ => by rw [pruneFields,overlayFields,overlayFields]
  | (key,v) :: rest,dst,hd => by
    have hn := hd.nodup
    simp only [List.map_cons,List.nodup_cons] at hn
    have hv : v.Distinct := hd.lookup lookup_cons_self
    have hrest : (Doc.map rest).Distinct := by
      cases hd with
      | map _ hall => exact .map hn.2 fun e he => hall e (List.mem_cons_of_mem _ he)
    rw [overlayFields,pruneFields]
    split
    · exact overlayFields_prune hR rest dst hrest
    · rw [overlayFields_prune hR rest _ hrest,pruneFields_put hn.1,overlay_prune hR v _ hv]
      conv_rhs => rw [overlayFields]
      rfl

/-- To pass keys over is to leave them out before. -/
theorem overlay_prune
    (hR : ∀ ks ks', ks'.Sublist ks → R.merges ks = true → R.merges ks' = true) :
    ∀ (v : Doc κ σ) (dstVal : Option (Doc κ σ)), v.Distinct →
      overlay R dstVal v = overlay R.keeping dstVal (prune R dstVal v)
  | .scalar s,dstVal,_ => by rw [prune,overlay,overlay]
  | .list xs,dstVal,_ => by rw [prune,overlay,overlay]
  | .map fs,dstVal,hd => by
    rcases merged_cases R dstVal fs with ⟨ds,h⟩ | h
    · rw [(overlay_merged h).1,(overlay_merged h).2,overlayFields_prune hR fs ds hd]
      have hmerges := Bool.and_eq_true_iff.mp h.2
      have hkeeping : Merged R.keeping dstVal (pruneFields R ds fs) ds :=
        ⟨h.1,Bool.and_eq_true_iff.mpr ⟨hR _ _ keys_pruneFields hmerges.1,hmerges.2⟩⟩
      rw [(overlay_merged hkeeping).1]
    · have hkeeping : ∀ ds, ¬Merged R.keeping dstVal fs ds := h
      rw [(overlay_replaced h).1,(overlay_replaced h).2,(overlay_replaced hkeeping).1]

end

end overlay

end Dominion.Framework
