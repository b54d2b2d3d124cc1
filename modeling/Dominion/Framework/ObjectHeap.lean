import Dominion.Framework.Overlay

/-! # Documents as objects

A mapping is an object of a heap.  A document is copied by allocating its mappings, and a document
is laid over another one in place, by writing to the objects of the other.  Where no object of the
other is shared, this computes the right-biased union, and no other object is written to. -/
namespace Dominion.Framework

/-- A whole value that is not written to, or a reference. -/
inductive Val (κ σ : Type) where
  | whole (t : Doc κ σ)
  | object (a : Nat)

/-- The entries of the objects. -/
abbrev Heap (κ σ : Type) :=
  List (List (κ × Val κ σ))

section heap

variable {κ σ : Type}

mutual

/-- The entries of a copy. -/
def allocFields (h : Heap κ σ) : List (κ × Doc κ σ) → Heap κ σ × List (κ × Val κ σ)
  | [] => (h,[])
  | (k,t) :: rest =>
    let first := alloc h t
    let others := allocFields first.1 rest
    (others.1,(k,first.2) :: others.2)

/-- A copy of the document. -/
def alloc (h : Heap κ σ) : Doc κ σ → Heap κ σ × Val κ σ
  | .scalar s => (h,.whole (.scalar s))
  | .list xs => (h,.whole (.list xs))
  | .map fs =>
    let copied := allocFields h fs
    (copied.1 ++ [copied.2],.object copied.1.length)

end

mutual

/-- The entries of an object are those of a document, which has the objects `fp`. -/
inductive HoldsFields (h : Heap κ σ) :
    List (κ × Val κ σ) → List (κ × Doc κ σ) → List Nat → Prop
  | nil : HoldsFields h [] [] []
  | cons {k : κ} {v : Val κ σ} {t : Doc κ σ} {vs : List (κ × Val κ σ)} {fs : List (κ × Doc κ σ)}
      {f g : List Nat} (head : Holds h v t f) (tail : HoldsFields h vs fs g) :
      HoldsFields h ((k,v) :: vs) ((k,t) :: fs) (f ++ g)

/-- The value is the document, which has the objects `fp`. -/
inductive Holds (h : Heap κ σ) : Val κ σ → Doc κ σ → List Nat → Prop
  | whole {t : Doc κ σ} (leaf : t.IsLeaf) : Holds h (.whole t) t []
  | object {a : Nat} {vs : List (κ × Val κ σ)} {fs : List (κ × Doc κ σ)} {f : List Nat}
      (read : h[a]? = some vs) (fields : HoldsFields h vs fs f) :
      Holds h (.object a) (.map fs) (a :: f)

end

section frames

variable {h h' : Heap κ σ}

mutual

private theorem HoldsFields.frame :
    ∀ {vs : List (κ × Val κ σ)} {fs : List (κ × Doc κ σ)} {f : List Nat},
    HoldsFields h vs fs f → (∀ x ∈ f, h'[x]? = h[x]?) → HoldsFields h' vs fs f
  | _,_,_,.nil,_ => .nil
  | _,_,_,.cons head tail,hsame =>
    .cons (head.frame fun x hx => hsame x (List.mem_append_left _ hx))
      (tail.frame fun x hx => hsame x (List.mem_append_right _ hx))

theorem Holds.frame : ∀ {v : Val κ σ} {t : Doc κ σ} {f : List Nat},
    Holds h v t f → (∀ x ∈ f, h'[x]? = h[x]?) → Holds h' v t f
  | _,_,_,.whole leaf,_ => .whole leaf
  | _,_,_,.object read fields,hsame =>
    .object ((hsame _ List.mem_cons_self).trans read)
      (fields.frame fun x hx => hsame x (List.mem_cons_of_mem _ hx))

end

mutual

private theorem HoldsFields.lt_length {x : Nat} :
    ∀ {vs : List (κ × Val κ σ)} {fs : List (κ × Doc κ σ)} {f : List Nat},
      HoldsFields h vs fs f → x ∈ f → x < h.length
  | _,_,_,.nil,hx => by cases hx
  | _,_,_,.cons head tail,hx => by
    rcases List.mem_append.mp hx with hx | hx
    · exact head.lt_length hx
    · exact tail.lt_length hx

theorem Holds.lt_length {x : Nat} : ∀ {v : Val κ σ} {t : Doc κ σ} {f : List Nat},
    Holds h v t f → x ∈ f → x < h.length
  | _,_,_,.whole _,hx => by cases hx
  | _,_,_,.object read fields,hx => by
    rcases List.mem_cons.mp hx with rfl | hx
    · exact (List.getElem?_eq_some_iff.mp read).1
    · exact fields.lt_length hx

end

end frames

section copies

mutual

/-- A copy is made of new objects, and the others stay. -/
theorem allocFields_holds : ∀ (fs : List (κ × Doc κ σ)) (h : Heap κ σ),
    ∃ new f, (allocFields h fs).1 = h ++ new ∧
      HoldsFields (allocFields h fs).1 (allocFields h fs).2 fs f ∧ f.Nodup ∧ ∀ x ∈ f, h.length ≤ x
  | [],h => ⟨[],[],by simp [allocFields],by rw [allocFields]; exact .nil,List.nodup_nil,by simp⟩
  | (k,t) :: rest,h => by
    obtain ⟨new,f,hnew,hheld,hn,hfresh⟩ := alloc_holds t h
    obtain ⟨new',g,hnew',hheld',hn',hfresh'⟩ := allocFields_holds rest (alloc h t).1
    have hkept : ∀ x < (alloc h t).1.length,
        (allocFields (alloc h t).1 rest).1[x]? = (alloc h t).1[x]? := by
      intro x hx
      rw [hnew',List.getElem?_append_left hx]
    rw [allocFields]
    refine ⟨new ++ new',f ++ g,?_,?_,?_,?_⟩
    · rw [hnew',hnew,List.append_assoc]
    · exact .cons (hheld.frame fun x hx => hkept x (hheld.lt_length hx)) hheld'
    · rw [List.nodup_append]
      refine ⟨hn,hn',?_⟩
      intro x hx y hy he
      have hlt := hheld.lt_length hx
      have hle := hfresh' y hy
      omega
    · intro x hx
      rcases List.mem_append.mp hx with hx | hx
      · exact hfresh x hx
      · have hle := hfresh' x hx
        rw [hnew,List.length_append] at hle
        omega

private theorem alloc_holds : ∀ (t : Doc κ σ) (h : Heap κ σ), ∃ new f, (alloc h t).1 = h ++ new ∧
    Holds (alloc h t).1 (alloc h t).2 t f ∧ f.Nodup ∧ ∀ x ∈ f, h.length ≤ x
  | .scalar s,h => ⟨[],[],by simp [alloc],
      by rw [alloc]; exact .whole (by intro fs he; cases he),List.nodup_nil,by simp⟩
  | .list xs,h => ⟨[],[],by simp [alloc],
      by rw [alloc]; exact .whole (by intro fs he; cases he),List.nodup_nil,by simp⟩
  | .map fs,h => by
    obtain ⟨new,f,hnew,hheld,hn,hfresh⟩ := allocFields_holds fs h
    rw [alloc]
    refine ⟨new ++ [(allocFields h fs).2],(allocFields h fs).1.length :: f,?_,?_,?_,?_⟩
    · rw [hnew,List.append_assoc]
    · apply Holds.object
      · rw [List.getElem?_append_right (le_refl _),Nat.sub_self]
        rfl
      · exact hheld.frame fun x hx => List.getElem?_append_left (hheld.lt_length hx)
    · rw [List.nodup_cons]
      refine ⟨fun hmem => ?_,hn⟩
      have hlt := hheld.lt_length hmem
      omega
    · intro x hx
      rcases List.mem_cons.mp hx with rfl | hx
      · rw [hnew,List.length_append]
        omega
      · exact hfresh x hx

end

end copies

/-! ## Laying over in place -/

section inPlace

variable [DecidableEq κ]

/-- The entry of the object is replaced by a copy. -/
def assign (h : Heap κ σ) (a : Nat) (key : κ) (t : Doc κ σ) : Option (Heap κ σ) :=
  let copied := alloc h t
  copied.1[a]?.map fun fields => copied.1.set a (put key copied.2 fields)

mutual

/-- The entries are laid over the object, one after the other; there is no result when an entry
is written to no object. -/
def overlayObject (R : Rules κ) (h : Heap κ σ) (dst : Option Nat) :
    List (κ × Doc κ σ) → Option (Heap κ σ)
  | [] => some h
  | (key,srcVal) :: rest =>
    if R.skips key then overlayObject R h dst rest
    else dst.bind fun a => h[a]?.bind fun fields =>
      (overlayEntry R h a key (fields.lookup key) srcVal).bind fun h' =>
        overlayObject R h' dst rest

def overlayEntry (R : Rules κ) (h : Heap κ σ) (a : Nat) (key : κ) (dstVal : Option (Val κ σ)) :
    Doc κ σ → Option (Heap κ σ)
  | .scalar s => assign h a key (.scalar s)
  | .list xs => assign h a key (.list xs)
  | .map fs =>
    match dstVal with
    | some (.object b) => h[b]?.bind fun ds =>
      -- The object of the entry stays where it is.
      if R.merges (fs.map Prod.fst) && R.merges (ds.map Prod.fst) then overlayObject R h (some b) fs
      else assign h a key (.map fs)
    | _ => assign h a key (.map fs)

end

section entries

variable {h h' : Heap κ σ} {v : Val κ σ} {t : Doc κ σ} {vs : List (κ × Val κ σ)}
  {fs : List (κ × Doc κ σ)} {f g : List Nat} {k : κ}

omit [DecidableEq κ] in
private theorem HoldsFields.keys (hf : HoldsFields h vs fs f) :
    vs.map Prod.fst = fs.map Prod.fst := by
  induction fs generalizing vs f with
  | nil =>
    cases hf
    rfl
  | cons e fs ih =>
    cases hf with
    | cons head tail => simp [ih tail]

private theorem HoldsFields.lookup_none (hf : HoldsFields h vs fs f) (hk : fs.lookup k = none) :
    vs.lookup k = none := by
  rw [lookup_eq_none] at hk ⊢
  rwa [hf.keys]

/-- A new entry has objects of its own. -/
theorem HoldsFields.put_new (hf : HoldsFields h vs fs f) (hk : fs.lookup k = none)
    (hv : Holds h v t g) : HoldsFields h (put k v vs) (put k t fs) (f ++ g) := by
  induction fs generalizing vs f with
  | nil =>
    cases hf
    rw [put,put]
    rw [List.nil_append,← List.append_nil g]
    exact .cons hv .nil
  | cons e fs ih =>
    cases hf with
    | @cons k₁ v₁ t₁ vs fs f₁ f₂ head tail =>
      have hne : k ≠ k₁ := by
        intro he
        rw [he,lookup_cons_self] at hk
        cases hk
      rw [lookup_cons_ne hne] at hk
      rw [put,put,if_neg (Ne.symm hne),if_neg (Ne.symm hne),List.append_assoc]
      exact .cons head (ih tail hk)

/-- The entry of a key has objects of its own, and can be replaced by another one. -/
theorem HoldsFields.lookup_some (hf : HoldsFields h vs fs f) (hk : fs.lookup k = some t) :
    ∃ v f₀ f₁ f₂, vs.lookup k = some v ∧ f = f₀ ++ f₁ ++ f₂ ∧ Holds h v t f₁ ∧
      ∀ h' v' t' g, (∀ x ∈ f₀ ++ f₂, h'[x]? = h[x]?) → Holds h' v' t' g →
        HoldsFields h' (put k v' vs) (put k t' fs) (f₀ ++ g ++ f₂) := by
  induction fs generalizing vs f with
  | nil => cases hk
  | cons e fs ih =>
    cases hf with
    | @cons k₁ v₁ t₁ vs fs f₁ f₂ head tail =>
      by_cases he : k = k₁
      · rw [he,lookup_cons_self] at hk
        cases hk
        refine ⟨v₁,[],f₁,f₂,he ▸ lookup_cons_self,rfl,head,?_⟩
        intro h' v' t' g hsame hv'
        rw [put,put,if_pos he.symm,if_pos he.symm]
        exact .cons hv' (tail.frame hsame)
      · rw [lookup_cons_ne he] at hk
        obtain ⟨v,g₀,g₁,g₂,hv,rfl,hheld,hput⟩ := ih tail hk
        refine ⟨v,f₁ ++ g₀,g₁,g₂,(lookup_cons_ne he).trans hv,by simp,hheld,?_⟩
        intro h' v' t' g hsame hv'
        have hhead := head.frame fun x hx => hsame x (by simp [hx])
        have htail := hput h' v' t' g (fun x hx => hsame x (by
          rw [List.append_assoc]
          exact List.mem_append_right _ hx)) hv'
        rw [put,put,if_neg (Ne.symm he),if_neg (Ne.symm he),List.append_assoc,List.append_assoc]
        rw [List.append_assoc] at htail
        exact .cons hhead htail

end entries

/-- The object has become the mapping, within its own objects and new ones. -/
def Laid (h h' : Heap κ σ) (a : Nat) (fs : List (κ × Doc κ σ)) (f : List Nat) : Prop :=
  ∃ vs g, h'[a]? = some vs ∧ HoldsFields h' vs fs g ∧ (a :: g).Nodup ∧
    (∀ x ∈ g, x ∈ f ∨ h.length ≤ x) ∧ h.length ≤ h'.length ∧
    ∀ x < h.length, x ≠ a → x ∉ f → h'[x]? = h[x]?

section laying

variable {R : Rules κ} {h : Heap κ σ} {a : Nat} {vs : List (κ × Val κ σ)}
  {ds : List (κ × Doc κ σ)} {f : List Nat} {key : κ}

private theorem nodup_replace {f₀ f₂ g : List Nat} {n : Nat} (f₁ : List Nat)
    (hn : (a :: (f₀ ++ f₁ ++ f₂)).Nodup)
    (hlt : ∀ x ∈ a :: (f₀ ++ f₁ ++ f₂), x < n) (hg : g.Nodup) (hfresh : ∀ x ∈ g, x ∈ f₁ ∨ n ≤ x) :
    (a :: (f₀ ++ g ++ f₂)).Nodup := by
  have hmem : ∀ x ∈ g, x ∉ f₀ ∧ x ∉ f₂ ∧ x ≠ a := by
    intro x hx
    rcases hfresh x hx with h₁ | hle
    · simp only [List.nodup_cons,List.nodup_append,List.mem_append] at hn
      refine ⟨fun h₀ => hn.2.1.2.2 x h₀ x h₁ rfl,fun h₂ => hn.2.2.2 x (.inr h₁) x h₂ rfl,?_⟩
      rintro rfl
      exact hn.1 (.inl (.inr h₁))
    · refine ⟨fun h₀ => ?_,fun h₂ => ?_,?_⟩
      · have hx := hlt x (by simp [h₀])
        omega
      · have hx := hlt x (by simp [h₂])
        omega
      · rintro rfl
        have hx := hlt x (by simp)
        omega
  simp only [List.nodup_cons,List.nodup_append,List.mem_append] at hn ⊢
  refine ⟨?_,⟨hn.2.1.1,hg,fun x h₀ y hy he => (hmem y hy).1 (he ▸ h₀)⟩,hn.2.2.1,?_⟩
  · rintro ((h₀ | hx) | h₂)
    · exact hn.1 (.inl (.inl h₀))
    · exact (hmem a hx).2.2 rfl
    · exact hn.1 (.inr h₂)
  · rintro x (h₀ | hx) y h₂ he
    · exact hn.2.2.2 x (.inl h₀) y h₂ he
    · exact (hmem x hx).2.1 (he ▸ h₂)

private theorem assign_laid (hread : h[a]? = some vs) (hf : HoldsFields h vs ds f)
    (hn : (a :: f).Nodup)
    (t : Doc κ σ) : ∃ h', assign h a key t = some h' ∧ Laid h h' a (put key t ds) f := by
  obtain ⟨new,g,hnew,hheld,hg,hfresh⟩ := alloc_holds t h
  have halt : a < h.length := (List.getElem?_eq_some_iff.mp hread).1
  have hold : (alloc h t).1[a]? = some vs := by
    rw [hnew,List.getElem?_append_left halt,hread]
  have hlt : ∀ x ∈ a :: f, x < h.length := by
    intro x hx
    rcases List.mem_cons.mp hx with rfl | hx
    · exact halt
    · exact hf.lt_length hx
  have hother : ∀ x, x ≠ a →
      ((alloc h t).1.set a (put key (alloc h t).2 vs))[x]? = (alloc h t).1[x]? :=
    fun x hx => List.getElem?_set_ne (Ne.symm hx)
  have hframe : ∀ x ∈ f, ((alloc h t).1.set a (put key (alloc h t).2 vs))[x]? = h[x]? := by
    intro x hx
    have hne : x ≠ a := fun he => (List.nodup_cons.mp hn).1 (he ▸ hx)
    rw [hother x hne,hnew,List.getElem?_append_left (hf.lt_length hx)]
  have hcopy : Holds ((alloc h t).1.set a (put key (alloc h t).2 vs)) (alloc h t).2 t g := by
    apply hheld.frame
    intro x hx
    have hle := hfresh x hx
    exact hother x (by omega)
  have hset : ((alloc h t).1.set a (put key (alloc h t).2 vs))[a]? =
      some (put key (alloc h t).2 vs) := by
    rw [List.getElem?_set_self (List.getElem?_eq_some_iff.mp hold).1]
  have hlength : h.length ≤ ((alloc h t).1.set a (put key (alloc h t).2 vs)).length := by
    rw [List.length_set,hnew,List.length_append]
    omega
  have hkept : ∀ x < h.length, x ≠ a → x ∉ f →
      ((alloc h t).1.set a (put key (alloc h t).2 vs))[x]? = h[x]? := by
    intro x hx hne _
    rw [hother x hne,hnew,List.getElem?_append_left hx]
  refine ⟨_,by rw [assign,hold]; rfl,?_⟩
  cases hk : ds.lookup key with
  | none =>
    have hheld' := (hf.frame hframe).put_new hk hcopy
    refine ⟨_,f ++ g,hset,hheld',?_,?_,hlength,hkept⟩
    · have hlast : f ++ [] ++ [] = f := by rw [List.append_nil,List.append_nil]
      have hnodup : (a :: (f ++ g ++ [])).Nodup := by
        apply nodup_replace [] _ _ hg fun x hx => .inr (hfresh x hx)
        · rwa [hlast]
        · rwa [hlast]
      rwa [List.append_nil] at hnodup
    · intro x hx
      exact (List.mem_append.mp hx).imp_right (hfresh x)
  | some t₀ =>
    obtain ⟨v,f₀,f₁,f₂,hv,rfl,_,hput⟩ := hf.lookup_some hk
    have hheld' := hput _ _ t g (fun x hx => hframe x (by
      rcases List.mem_append.mp hx with hx | hx
      · simp [hx]
      · simp [hx])) hcopy
    refine ⟨_,f₀ ++ g ++ f₂,hset,hheld',?_,?_,hlength,hkept⟩
    · exact nodup_replace f₁ hn hlt hg fun x hx => .inr (hfresh x hx)
    · intro x hx
      simp only [List.mem_append] at hx ⊢
      rcases hx with (hx | hx) | hx
      · exact .inl (.inl (.inl hx))
      · exact .inr (hfresh x hx)
      · exact .inl (.inr hx)

omit [DecidableEq κ] in
private theorem Laid.trans {h' h'' : Heap κ σ} {fs : List (κ × Doc κ σ)} {g : List Nat}
    (hlength : h.length ≤ h'.length) (hg : ∀ x ∈ g, x ∈ f ∨ h.length ≤ x)
    (hkept : ∀ x < h.length, x ≠ a → x ∉ f → h'[x]? = h[x]?) (hlaid : Laid h' h'' a fs g) :
    Laid h h'' a fs f := by
  obtain ⟨vs,g',hread,hf,hn,hg',hlength',hkept'⟩ := hlaid
  refine ⟨vs,g',hread,hf,hn,?_,hlength.trans hlength',?_⟩
  · intro x hx
    rcases hg' x hx with hx | hx
    · exact hg x hx
    · exact .inr (hlength.trans hx)
  · intro x hx hne hnot
    have hnot' : x ∉ g := by
      intro hmem
      rcases hg x hmem with hmem | hle
      · exact hnot hmem
      · omega
    rw [hkept' x (by omega) hne hnot',hkept x hx hne hnot]

private theorem nodup_middle {f₀ f₁ f₂ : List Nat} (hn : (a :: (f₀ ++ f₁ ++ f₂)).Nodup) :
    f₁.Nodup := by
  simp only [List.nodup_cons,List.nodup_append] at hn
  exact hn.2.1.2.1

private theorem entry_laid {h' : Heap κ σ} {b : Nat} {f₀ f₂ g : List Nat} {es : List (κ × Doc κ σ)}
    (hread : h[a]? = some vs) (hf : HoldsFields h vs ds (f₀ ++ (b :: g) ++ f₂))
    (hn : (a :: (f₀ ++ (b :: g) ++ f₂)).Nodup) (hv : vs.lookup key = some (.object b))
    (hput : ∀ h' v' t' g, (∀ x ∈ f₀ ++ f₂, h'[x]? = h[x]?) → Holds h' v' t' g →
      HoldsFields h' (put key v' vs) (put key t' ds) (f₀ ++ g ++ f₂))
    (hlaid : Laid h h' b es g) :
    Laid h h' a (put key (.map es) ds) (f₀ ++ (b :: g) ++ f₂) := by
  obtain ⟨ws,g',hread',hfields,hn',hg,hlength,hkept⟩ := hlaid
  have hlt : ∀ x ∈ a :: (f₀ ++ (b :: g) ++ f₂), x < h.length := by
    intro x hx
    rcases List.mem_cons.mp hx with rfl | hx
    · exact (List.getElem?_eq_some_iff.mp hread).1
    · exact hf.lt_length hx
  have hapart : ∀ x ∈ a :: (f₀ ++ f₂), x ≠ b ∧ x ∉ g := by
    intro x hx
    simp only [List.nodup_cons,List.nodup_append,List.mem_append,List.mem_cons] at hn hx
    grind
  have hsame : ∀ x ∈ a :: (f₀ ++ f₂), h'[x]? = h[x]? := by
    intro x hx
    have hbound : x < h.length := hlt x (by
      rcases List.mem_cons.mp hx with rfl | hx
      · exact List.mem_cons_self
      · rcases List.mem_append.mp hx with hx | hx
        · simp [hx]
        · simp [hx])
    exact hkept x hbound (hapart x hx).1 (hapart x hx).2
  have hheld := hput h' (.object b) (.map es) (b :: g')
    (fun x hx => hsame x (List.mem_cons_of_mem _ hx)) (.object hread' hfields)
  rw [put_lookup hv] at hheld
  refine ⟨vs,f₀ ++ (b :: g') ++ f₂,(hsame a List.mem_cons_self).trans hread,hheld,?_,?_,hlength,?_⟩
  · apply nodup_replace (b :: g) hn hlt hn'
    intro x hx
    rcases List.mem_cons.mp hx with rfl | hx
    · exact .inl List.mem_cons_self
    · exact (hg x hx).imp_left (List.mem_cons_of_mem _)
  · intro x hx
    simp only [List.mem_append,List.mem_cons] at hx ⊢
    rcases hx with (hx | hx | hx) | hx
    · exact .inl (.inl (.inl hx))
    · exact .inl (.inl (.inr (.inl hx)))
    · exact (hg x hx).imp_left fun hx => .inl (.inr (.inr hx))
    · exact .inl (.inr hx)
  · intro x hx hne hnot
    simp only [List.mem_append,List.mem_cons,not_or] at hnot
    exact hkept x hx hnot.1.2.1 hnot.1.2.2

mutual

/-- The entries are laid over the mapping that the object is. -/
theorem overlayObject_laid : ∀ (src : List (κ × Doc κ σ)) (h : Heap κ σ) (a : Nat)
    (vs : List (κ × Val κ σ)) (ds : List (κ × Doc κ σ)) (f : List Nat), h[a]? = some vs →
      HoldsFields h vs ds f → (a :: f).Nodup →
        ∃ h', overlayObject R h (some a) src = some h' ∧ Laid h h' a (overlayFields R ds src) f
  | [],h,a,vs,ds,f,hread,hf,hn => ⟨h,by rw [overlayObject],by
      rw [overlayFields]
      exact ⟨vs,f,hread,hf,hn,fun x hx => .inl hx,le_refl _,fun _ _ _ _ => rfl⟩⟩
  | (key,v) :: rest,h,a,vs,ds,f,hread,hf,hn => by
    rw [overlayObject,overlayFields]
    split
    · exact overlayObject_laid rest h a vs ds f hread hf hn
    · obtain ⟨h₁,hentry,vs₁,g,hread₁,hf₁,hn₁,hg,hlength,hkept⟩ :=
        overlayEntry_laid v h a vs ds f key hread hf hn
      obtain ⟨h₂,hrest,hlaid⟩ := overlayObject_laid rest h₁ a vs₁ _ g hread₁ hf₁ hn₁
      refine ⟨h₂,?_,hlaid.trans hlength hg hkept⟩
      rw [Option.bind_some,hread,Option.bind_some,hentry,Option.bind_some]
      exact hrest

theorem overlayEntry_laid : ∀ (v : Doc κ σ) (h : Heap κ σ) (a : Nat) (vs : List (κ × Val κ σ))
    (ds : List (κ × Doc κ σ)) (f : List Nat) (key : κ), h[a]? = some vs → HoldsFields h vs ds f →
      (a :: f).Nodup → ∃ h', overlayEntry R h a key (vs.lookup key) v = some h' ∧
        Laid h h' a (put key (overlay R (ds.lookup key) v) ds) f
  | .scalar s,h,a,vs,ds,f,key,hread,hf,hn => by
    rw [overlayEntry,overlay]
    exact assign_laid hread hf hn (.scalar s)
  | .list xs,h,a,vs,ds,f,key,hread,hf,hn => by
    rw [overlayEntry,overlay]
    exact assign_laid hread hf hn (.list xs)
  | .map fs,h,a,vs,ds,f,key,hread,hf,hn => by
    cases hk : ds.lookup key with
    | none =>
      rw [hf.lookup_none hk,overlayEntry,overlay]
      · exact assign_laid hread hf hn (.map fs)
      · intro b hb
        cases hb
      · intro es hes
        cases hes
    | some t =>
      obtain ⟨v,f₀,f₁,f₂,hv,rfl,hheld,hput⟩ := hf.lookup_some hk
      rw [hv]
      cases hheld with
      | whole hleaf =>
        rw [overlayEntry,overlay]
        · exact assign_laid hread hf hn (.map fs)
        · intro es hes
          exact hleaf es (Option.some.inj hes)
        · intro b hb
          cases hb
      | @object b ws es g hb hfields =>
        simp only [overlayEntry,overlay,hb,Option.bind_some,hfields.keys]
        split
        · obtain ⟨h',hlaid⟩ := overlayObject_laid fs h b ws es g hb hfields
            (nodup_middle hn)
          exact ⟨h',hlaid.1,entry_laid hread hf hn hv hput hlaid.2⟩
        · exact assign_laid hread hf hn (.map fs)

end

/-- Laid over a copy, the entries make the union in new objects, and all others stay. -/
theorem overlayObject_copy (R : Rules κ) (h : Heap κ σ) (ds src : List (κ × Doc κ σ)) :
    ∃ a h' g, (alloc h (.map ds)).2 = .object a ∧
      overlayObject R (alloc h (.map ds)).1 (some a) src = some h' ∧
      Holds h' (.object a) (.map (overlayFields R ds src)) g ∧ ∀ x < h.length, h'[x]? = h[x]? := by
  obtain ⟨new,f,hnew,hheld,hn,hfresh⟩ := alloc_holds (.map ds) h
  generalize hcopy : (alloc h (Doc.map ds)).2 = v at hheld
  cases hheld with
  | whole hleaf => exact absurd rfl (hleaf ds)
  | @object a vs fs f hread hfields =>
    obtain ⟨h',hlaid,ws,g,hread',hfields',_,_,_,hkept⟩ :=
      overlayObject_laid (R := R) src _ a vs ds f hread hfields hn
    refine ⟨a,h',a :: g,rfl,hlaid,.object hread' hfields',?_⟩
    intro x hx
    have hle := hfresh a List.mem_cons_self
    have hnot : x ∉ f := by
      intro hmem
      have hle' := hfresh x (List.mem_cons_of_mem _ hmem)
      omega
    have hlength : x < (alloc h (Doc.map ds)).1.length := by
      rw [hnew,List.length_append]
      omega
    rw [hkept x hlength (by omega) hnot,hnew,List.getElem?_append_left hx]

end laying

end inPlace

end heap

end Dominion.Framework
