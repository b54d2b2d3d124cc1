import Dominion.Framework.Fallible
import Dominion.Memory.Listing

/-! # The keys that an order names

Two orders are served by the same pages when they parse to the same final key, and the context of a
token tells final keys apart. -/
namespace Dominion.Memory

open Dominion.Framework

/-- A term over a sortable field. -/
def Sortable (t : MemorySortTerm) : Prop :=
  ∃ spec ∈ memorySortFieldSpecs, t = spec.term t.descending

/-- What the parser produces: sortable fields, each once, and the memory id among them. -/
structure FinalKey (sort : List MemorySortTerm) : Prop where
  sortable : ∀ t ∈ sort, Sortable t
  nodup : (sort.map fun t => t.field).Nodup
  identity : memorySortTieBreaker.field ∈ sort.map fun t => t.field

variable {item orderBy field : String} {items : List String} {spec : MemorySortFieldSpec}
  {validated terms : Store String MemorySortTerm} {new sort sort' : List MemorySortTerm}
  {t t' : MemorySortTerm}

/-! ## The two passes -/

/-- A field that passes is sortable and is not there yet. -/
theorem validateField_ok {descending : Bool}
    (h : validateField field descending validated = .ok t) :
    t.field = field ∧ field ∉ validated ∧ Sortable t := by
  unfold validateField at h
  cases hspec : memorySortFieldSpecByField field with
  | none => simp [hspec] at h
  | some spec =>
    have hmem : spec ∈ memorySortFieldSpecs := List.mem_of_find?_eq_some hspec
    have hfield : spec.field = field := by simpa using List.find?_some hspec
    simp only [hspec] at h
    split at h
    · cases h
    · rename_i hnew
      cases h
      rw [AList.lookup_isSome,hfield] at hnew
      exact ⟨hfield,hnew,spec,hmem,rfl⟩

private theorem validateTerm_ok (h : validateTerm item validated = .ok t) :
    (Text.fields item).head? = some t.field ∧ t.field ∉ validated ∧ Sortable t := by
  rw [validateTerm] at h
  split at h
  · rename_i field hfields
    obtain ⟨rfl,hnew,hsortable⟩ := validateField_ok h
    exact ⟨by rw [hfields]; rfl,hnew,hsortable⟩
  · rename_i field direction hfields
    split at h
    · obtain ⟨rfl,hnew,hsortable⟩ := validateField_ok h
      exact ⟨by rw [hfields]; rfl,hnew,hsortable⟩
    · cases h
  · cases h

/-- The terms that a run of the validation pass adds. -/
structure Adds (items : List String) (validated terms : Store String MemorySortTerm)
    (new : List MemorySortTerm) : Prop where
  heads : (items.map fun item => (Text.fields item).head?) = new.map fun t => some t.field
  sortable : ∀ t ∈ new, Sortable t
  nodup : (new.map fun t => t.field).Nodup
  fresh : ∀ t ∈ new, t.field ∉ validated
  added : ∀ t ∈ new, terms.lookup t.field = some t
  frame : ∀ field, (∀ t ∈ new, t.field ≠ field) → terms.lookup field = validated.lookup field

private theorem Adds.cons (hhead : (Text.fields item).head? = some t.field)
    (hnew : t.field ∉ validated) (hsortable : Sortable t)
    (h : Adds items (validated.insert t.field t) terms new) :
    Adds (item :: items) validated terms (t :: new) := by
  have hfresh : ∀ u ∈ new, u.field ≠ t.field ∧ u.field ∉ validated := by
    intro u hu
    simpa only [AList.mem_insert,not_or] using h.fresh u hu
  constructor
  · rw [List.map_cons,List.map_cons,hhead,h.heads]
  · exact List.forall_mem_cons.mpr ⟨hsortable,h.sortable⟩
  · rw [List.map_cons,List.nodup_cons]
    refine ⟨fun hmem => ?_,h.nodup⟩
    obtain ⟨u,hu,heq⟩ := List.mem_map.mp hmem
    exact (hfresh u hu).1 heq
  · exact List.forall_mem_cons.mpr ⟨hnew,fun u hu => (hfresh u hu).2⟩
  · refine List.forall_mem_cons.mpr ⟨?_,h.added⟩
    rw [h.frame t.field fun u hu => (hfresh u hu).1]
    exact AList.lookup_insert validated
  · intro field hne
    obtain ⟨ht,hrest⟩ := List.forall_mem_cons.mp hne
    rw [h.frame field hrest]
    exact AList.lookup_insert_ne ht.symm

private theorem validateTerms_ok (h : validateTerms items validated = .ok terms) :
    ∃ new, Adds items validated terms new := by
  induction items generalizing validated with
  | nil =>
    cases h
    exact ⟨[],rfl,by simp,List.nodup_nil,by simp,by simp,fun _ _ => rfl⟩
  | cons item items ih =>
    obtain ⟨t,hterm,hrest⟩ := ok_of_bind h
    obtain ⟨hhead,hnew,hsortable⟩ := validateTerm_ok hterm
    obtain ⟨new,hadds⟩ := ih hrest
    exact ⟨t :: new,hadds.cons hhead hnew hsortable⟩

/-- The produce pass finds the terms in the order of the items. -/
theorem produced (hheads : (items.map fun item => (Text.fields item).head?) =
      new.map fun t => some t.field) (hadded : ∀ t ∈ new, terms.lookup t.field = some t) :
    (items.filterMap fun item => (Text.fields item).head?.bind fun field => terms.lookup field) =
      new := by
  induction items generalizing new with
  | nil => exact (List.map_eq_nil_iff.mp hheads.symm).symm
  | cons item items ih =>
    cases new with
    | nil => simp at hheads
    | cons t new =>
      rw [List.map_cons,List.map_cons,List.cons.injEq] at hheads
      obtain ⟨ht,hrest⟩ := List.forall_mem_cons.mp hadded
      rw [List.filterMap_cons,hheads.1,Option.bind_some,ht]
      exact congrArg (t :: ·) (ih hheads.2 hrest)

private theorem sortable_tieBreaker : Sortable (memorySortTieBreaker.term false) :=
  ⟨memorySortTieBreaker,List.mem_cons_self,rfl⟩

/-- The tie-breaker completes a key that has no memory id. -/
theorem finalKey_complete (hsortable : ∀ t ∈ new, Sortable t)
    (hnodup : (new.map fun t => t.field).Nodup) :
    FinalKey (new ++ if memorySortTieBreaker.field ∈ new.map fun t => t.field then []
      else [memorySortTieBreaker.term false]) := by
  split
  · rename_i hmem
    rw [List.append_nil]
    exact ⟨hsortable,hnodup,hmem⟩
  · rename_i hmem
    constructor
    · intro t ht
      rcases List.mem_append.mp ht with ht | ht
      · exact hsortable t ht
      · exact List.mem_singleton.mp ht ▸ sortable_tieBreaker
    · rw [List.map_append,List.nodup_append]
      refine ⟨hnodup,List.nodup_singleton _,?_⟩
      intro a ha b hb hab
      have hb : b = memorySortTieBreaker.field := List.mem_singleton.mp hb
      exact hmem (hb ▸ hab ▸ ha)
    · rw [List.map_append]
      exact List.mem_append_right _ (List.mem_singleton.mpr rfl)

/-- An order that is accepted yields a final key. -/
theorem parseMemoryOrderBy_finalKey (h : parseMemoryOrderBy orderBy = .ok sort) :
    FinalKey sort := by
  unfold parseMemoryOrderBy at h
  split at h
  · cases h
    have hnone : ∀ t ∈ ([] : List MemorySortTerm), Sortable t := by simp
    exact finalKey_complete hnone List.nodup_nil
  · dsimp only at h
    cases hterms : validateTerms (Text.split orderBy ',') ∅ with
    | error message =>
      rw [hterms] at h
      cases h
    | ok terms =>
      rw [hterms] at h
      cases h
      obtain ⟨new,hadds⟩ := validateTerms_ok hterms
      have hmem : (terms.lookup memorySortTieBreaker.field).isSome ↔
          memorySortTieBreaker.field ∈ new.map fun t => t.field := by
        constructor
        · intro hsome
          by_contra hnot
          have hnone : terms.lookup memorySortTieBreaker.field = none := by
            apply hadds.frame
            intro t ht heq
            exact hnot (List.mem_map.mpr ⟨t,ht,heq⟩)
          rw [hnone] at hsome
          cases hsome
        · intro hmem
          obtain ⟨t,ht,heq⟩ := List.mem_map.mp hmem
          rw [← heq,hadds.added t ht]
          rfl
      rw [produceTerms,produced hadds.heads hadds.added]
      simp only [hmem]
      exact finalKey_complete hadds.sortable hadds.nodup

/-! ## Contexts -/

theorem FinalKey.ne_nil (h : FinalKey sort) : sort ≠ [] := by
  intro heq
  have hmem := h.identity
  rw [heq] at hmem
  cases hmem

private theorem wire_without_comma (h : Sortable t) :
    ',' ∉ (memorySortTermWire t).toList := by
  have hall : ∀ spec ∈ memorySortFieldSpecs, ∀ descending,
      ',' ∉ (memorySortTermWire (spec.term descending)).toList := by decide
  obtain ⟨spec,hspec,heq⟩ := h
  rw [heq]
  exact hall spec hspec t.descending

private theorem wire_ne_empty (h : Sortable t) :
    memorySortTermWire t ≠ "" := by
  have hall : ∀ spec ∈ memorySortFieldSpecs, ∀ descending,
      memorySortTermWire (spec.term descending) ≠ "" := by decide
  obtain ⟨spec,hspec,heq⟩ := h
  rw [heq]
  exact hall spec hspec t.descending

/-- The spelling of a term tells its field and its direction. -/
theorem wire_inj (h : Sortable t) (h' : Sortable t')
    (heq : memorySortTermWire t = memorySortTermWire t') : t = t' := by
  have hall : ∀ spec ∈ memorySortFieldSpecs, ∀ spec' ∈ memorySortFieldSpecs, ∀ d d',
      memorySortTermWire (spec.term d) = memorySortTermWire (spec'.term d') →
        spec.term d = spec'.term d' := by decide
  obtain ⟨spec,hspec,ht⟩ := h
  obtain ⟨spec',hspec',ht'⟩ := h'
  rw [ht,ht'] at heq ⊢
  exact hall spec hspec spec' hspec' _ _ heq

private theorem FinalKey.without_comma (h : FinalKey sort) :
    ∀ s ∈ sort.map memorySortTermWire, ',' ∉ s.toList := by
  intro s hs
  obtain ⟨t,ht,rfl⟩ := List.mem_map.mp hs
  exact wire_without_comma (h.sortable t ht)

/-- Final keys with the same context are the same. -/
theorem FinalKey.context_inj (h : FinalKey sort) (h' : FinalKey sort')
    (heq : memorySortContext sort = memorySortContext sort') : sort = sort' := by
  have hwires : sort.map memorySortTermWire = sort'.map memorySortTermWire := by
    apply Text.intercalate_inj h.without_comma h'.without_comma
    · simpa using h.ne_nil
    · simpa using h'.ne_nil
    · exact heq
  clear heq
  have hs := h.sortable
  have hs' := h'.sortable
  clear h h'
  induction sort generalizing sort' with
  | nil => exact (List.map_eq_nil_iff.mp hwires.symm).symm
  | cons t sort ih =>
    cases sort' with
    | nil => cases hwires
    | cons t' sort' =>
      rw [List.map_cons,List.map_cons,List.cons.injEq] at hwires
      have ht : t = t' := wire_inj (hs t List.mem_cons_self) (hs' t' List.mem_cons_self) hwires.1
      rw [ht,ih hwires.2 (fun s h => hs s (List.mem_cons_of_mem t h))
        fun s h => hs' s (List.mem_cons_of_mem t' h)]

theorem FinalKey.context_ne_empty (h : FinalKey sort) : memorySortContext sort ≠ "" := by
  intro hempty
  have hwires : sort.map memorySortTermWire = [""] := by
    apply Text.intercalate_inj h.without_comma (by simp) (by simpa using h.ne_nil)
    · decide
    · exact hempty
  have hmem : "" ∈ sort.map memorySortTermWire := hwires ▸ List.mem_singleton_self ""
  obtain ⟨t,ht,heq⟩ := List.mem_map.mp hmem
  exact wire_ne_empty (h.sortable t ht) heq

end Dominion.Memory
