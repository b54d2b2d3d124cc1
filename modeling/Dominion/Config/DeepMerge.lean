import Dominion.Framework.ObjectHeap

/-! # Deploy configs

A config entry is deep-merged over the defaults of a caller, by the SDK of Go and by that of
JavaScript: maps merge recursively, and every other value replaces the default. -/
namespace Dominion.Config

open Dominion.Framework

/-- A scalar key of a mapping; `ν` are the scalars that are not strings. -/
inductive Key (ν : Type) where
  | str (s : String)
  | other (value : ν)
  deriving DecidableEq

section merge

variable {ν σ : Type} [DecidableEq ν]

def Key.isStr : Key ν → Bool
  | .str _ => true
  | .other _ => false

/-- The parsers decode a mapping with these keys to a string-keyed map: `map[string]any`, or a
plain object; any other mapping becomes a general map. -/
def stringKeyed (ks : List (Key ν)) : Bool :=
  ks.all Key.isStr

/-- A mapping with string keys, as a config file has it at its top level. -/
structure Root (ν σ : Type) where
  fields : List (Key ν × Doc (Key ν) σ)
  stringKeyed : stringKeyed (fields.map Prod.fst) = true
  distinct : (Doc.map fields).Distinct

def Root.doc (r : Root ν σ) : Doc (Key ν) σ :=
  .map r.fields

/-! ## Go -/

/-- Both values are `map[string]any`. -/
def mergeIntoRules : Rules (Key ν) where
  merges := stringKeyed
  skips _ := false

/-- There is no result when a nil map is written to. -/
def mergeInto (h : Heap (Key ν) σ) (dst : Option Nat) (src : List (Key ν × Doc (Key ν) σ)) :
    Option (Heap (Key ν) σ) :=
  overlayObject mergeIntoRules h dst src

/-- The map of a document is a copy, no object of which is shared; that of a null document is
nil. -/
def defaultsMap (h : Heap (Key ν) σ) (defaults : Option (Root ν σ)) :
    Heap (Key ν) σ × Option Nat :=
  match defaults with
  | none => (h,none)
  | some d =>
    match alloc h d.doc with
    | (h',.object a) => (h',some a)
    | (h',.whole _) => (h',none)

/-- The merged map of `Read`, which is encoded and decoded to the caller's type. -/
def read (h : Heap (Key ν) σ) (defaults : Option (Root ν σ)) (cfg : Root ν σ) :
    Option (Heap (Key ν) σ × Option Nat) :=
  let defMap := defaultsMap h defaults
  (mergeInto defMap.1 defMap.2 cfg.fields).map fun h' => (h',defMap.2)

/-! ## JavaScript -/

def pollutingKeys : List String :=
  ["__proto__","constructor","prototype"]

def isPolluting : Key ν → Bool
  | .str s => decide (s ∈ pollutingKeys)
  | .other _ => false

/-- Both values are plain objects. -/
def deepMergeRules : Rules (Key ν) where
  merges := stringKeyed
  skips := isPolluting

def deepMerge (h : Heap (Key ν) σ) (target : Option Nat)
    (source : List (Key ν × Doc (Key ν) σ)) : Option (Heap (Key ν) σ) :=
  overlayObject deepMergeRules h target source

/-- The merged object, over `structuredClone` of the defaults. -/
def readConfig (h : Heap (Key ν) σ) (defaults cfg : Root ν σ) :
    Option (Heap (Key ν) σ × Option Nat) :=
  let base := defaultsMap h (some defaults)
  (deepMerge base.1 base.2 cfg.fields).map fun h' => (h',base.2)

/-! ## One law -/

/-- The merged trees of both languages. -/
def mergedBy (R : Rules (Key ν)) (d c : Doc (Key ν) σ) : Doc (Key ν) σ :=
  overlay R (some d) c

/-- The config without the polluting keys of its mappings that are merged. -/
def unpolluted (d c : Doc (Key ν) σ) : Doc (Key ν) σ :=
  prune deepMergeRules (some d) c

/-- Every default that is to be kept is below mappings that, where both have one, are string-keyed
in both. -/
def KeptBelowStringKeys (d c : Doc (Key ν) σ) : Prop :=
  ∀ p, c.Spared p → d.atPath p ≠ none → Mergeable mergeIntoRules (some d) c p

/-- What the config has below polluting keys that are passed over, the defaults have as well. -/
def PollutingRepeats (d c : Doc (Key ν) σ) : Prop :=
  ∀ p, (unpolluted d c).Spared p → ¬c.Spared p → c.Repeats d p

/-- What is asked of the merged trees of the two languages. -/
structure OneLaw (d c goTree jsTree : Doc (Key ν) σ) : Prop where
  go : Doc.RightUnion c d goTree
  js : Doc.RightUnion c d jsTree
  same : goTree.Same jsTree

/-- The object has been made, and nothing that was there has changed. -/
def Makes (h : Heap (Key ν) σ) (result : Option (Heap (Key ν) σ × Option Nat))
    (t : Doc (Key ν) σ) : Prop :=
  ∃ h' a f, result = some (h',some a) ∧ Holds h' (.object a) t f ∧
    ∀ v t g, Holds h v t g → Holds h' v t g

variable {h : Heap (Key ν) σ} {d c : Root ν σ} {R : Rules (Key ν)}

private theorem mergedBy_root (hR : R.merges = stringKeyed) :
    mergedBy R d.doc c.doc = .map (overlayFields R d.fields c.fields) := by
  have hmerged : Merged R (some d.doc) c.fields d.fields := by
    refine ⟨rfl,?_⟩
    rw [hR,c.stringKeyed,d.stringKeyed]
    rfl
  exact (overlay_merged hmerged).1

private theorem makes_merged (hR : R.merges = stringKeyed) : Makes h
    ((overlayObject R (defaultsMap h (some d)).1 (defaultsMap h (some d)).2 c.fields).map
      fun h' => (h',(defaultsMap h (some d)).2)) (mergedBy R d.doc c.doc) := by
  obtain ⟨a,h',f,hcopy,hlaid,hheld,hkept⟩ := overlayObject_copy R h d.fields c.fields
  have hmap : defaultsMap h (some d) = ((alloc h d.doc).1,some a) := by
    unfold defaultsMap
    dsimp only
    rw [Root.doc]
    generalize alloc h (Doc.map d.fields) = copied at hcopy
    obtain ⟨h₁,v⟩ := copied
    cases hcopy
    rfl
  rw [hmap,mergedBy_root hR]
  dsimp only
  rw [Root.doc,hlaid]
  refine ⟨h',a,f,rfl,hheld,?_⟩
  intro v t g hv
  exact hv.frame fun x hx => hkept x (hv.lt_length hx)

omit [DecidableEq ν] in
private theorem stringKeyed_sublist (ks ks' : List (Key ν)) (hsub : ks'.Sublist ks)
    (h : stringKeyed ks = true) : stringKeyed ks' = true := by
  unfold stringKeyed at h ⊢
  rw [List.all_eq_true] at h ⊢
  intro k hk
  exact h k (hsub.subset hk)

private theorem prune_mergeIntoRules (t : Option (Doc (Key ν) σ)) (v : Doc (Key ν) σ) :
    prune mergeIntoRules t v = v :=
  prune_of_skips_false (fun _ => rfl) t v

private theorem go_rightUnion : Doc.RightUnion c.doc d.doc (mergedBy mergeIntoRules d.doc c.doc) ↔
    KeptBelowStringKeys d.doc c.doc := by
  have hiff := rightUnion_iff (R := mergeIntoRules) (d := d.doc) c.distinct
  rw [prune_mergeIntoRules] at hiff
  refine hiff.trans ⟨fun h => h.1,fun h => ⟨h,?_⟩⟩
  intro p hp hne
  exact absurd hp hne

/-- JavaScript merges at least the mappings that Go merges. -/
theorem mergeable_deepMerge {t : Option (Doc (Key ν) σ)} {v : Doc (Key ν) σ} {p : List (Key ν)}
    (h : Mergeable mergeIntoRules t v p) : Mergeable deepMergeRules t v p := by
  intro q hq hne _ fs ds hfs hds
  exact h q hq hne (fun _ _ => rfl) fs ds hfs hds

private theorem js_rightUnion (h : KeptBelowStringKeys d.doc c.doc) :
    Doc.RightUnion c.doc d.doc (mergedBy deepMergeRules d.doc c.doc) ↔
      PollutingRepeats d.doc c.doc := by
  have hiff := rightUnion_iff (R := deepMergeRules) (d := d.doc) c.distinct
  refine hiff.trans ⟨fun hjs => hjs.2,fun hp => ⟨?_,hp⟩⟩
  intro p hspared hne
  exact mergeable_deepMerge (h p hspared hne)

/-- JavaScript merges what Go merges of a config without the polluting keys. -/
theorem mergedBy_unpolluted : mergedBy deepMergeRules d.doc c.doc =
    mergedBy mergeIntoRules d.doc (unpolluted d.doc c.doc) :=
  overlay_prune (R := deepMergeRules) stringKeyed_sublist c.doc (some d.doc) c.distinct

/-- Both SDKs merge a config over the defaults into a new object and change nothing else.  They
follow the one law just when the defaults to be kept are below string-keyed maps, and the config
repeats the defaults below the polluting keys that JavaScript passes over. -/
theorem configs_merge (h : Heap (Key ν) σ) (d c : Root ν σ) :
    Makes h (read h (some d) c) (mergedBy mergeIntoRules d.doc c.doc) ∧
    Makes h (readConfig h d c) (mergedBy deepMergeRules d.doc c.doc) ∧
    (OneLaw d.doc c.doc (mergedBy mergeIntoRules d.doc c.doc)
        (mergedBy deepMergeRules d.doc c.doc) ↔
      KeptBelowStringKeys d.doc c.doc ∧ PollutingRepeats d.doc c.doc) := by
  refine ⟨makes_merged rfl,makes_merged rfl,?_⟩
  constructor
  · intro hlaw
    have hkept := go_rightUnion.mp hlaw.go
    exact ⟨hkept,(js_rightUnion hkept).mp hlaw.js⟩
  · rintro ⟨hkept,hrepeats⟩
    have hgo := go_rightUnion.mpr hkept
    have hjs := (js_rightUnion hkept).mpr hrepeats
    exact ⟨hgo,hjs,hgo.same hjs⟩

end merge

/-! ## Two configs -/

/-- Defaults below a mapping of numbers. -/
def numberedDefaults : Root Nat Nat where
  fields := [(.str "m",.map [(.other 1,.scalar 10),(.other 2,.scalar 20)])]
  stringKeyed := rfl
  distinct := by
    apply Doc.Distinct.map (by decide)
    simp only [List.mem_singleton,forall_eq]
    apply Doc.Distinct.map (by decide)
    simp [Doc.Distinct.scalar]

def numberedConfig : Root Nat Nat where
  fields := [(.str "m",.map [(.other 1,.scalar 11)])]
  stringKeyed := rfl
  distinct := by
    apply Doc.Distinct.map (by decide)
    simp only [List.mem_singleton,forall_eq]
    apply Doc.Distinct.map (by decide)
    simp [Doc.Distinct.scalar]

/-- Both languages drop the default of the number 2. -/
theorem numbered_not_rightUnion :
    ¬OneLaw numberedDefaults.doc numberedConfig.doc
        (mergedBy mergeIntoRules numberedDefaults.doc numberedConfig.doc)
        (mergedBy deepMergeRules numberedDefaults.doc numberedConfig.doc) ∧
      ¬Doc.RightUnion numberedConfig.doc numberedDefaults.doc
        (mergedBy mergeIntoRules numberedDefaults.doc numberedConfig.doc) ∧
      ¬Doc.RightUnion numberedConfig.doc numberedDefaults.doc
        (mergedBy deepMergeRules numberedDefaults.doc numberedConfig.doc) := by
  have hspared : numberedConfig.doc.Spared [.str "m",.other 2] := by
    unfold Root.doc
    rw [Doc.spared_map]
    intro t ht
    cases ht
    rw [Doc.spared_map]
    intro t ht
    cases ht
  have hgo : ¬Doc.RightUnion numberedConfig.doc numberedDefaults.doc
      (mergedBy mergeIntoRules numberedDefaults.doc numberedConfig.doc) := by
    intro h
    have hkept := h.kept [.str "m",.other 2] hspared
    cases hkept
  refine ⟨fun h => hgo h.go,hgo,?_⟩
  intro h
  have hkept := h.kept [.str "m",.other 2] hspared
  cases hkept

end Dominion.Config
