import Dominion.Memory.Truth

/-! # A batch against its single calls

The single calls choose among entries in the order of their ids, the batch in the order of its
working copy, where the entries that it added come last. -/
namespace Dominion.Memory

open Dominion.Framework

/-- The call that makes one operation. -/
def MemoryOp.call (op : MemoryOp) : MemoryToolArgs where
  action := some op.action
  content := op.content
  old_text := op.old_text

/-- The texts that say that an operation was done, or had been. -/
def successTexts : List String :=
  [addedText,replacedText,removedText,dedupeText]

def Succeeds (answer : Except RpcError String) : Prop :=
  ∃ text ∈ successTexts, answer = .ok text

/-- The collection after the single calls, one by one. -/
def oneByOne (s : Collection) : List MemoryOp → Collection
  | [] => s
  | op :: ops => oneByOne (applyMemoryCall s op.call).1 ops

/-- Some single call does not succeed in its turn. -/
def SomeFails (s : Collection) : List MemoryOp → Prop
  | [] => False
  | op :: ops =>
    ¬Succeeds (applyMemoryCall s op.call).2 ∨ SomeFails (applyMemoryCall s op.call).1 ops

/-- The answer to a batch that is refused. -/
def refusedText (s : Collection) (position : Nat) (reason : String) : String :=
  "memory: " ++ ("operation " ++ toString position) ++ " failed: " ++ reason ++
    ". No operations were applied. Current entries:\n" ++ renderEntries s.listMemories

/-- The answer to a batch that is applied. -/
def appliedText (count : Nat) : String :=
  "memory: applied " ++ toString count ++ " operation(s)"

/-- A batch is refused without a write if some of its single calls fails, and otherwise ends with
their entries. -/
structure Refines (s : Collection) (ops : List MemoryOp) : Prop where
  refused : SomeFails s ops → (applyBatch s ops).1 = s ∧
    ∃ position reason, (applyBatch s ops).2 = .ok (refusedText s position reason)
  applied : ¬SomeFails s ops →
    (applyBatch s ops).1.listMemories = (oneByOne s ops).listMemories ∧
      (ops ≠ [] → ∃ count, (applyBatch s ops).2 = .ok (appliedText count))

namespace MemoryOp

/-- The content of the operation is neither empty nor too long. -/
def Sized (op : MemoryOp) : Prop :=
  Ecma.trim (op.content.getD "") ≠ "" ∧
    countRunes (Ecma.trim (op.content.getD "")) ≤ memoryContentMaxRunes

/-- The old text of the operation names an entry. -/
def Finds (op : MemoryOp) (entries : List MemoryEntry) : Prop :=
  (matchBySubstring entries (op.old_text.getD "")).isOk = true

/-- The operation can be done on the entries. -/
def Passes (op : MemoryOp) (entries : List MemoryEntry) : Prop :=
  match op.action with
  | .add => op.Sized
  | .replace => op.Sized ∧ op.Finds entries
  | .remove => op.Finds entries
  | .unknown _ => False

/-- The first of the matching entries is the same in both orders, or is replaced by what it says
anyway. -/
def Settled (op : MemoryOp) (entries : List MemoryEntry) : Prop :=
  ∀ e e', matchBySubstring entries (op.old_text.getD "") = .ok e →
    matchBySubstring (Collection.listMemories entries) (op.old_text.getD "") = .ok e' →
    match op.action with
    | .replace => e = e' ∨ e.content = Ecma.trim (op.content.getD "")
    | .remove => e = e'
    | _ => True

end MemoryOp

/-- Up to the first operation that cannot be done, every `add` is of a text that is held or whose id
is free, and the entry of every old text is the same in both orders. -/
def Aligned : List MemoryEntry → List MemoryOp → Prop
  | _,[] => True
  | entries,op :: ops => op.Passes entries →
      (op.action = .add → Recalls entries (Ecma.trim (op.content.getD ""))) ∧ op.Settled entries ∧
        Aligned (op.effect entries) ops

section orders

variable {s t : Collection} {entries entries' : List MemoryEntry} {e e' : MemoryEntry}
  {old : String}

private theorem eq_of_ids (hids : (entries.map MemoryEntry.memory_id).Nodup) (he : e ∈ entries)
    (he' : e' ∈ entries) (hid : e.memory_id = e'.memory_id) : e = e' :=
  List.inj_on_of_nodup_map hids he he' hid

private theorem listMemories_congr (hids : (s.map MemoryEntry.memory_id).Nodup) (h : s.Perm t) :
    s.listMemories = t.listMemories := by
  have hperm : s.listMemories.Perm t.listMemories :=
    s.listMemories_perm.trans (h.trans t.listMemories_perm.symm)
  apply hperm.eq_of_pairwise _ (List.pairwise_insertionSort _ _) (List.pairwise_insertionSort _ _)
  intro a b ha hb hab hba
  apply eq_of_ids hids (Collection.mem_listMemories.mp ha)
  · exact h.mem_iff.mpr (Collection.mem_listMemories.mp hb)
  · exact String.le_antisymm hab hba

private theorem perm_of_listMemories (h : s.listMemories = t.listMemories) : s.Perm t := by
  have hperm := s.listMemories_perm.symm
  rw [h] at hperm
  exact hperm.trans t.listMemories_perm

private theorem matchBySubstring_ok (h : matchBySubstring entries old = .ok e) :
    Ecma.trim old ≠ "" ∧ e ∈ entries ∧ includes e.content (Ecma.trim old) = true ∧
      ∀ x ∈ entries, includes x.content (Ecma.trim old) = true → x.content = e.content := by
  have hmem := mem_of_matchBySubstring h
  unfold matchBySubstring at h
  dsimp only at h
  split at h
  · cases h
  · rename_i hempty
    cases hhits : entries.filter fun x => includes x.content (Ecma.trim old) with
    | nil =>
      rw [hhits] at h
      cases h
    | cons hit hits =>
      rw [hhits] at h
      dsimp only at h
      split at h
      · rename_i hall
        cases h
        have hin : e ∈ entries.filter fun x => includes x.content (Ecma.trim old) := by
          rw [hhits]
          exact List.mem_cons_self
        refine ⟨hempty,hmem,(List.mem_filter.mp hin).2,?_⟩
        intro x hx hincludes
        have hx' : x ∈ e :: hits := hhits ▸ List.mem_filter.mpr ⟨hx,hincludes⟩
        rcases List.mem_cons.mp hx' with hxe | hxe
        · rw [hxe]
        · exact of_decide_eq_true (List.all_eq_true.mp hall x hxe)
      · cases h

private theorem matchBySubstring_isOk : (matchBySubstring entries old).isOk = true ↔
    Ecma.trim old ≠ "" ∧ ∃ e ∈ entries, includes e.content (Ecma.trim old) = true ∧
      ∀ x ∈ entries, includes x.content (Ecma.trim old) = true → x.content = e.content := by
  constructor
  · intro h
    cases hmatch : matchBySubstring entries old with
    | error error =>
      rw [hmatch] at h
      cases h
    | ok e =>
      obtain ⟨hempty,hfound⟩ := matchBySubstring_ok hmatch
      exact ⟨hempty,e,hfound⟩
  · intro h
    obtain ⟨hempty,e,he,hincludes,hsame⟩ := h
    have hin : e ∈ entries.filter fun x => includes x.content (Ecma.trim old) :=
      List.mem_filter.mpr ⟨he,hincludes⟩
    unfold matchBySubstring
    dsimp only
    rw [if_neg hempty]
    cases hhits : entries.filter fun x => includes x.content (Ecma.trim old) with
    | nil =>
      rw [hhits] at hin
      cases hin
    | cons hit hits =>
      have hcontent : ∀ x ∈ hit :: hits, x.content = e.content := by
        intro x hx
        rw [← hhits] at hx
        exact hsame x (List.mem_filter.mp hx).1 (List.mem_filter.mp hx).2
      have hall : (hits.all fun x => x.content = hit.content) = true := by
        apply List.all_eq_true.mpr
        intro x hx
        apply decide_eq_true
        rw [hcontent x (List.mem_cons_of_mem _ hx),hcontent hit List.mem_cons_self]
      dsimp only
      rw [if_pos hall]
      rfl

private theorem isOk_congr (h : entries.Perm entries') :
    (matchBySubstring entries old).isOk = (matchBySubstring entries' old).isOk := by
  rw [Bool.eq_iff_iff,matchBySubstring_isOk,matchBySubstring_isOk]
  simp only [h.mem_iff]

private theorem passes_congr {op : MemoryOp} (h : entries.Perm entries') :
    op.Passes entries ↔ op.Passes entries' := by
  unfold MemoryOp.Passes MemoryOp.Finds
  rw [isOk_congr h]

private theorem map_replace_same (hids : (entries.map MemoryEntry.memory_id).Nodup)
    (he : e ∈ entries) {text : String} (hsame : e.content = text) :
    (entries.map fun x => if x.memory_id = e.memory_id then { x with content := text } else x) =
      entries := by
  conv_rhs => rw [← List.map_id entries]
  apply List.map_congr_left
  intro x hx
  by_cases hid : x.memory_id = e.memory_id
  · have hxe := eq_of_ids hids hx he hid
    simp [hxe,← hsame]
  · rw [if_neg hid]
    rfl

/-- Replacing one of two entries that say the same, or the other, comes to the same only if it
changes nothing. -/
theorem map_perm_iff (hids : (entries.map MemoryEntry.memory_id).Nodup) (he : e ∈ entries)
    (he' : e' ∈ entries) (hsame : e'.content = e.content) (text : String) :
    (entries.map fun x => if x.memory_id = e.memory_id then { x with content := text } else x).Perm
      (entries.map fun x => if x.memory_id = e'.memory_id then { x with content := text } else x) ↔
      e = e' ∨ e.content = text := by
  constructor
  · intro hperm
    by_contra hdiff
    obtain ⟨hne,htext⟩ := not_or.mp hdiff
    have hid : e.memory_id ≠ e'.memory_id := fun hid => hne (eq_of_ids hids he he' hid)
    have hkept : e ∈ entries.map fun x =>
        if x.memory_id = e'.memory_id then { x with content := text } else x :=
      List.mem_map.mpr ⟨e,he,if_neg hid⟩
    obtain ⟨x,-,hx⟩ := List.mem_map.mp (hperm.mem_iff.mpr hkept)
    by_cases hxid : x.memory_id = e.memory_id
    · rw [if_pos hxid] at hx
      exact htext (congrArg MemoryEntry.content hx).symm
    · rw [if_neg hxid] at hx
      exact hxid (congrArg MemoryEntry.memory_id hx)
  · intro h
    rcases h with heq | htext
    · rw [heq]
    · rw [map_replace_same hids he htext,map_replace_same hids he' (hsame.trans htext)]

private theorem filter_perm_iff (hids : (entries.map MemoryEntry.memory_id).Nodup)
    (he : e ∈ entries) (he' : e' ∈ entries) :
    (entries.filter fun x => x.memory_id ≠ e.memory_id).Perm
      (entries.filter fun x => x.memory_id ≠ e'.memory_id) ↔ e = e' := by
  constructor
  · intro hperm
    by_contra hne
    have hkept : e ∈ entries.filter fun x => x.memory_id ≠ e'.memory_id :=
      List.mem_filter.mpr ⟨he,decide_eq_true fun hid => hne (eq_of_ids hids he he' hid)⟩
    have hgone := (List.mem_filter.mp (hperm.mem_iff.mpr hkept)).2
    simp at hgone
  · intro h
    rw [h]

private theorem exists_match {op : MemoryOp} (hfinds : op.Finds entries) :
    ∃ e e', matchBySubstring entries (op.old_text.getD "") = .ok e ∧
      matchBySubstring (Collection.listMemories entries) (op.old_text.getD "") = .ok e' ∧
      e ∈ entries ∧ e' ∈ entries ∧ e'.content = e.content := by
  have hlisted : (matchBySubstring (Collection.listMemories entries)
      (op.old_text.getD "")).isOk = true := by
    rw [isOk_congr (Collection.listMemories_perm entries)]
    exact hfinds
  unfold MemoryOp.Finds at hfinds
  cases hmatch : matchBySubstring entries (op.old_text.getD "") with
  | error error =>
    rw [hmatch] at hfinds
    cases hfinds
  | ok e =>
    cases hmatch' : matchBySubstring (Collection.listMemories entries) (op.old_text.getD "") with
    | error error =>
      rw [hmatch'] at hlisted
      cases hlisted
    | ok e' =>
      obtain ⟨-,he,-,hsame⟩ := matchBySubstring_ok hmatch
      obtain ⟨-,he',hincludes,-⟩ := matchBySubstring_ok hmatch'
      have hmem := Collection.mem_listMemories.mp he'
      exact ⟨e,e',rfl,rfl,he,hmem,hsame e' hmem hincludes⟩

/-- The effects in the two orders are the same exactly if the operation is settled. -/
theorem effect_perm_iff {op : MemoryOp} (hids : (entries.map MemoryEntry.memory_id).Nodup)
    (hpasses : op.Passes entries) :
    (op.effect entries).Perm (op.effect (Collection.listMemories entries)) ↔
      op.Settled entries := by
  have hlisted := Collection.listMemories_perm entries
  cases haction : op.action with
  | add =>
    have hany : ((Collection.listMemories entries).any fun x =>
        x.content = Ecma.trim (op.content.getD "")) =
        entries.any fun x => x.content = Ecma.trim (op.content.getD "") := hlisted.any_eq
    simp only [MemoryOp.effect,MemoryOp.Settled,haction,implies_true,iff_true,hany]
    split
    · exact hlisted.symm
    · exact hlisted.symm.append_right _
  | replace =>
    simp only [MemoryOp.Passes,haction] at hpasses
    obtain ⟨e,e',hmatch,hmatch',he,he',hsame⟩ := exists_match hpasses.2
    have hmap := hlisted.map fun x =>
      if x.memory_id = e'.memory_id then { x with content := Ecma.trim (op.content.getD "") } else x
    have hiff := map_perm_iff hids he he' hsame (Ecma.trim (op.content.getD ""))
    simp only [MemoryOp.effect,MemoryOp.Settled,haction,hmatch,hmatch',Except.ok.injEq]
    constructor
    · rintro hperm x x' rfl rfl
      exact hiff.mp (hperm.trans hmap)
    · intro h
      exact (hiff.mpr (h e e' rfl rfl)).trans hmap.symm
  | remove =>
    simp only [MemoryOp.Passes,haction] at hpasses
    obtain ⟨e,e',hmatch,hmatch',he,he',hsame⟩ := exists_match hpasses
    have hfilter := hlisted.filter fun x => x.memory_id ≠ e'.memory_id
    have hiff := filter_perm_iff hids he he'
    simp only [MemoryOp.effect,MemoryOp.Settled,haction,hmatch,hmatch',Except.ok.injEq]
    constructor
    · rintro hperm x x' rfl rfl
      exact hiff.mp (hperm.trans hfilter)
    · intro h
      exact (hiff.mpr (h e e' rfl rfl)).trans hfilter.symm
  | unknown name =>
    simp [MemoryOp.Passes,haction] at hpasses

end orders

/-! ## One operation -/

section one

variable {s : Collection} {entries : List MemoryEntry} {op : MemoryOp}

private theorem finds_iff : op.Finds entries ↔
    ∃ e, matchBySubstring entries (op.old_text.getD "") = .ok e := by
  unfold MemoryOp.Finds
  cases matchBySubstring entries (op.old_text.getD "") <;> simp [Except.isOk,Except.toBool]

private theorem old_text_ne (h : op.Finds entries) : Ecma.trim (op.old_text.getD "") ≠ "" :=
  (matchBySubstring_isOk.mp h).1

/-- The preflight passes exactly the operations that can be done on the working copy. -/
theorem preflightOp_iff (i : Nat) :
    (∃ r, preflightOp entries i op = .ok r) ↔ op.Passes entries := by
  unfold preflightOp MemoryOp.Passes MemoryOp.Sized
  cases op.action with
  | add =>
    by_cases hempty : Ecma.trim (op.content.getD "") = ""
    · simp [hempty]
    · by_cases hlong : countRunes (Ecma.trim (op.content.getD "")) > memoryContentMaxRunes
      · simp [hempty,hlong,Nat.not_le.mpr hlong]
      · by_cases hheld : (entries.any fun e => e.content = Ecma.trim (op.content.getD "")) = true
        · simp [hempty,hlong,hheld,Nat.not_lt.mp hlong]
        · simp [hempty,hlong,hheld,Nat.not_lt.mp hlong]
  | replace =>
    by_cases hold : Ecma.trim (op.old_text.getD "") = ""
    · have hnone : ¬op.Finds entries := fun h => old_text_ne h hold
      simp [hold,hnone]
    · by_cases hempty : Ecma.trim (op.content.getD "") = ""
      · simp [hempty,hold]
      · by_cases hlong : countRunes (Ecma.trim (op.content.getD "")) > memoryContentMaxRunes
        · simp [hold,hempty,hlong,Nat.not_le.mpr hlong]
        · rw [finds_iff]
          cases hmatch : matchBySubstring entries (op.old_text.getD "") <;>
            simp [hold,hempty,hlong,Nat.not_lt.mp hlong,hmatch]
  | remove =>
    by_cases hold : Ecma.trim (op.old_text.getD "") = ""
    · have hnone : ¬op.Finds entries := fun h => old_text_ne h hold
      simp [hold,hnone]
    · rw [finds_iff]
      cases hmatch : matchBySubstring entries (op.old_text.getD "") <;> simp [hold,hmatch]
  | unknown name => simp

private theorem not_succeeds {text : String} (h : text.toList.take 7 = "memory:".toList) :
    ¬Succeeds (.ok text) := by
  rintro ⟨success,hmem,heq⟩
  obtain rfl := Except.ok.inj heq
  have hnone : ∀ t ∈ successTexts, t.toList.take 7 ≠ "memory:".toList := by decide
  exact hnone _ hmem h

private theorem matchBySubstring_head {old error : String}
    (h : matchBySubstring entries old = .error error) :
    error.toList.take 7 = "memory:".toList := by
  unfold matchBySubstring at h
  dsimp only at h
  split at h
  · cases h
    exact head_append (by decide) _
  · split at h
    · cases h
      simp only [String.append_assoc]
      exact head_append (by decide) _
    · split at h
      · cases h
      · cases h
        simp only [String.append_assoc]
        exact head_append (by decide) _

private theorem call_fails (h : ¬op.Passes s.listMemories) :
    ∃ text, applyMemoryCall s op.call = (s,.ok text) ∧ ¬Succeeds (.ok text) := by
  have hsized : ¬op.Sized → Ecma.trim (op.content.getD "") = "" ∨
      countRunes (Ecma.trim (op.content.getD "")) > memoryContentMaxRunes := by
    intro hsized
    by_contra hboth
    obtain ⟨hempty,hlong⟩ := not_or.mp hboth
    exact hsized ⟨hempty,Nat.not_lt.mp hlong⟩
  have hmiss : ¬op.Finds s.listMemories →
      ∃ error, matchBySubstring s.listMemories (op.old_text.getD "") = .error error := by
    intro hnone
    cases hmatch : matchBySubstring s.listMemories (op.old_text.getD "") with
    | error error => exact ⟨error,rfl⟩
    | ok e => exact absurd (finds_iff.mpr ⟨e,hmatch⟩) hnone
  unfold MemoryOp.Passes at h
  unfold applyMemoryCall MemoryOp.call
  cases haction : op.action with
  | add =>
    rw [haction] at h
    dsimp only [applyAdd]
    by_cases hempty : Ecma.trim (op.content.getD "") = ""
    · rw [if_pos hempty]
      exact ⟨_,rfl,not_succeeds (by decide)⟩
    · rw [if_neg hempty,if_pos ((hsized h).resolve_left hempty)]
      exact ⟨_,rfl,not_succeeds (contentLimitText_head _)⟩
  | replace =>
    rw [haction] at h
    dsimp only [applyReplace]
    by_cases hempty : Ecma.trim (op.content.getD "") = ""
    · rw [if_pos hempty]
      exact ⟨_,rfl,not_succeeds (by decide)⟩
    · rw [if_neg hempty]
      by_cases hlong : countRunes (Ecma.trim (op.content.getD "")) > memoryContentMaxRunes
      · rw [if_pos hlong]
        exact ⟨_,rfl,not_succeeds (contentLimitText_head _)⟩
      · obtain ⟨error,herror⟩ := hmiss fun hfinds => h ⟨⟨hempty,Nat.not_lt.mp hlong⟩,hfinds⟩
        rw [if_neg hlong,herror]
        exact ⟨error,rfl,not_succeeds (matchBySubstring_head herror)⟩
  | remove =>
    rw [haction] at h
    obtain ⟨error,herror⟩ := hmiss h
    dsimp only [applyRemove]
    rw [herror]
    exact ⟨error,rfl,not_succeeds (matchBySubstring_head herror)⟩
  | unknown name => exact ⟨_,rfl,not_succeeds (by decide)⟩

/-- The single call of an operation that can be done takes its effect on the listed entries, unless
it adds a text whose id is taken. -/
theorem call_passes (h : op.Passes s.listMemories) :
    Succeeds (applyMemoryCall s op.call).2 ∧
      ((op.action = .add → Recalls s (Ecma.trim (op.content.getD ""))) →
        (applyMemoryCall s op.call).1.Perm (op.effect s.listMemories)) := by
  have hlisted := s.listMemories_perm.symm
  have hsuccess : ∀ text ∈ successTexts, Succeeds (.ok text) := fun text htext => ⟨text,htext,rfl⟩
  unfold MemoryOp.Passes at h
  unfold applyMemoryCall MemoryOp.call MemoryOp.effect
  cases haction : op.action with
  | add =>
    rw [haction] at h
    obtain ⟨hempty,hlong⟩ := h
    dsimp only [applyAdd]
    rw [if_neg hempty,if_neg (Nat.not_lt.mpr hlong)]
    by_cases hheld : (s.listMemories.any fun e => e.content = Ecma.trim (op.content.getD "")) = true
    · rw [if_pos hheld,if_pos hheld]
      exact ⟨hsuccess _ (by simp [successTexts]),fun _ => hlisted⟩
    · rw [if_neg hheld,if_neg hheld,createMemory_generate hlong]
      by_cases htaken : (s.any fun e =>
          e.memory_id = generateMemoryId (Ecma.trim (op.content.getD ""))) = true
      · rw [if_pos htaken]
        refine ⟨hsuccess _ (by simp [successTexts]),fun hrecalls => ?_⟩
        exfalso
        rcases hrecalls rfl with ⟨e,he,hcontent⟩ | hfree
        · exact hheld (List.any_eq_true.mpr ⟨e,Collection.mem_listMemories.mpr he,by simpa⟩)
        · obtain ⟨e,he,hid⟩ := List.any_eq_true.mp htaken
          exact hfree e he (of_decide_eq_true hid)
      · rw [if_neg htaken]
        exact ⟨hsuccess _ (by simp [successTexts]),fun _ => hlisted.append_right _⟩
  | replace =>
    rw [haction] at h
    obtain ⟨⟨hempty,hlong⟩,hfinds⟩ := h
    obtain ⟨e,hmatch⟩ := finds_iff.mp hfinds
    have he := Collection.mem_listMemories.mp (mem_of_matchBySubstring hmatch)
    dsimp only [applyReplace]
    rw [if_neg hempty,if_neg (Nat.not_lt.mpr hlong),hmatch]
    dsimp only
    rw [updateMemory_mem hlong he]
    exact ⟨hsuccess _ (by simp [successTexts]),fun _ => hlisted.map _⟩
  | remove =>
    rw [haction] at h
    obtain ⟨e,hmatch⟩ := finds_iff.mp h
    have he := Collection.mem_listMemories.mp (mem_of_matchBySubstring hmatch)
    dsimp only [applyRemove]
    rw [hmatch]
    dsimp only
    rw [deleteMemory_mem he]
    exact ⟨hsuccess _ (by simp [successTexts]),fun _ => hlisted.filter _⟩
  | unknown name =>
    rw [haction] at h
    exact h.elim

end one

/-! ## The operations of a batch -/

section lockstep

variable {s s' : Collection} {entries : List MemoryEntry} {op : MemoryOp} {ops : List MemoryOp}

/-- The batch at its operation `i`, for the collection of the single calls and that of the commit
phase. -/
def Agrees (entries : List MemoryEntry) (i : Nat) (ops : List MemoryOp) (s s' : Collection)
    (applied : List Nat) : Prop :=
  match preflight entries i ops with
  | .error _ => SomeFails s ops
  | .ok (_,writes) => ¬SomeFails s ops ∧ (commit s' applied writes).2 = .ok () ∧
      (commit s' applied writes).1.Perm (oneByOne s ops)

private theorem agrees_nil (i : Nat) (applied : List Nat) :
    Agrees entries i [] s s' applied ↔ s'.Perm s := by
  simp [Agrees,preflight,SomeFails,oneByOne,commit]

private theorem agrees_fails (i : Nat) (applied : List Nat) (hs : s.Perm entries)
    (h : ¬op.Passes entries) : Agrees entries i (op :: ops) s s' applied := by
  have hfails : ¬op.Passes s.listMemories := by
    rw [passes_congr (s.listMemories_perm.trans hs)]
    exact h
  obtain ⟨text,hcall,htext⟩ := call_fails hfails
  cases hop : preflightOp entries i op with
  | ok r => exact absurd ((preflightOp_iff i).mp ⟨r,hop⟩) h
  | error reason =>
    unfold Agrees preflight
    rw [hop]
    left
    rw [hcall]
    exact htext

private theorem someFails_cons (h : Succeeds (applyMemoryCall s op.call).2) :
    SomeFails s (op :: ops) ↔ SomeFails (applyMemoryCall s op.call).1 ops :=
  or_iff_right (not_not.mpr h)

private theorem call_of_passes (hids : (entries.map MemoryEntry.memory_id).Nodup)
    (hs : s.Perm entries) (h : op.Passes entries) :
    Succeeds (applyMemoryCall s op.call).2 ∧
      ((op.action = .add → Recalls entries (Ecma.trim (op.content.getD ""))) →
        (applyMemoryCall s op.call).1.Perm (op.effect (Collection.listMemories entries))) := by
  have hids' : (s.map MemoryEntry.memory_id).Nodup := (hs.map _).nodup_iff.mpr hids
  have hpasses := (passes_congr (s.listMemories_perm.trans hs)).mpr h
  obtain ⟨hsuccess,heffect⟩ := call_passes hpasses
  refine ⟨hsuccess,fun hrecalls => ?_⟩
  rw [← listMemories_congr hids' hs]
  apply heffect
  intro hadd
  have hheld := hrecalls hadd
  simpa only [Recalls,hs.mem_iff] using hheld

private theorem agrees_cons (i : Nat) (applied : List Nat)
    (hids : (entries.map MemoryEntry.memory_id).Nodup) (hs : s.Perm entries)
    (hs' : s'.Perm entries) (h : op.Passes entries)
    (hrecalls : op.action = .add → Recalls entries (Ecma.trim (op.content.getD ""))) :
    ∃ t t' applied', t.Perm (op.effect (Collection.listMemories entries)) ∧
      t'.Perm (op.effect entries) ∧ ((op.effect entries).map MemoryEntry.memory_id).Nodup ∧
      ∀ ops, Agrees entries i (op :: ops) s s' applied ↔
        Agrees (op.effect entries) (i + 1) ops t t' applied' := by
  obtain ⟨⟨working,write⟩,hop⟩ := (preflightOp_iff i).mpr h
  obtain rfl := (preflightOp_ok hids hop).1
  obtain ⟨hids',t',ht',hcommit⟩ := commit_step hids hs' hop hrecalls
  obtain ⟨applied',hcommit⟩ := hcommit applied
  obtain ⟨hsuccess,heffect⟩ := call_of_passes hids hs h
  refine ⟨_,t',applied',heffect hrecalls,ht',hids',fun ops => ?_⟩
  unfold Agrees
  rw [preflight,hop]
  cases hrest : preflight (op.effect entries) (i + 1) ops with
  | error failure =>
    dsimp only
    rw [hrest]
    exact someFails_cons hsuccess
  | ok r =>
    dsimp only
    rw [hrest]
    dsimp only
    rw [someFails_cons hsuccess,hcommit,oneByOne]

/-- An `add` whose id is taken by another text stops the commit phase. -/
theorem not_agrees_taken (i : Nat) (applied : List Nat)
    (hids : (entries.map MemoryEntry.memory_id).Nodup) (hs' : s'.Perm entries)
    (h : op.Passes entries) (hadd : op.action = .add)
    (htaken : ¬Recalls entries (Ecma.trim (op.content.getD ""))) :
    ¬Agrees entries i [op] s s' applied := by
  obtain ⟨⟨working,write⟩,hop⟩ := (preflightOp_iff i).mpr h
  have hstops := commit_taken hids hs' hop hadd htaken applied []
  intro hagrees
  unfold Agrees at hagrees
  rw [preflight,hop] at hagrees
  exact hstops hagrees.2.1

/-- The sides agree after every operation exactly if the operations are aligned. -/
theorem agrees_iff (i : Nat) (applied : List Nat)
    (hids : (entries.map MemoryEntry.memory_id).Nodup) (hs : s.Perm entries)
    (hs' : s'.Perm entries) :
    (∀ k, Agrees entries i (ops.take k) s s' applied) ↔ Aligned entries ops := by
  induction ops generalizing entries i s s' applied with
  | nil =>
    simp only [List.take_nil,agrees_nil,Aligned,iff_true]
    exact fun _ => hs'.trans hs.symm
  | cons op ops ih =>
    by_cases hpasses : op.Passes entries
    · by_cases hrecalls : op.action = .add → Recalls entries (Ecma.trim (op.content.getD ""))
      · obtain ⟨t,t',applied',ht,ht',hids',hcons⟩ :=
          agrees_cons i applied hids hs hs' hpasses hrecalls
        have hsettled := effect_perm_iff hids hpasses
        constructor
        · intro h
          have hone := (agrees_nil (i + 1) applied').mp ((hcons []).mp (h 1))
          have hperm := (ht'.symm.trans hone).trans ht
          refine fun _ => ⟨hrecalls,hsettled.mp hperm,?_⟩
          apply (ih (i + 1) applied' hids' (ht.trans hperm.symm) ht').mp
          intro k
          exact (hcons (ops.take k)).mp (h (k + 1))
        · intro h k
          obtain ⟨-,hone,hrest⟩ := h hpasses
          have hperm := hsettled.mpr hone
          cases k with
          | zero => exact (agrees_nil i applied).mpr (hs'.trans hs.symm)
          | succ k =>
            rw [List.take_succ_cons,hcons]
            exact (ih (i + 1) applied' hids' (ht.trans hperm.symm) ht').mpr hrest k
      · obtain ⟨hadd,htaken⟩ := Classical.not_imp.mp hrecalls
        constructor
        · intro h
          exact absurd (h 1) (not_agrees_taken i applied hids hs' hpasses hadd htaken)
        · intro h
          exact absurd (h hpasses).1 hrecalls
    · constructor
      · intro _ hyes
        exact absurd hyes hpasses
      · intro _ k
        cases k with
        | zero => exact (agrees_nil i applied).mpr (hs'.trans hs.symm)
        | succ k => exact agrees_fails i applied hs hpasses

private theorem preflight_error {i : Nat} {failure : String × String}
    (h : preflight entries i ops = .error failure) :
    ∃ (position : Nat) (reason : String), failure = ("operation " ++ toString position,reason) := by
  induction ops generalizing entries i with
  | nil => cases h
  | cons op ops ih =>
    unfold preflight at h
    split at h
    · cases h
      exact ⟨_,_,rfl⟩
    · split at h
      · rename_i hrest
        cases h
        exact ih hrest
      · cases h

private theorem refusedText_ne (s : Collection) (position : Nat) (reason : String) (count : Nat) :
    refusedText s position reason ≠ appliedText count := by
  intro h
  have hninth := congrArg (fun t => t.toList[8]?) h
  unfold refusedText appliedText at hninth
  simp [String.toList_append] at hninth

private theorem applyBatch_of_error {failure : String × String}
    (h : preflight s.listMemories 0 ops = .error failure) :
    ∃ position reason, applyBatch s ops = (s,.ok (refusedText s position reason)) := by
  obtain ⟨position,reason,rfl⟩ := preflight_error h
  have hne : ops ≠ [] := by
    rintro rfl
    cases h
  unfold applyBatch
  rw [if_neg hne]
  dsimp only
  rw [h]
  exact ⟨position,reason,rfl⟩

private theorem applyBatch_of_ok {final : List MemoryEntry} {writes : List Write} (hne : ops ≠ [])
    (h : preflight s.listMemories 0 ops = .ok (final,writes)) :
    applyBatch s ops = ((commit s [] writes).1,
      (commit s [] writes).2.map fun _ => appliedText writes.length) := by
  unfold applyBatch
  rw [if_neg hne]
  dsimp only
  rw [h]
  dsimp only
  split
  · rename_i hcommit
    rw [hcommit]
    rfl
  · rename_i hcommit
    rw [hcommit]
    rfl

private theorem refines_iff (hids : (s.map MemoryEntry.memory_id).Nodup) :
    Refines s ops ↔ Agrees s.listMemories 0 ops s s [] := by
  unfold Agrees
  cases hpre : preflight s.listMemories 0 ops with
  | error failure =>
    obtain ⟨position,reason,hbatch⟩ := applyBatch_of_error hpre
    dsimp only
    constructor
    · intro h
      by_contra hnone
      obtain ⟨-,hanswer⟩ := h.applied hnone
      have hne : ops ≠ [] := by
        rintro rfl
        cases hpre
      obtain ⟨count,hcount⟩ := hanswer hne
      rw [hbatch] at hcount
      exact refusedText_ne s position reason count (Except.ok.inj hcount)
    · intro hfails
      refine ⟨fun _ => ?_,fun hnone => absurd hfails hnone⟩
      rw [hbatch]
      exact ⟨rfl,position,reason,rfl⟩
  | ok r =>
    obtain ⟨final,writes⟩ := r
    dsimp only
    by_cases hne : ops = []
    · subst hne
      cases hpre
      refine ⟨fun _ => ⟨not_false,rfl,.rfl⟩,fun _ => ⟨False.elim,fun _ => ⟨rfl,?_⟩⟩⟩
      exact fun hne => absurd rfl hne
    · have hbatch := applyBatch_of_ok hne hpre
      constructor
      · intro h
        have hnone : ¬SomeFails s ops := by
          intro hfails
          obtain ⟨-,position,reason,hanswer⟩ := h.refused hfails
          rw [hbatch] at hanswer
          cases hcommit : (commit s [] writes).2 with
          | error error =>
            rw [hcommit] at hanswer
            cases hanswer
          | ok u =>
            rw [hcommit] at hanswer
            exact refusedText_ne s position reason _ (Except.ok.inj hanswer).symm
        obtain ⟨hsame,hanswer⟩ := h.applied hnone
        obtain ⟨count,hcount⟩ := hanswer hne
        rw [hbatch] at hsame hcount
        refine ⟨hnone,?_,perm_of_listMemories hsame⟩
        cases hcommit : (commit s [] writes).2 with
        | error error =>
          rw [hcommit] at hcount
          cases hcount
        | ok u => rfl
      · intro h
        obtain ⟨hnone,hok,hperm⟩ := h
        refine ⟨fun hfails => absurd hfails hnone,fun _ => ?_⟩
        rw [hbatch,hok]
        exact ⟨listMemories_congr (nodup_commit [] writes hids) hperm,fun _ => ⟨_,rfl⟩⟩

end lockstep

/-! ## A commit phase that fails -/

/-- The commit phase when `call` answers the RPCs of the writes. -/
def commitWith (call : Write → Collection → Except RpcError Collection) (s : Collection)
    (applied : List Nat) : List Write → Collection × Except RpcError Unit
  | [] => (s,.ok ())
  | write :: writes =>
    match call write s with
    | .ok s' => commitWith call s' (applied ++ [write.opIndex + 1]) writes
    | .error error =>
      if applied = [] then (s,.error error)
      else
        let noun := if applied.length = 1 then "operation" else "operations"
        let verb := if applied.length = 1 then "was" else "were"
        (s,.error ⟨none,error.message ++ "; " ++ noun ++ " " ++ formatAppliedPositions applied ++
          " " ++ verb ++ " applied before the failure"⟩)

/-- The RPCs of the writes succeed, one after the other. -/
inductive Calls (call : Write → Collection → Except RpcError Collection) :
    Collection → List Write → Collection → Prop
  | nil (s : Collection) : Calls call s [] s
  | cons {s t s' : Collection} {write : Write} {writes : List Write} :
      call write s = .ok t → Calls call t writes s' → Calls call s (write :: writes) s'

/-- The positions from the first to the second. -/
def positionsOf (run : Nat × Nat) : List Nat :=
  List.range' run.1 (run.2 + 1 - run.1)

def runText (run : Nat × Nat) : String :=
  if run.1 = run.2 then toString run.1 else toString run.1 ++ "-" ++ toString run.2

/-- The text lists exactly the positions, as runs. -/
def ListsPositions (text : String) (positions : List Nat) : Prop :=
  ∃ runs : List (Nat × Nat), text = ", ".intercalate (runs.map runText) ∧
    runs.flatMap positionsOf = positions ∧ ∀ run ∈ runs, run.1 ≤ run.2

/-- What a batch reports whose RPC fails: the error, and the positions of the operations whose RPCs
had succeeded. -/
def Reports (s : Collection) (ops : List MemoryOp) : Prop :=
  ∀ final writes, preflight s.listMemories 0 ops = .ok (final,writes) →
    (writes.map Write.opIndex).Sublist (List.range ops.length) ∧
    (∀ write ∈ writes, ∃ op working r, ops[write.opIndex]? = some op ∧
      preflightOp working write.opIndex op = .ok (r,some write)) ∧
    ∀ call s' error, commitWith call s [] writes = (s',.error error) →
      ∃ done failed rest reason, writes = done ++ failed :: rest ∧ Calls call s done s' ∧
        call failed s' = .error reason ∧ (done = [] → error = reason) ∧
        (done ≠ [] → ∃ text noun verb,
          ListsPositions text (done.map fun write => write.opIndex + 1) ∧
          error.message = reason.message ++ "; " ++ noun ++ " " ++ text ++ " " ++ verb ++
            " applied before the failure")

section reports

variable {s s' : Collection} {entries final : List MemoryEntry} {ops : List MemoryOp}
  {writes : List Write} {call : Write → Collection → Except RpcError Collection} {error : RpcError}

theorem commit_eq (s : Collection) (applied : List Nat) (writes : List Write) :
    commit s applied writes = commitWith (fun write s => write.apply s) s applied writes := by
  induction writes generalizing s applied with
  | nil => rfl
  | cons write writes ih =>
    unfold commit commitWith
    cases write.apply s with
    | ok t => exact ih t _
    | error error => rfl

private theorem range'_snoc {start last : Nat} (h : start ≤ last) :
    positionsOf (start,last + 1) = positionsOf (start,last) ++ [last + 1] := by
  unfold positionsOf
  have hcount : last + 1 + 1 - start = last + 1 - start + 1 := by omega
  have hlast : start + (last + 1 - start) = last + 1 := by omega
  rw [hcount,List.range'_1_concat,hlast]

private theorem formatRuns_lists (positions : List Nat) {start last : Nat} (h : start ≤ last) :
    ∃ runs : List (Nat × Nat), formatRuns start last positions = runs.map runText ∧
      runs.flatMap positionsOf = positionsOf (start,last) ++ positions ∧
      ∀ run ∈ runs, run.1 ≤ run.2 := by
  induction positions generalizing start last with
  | nil => exact ⟨[(start,last)],rfl,by simp,by simpa using h⟩
  | cons position positions ih =>
    unfold formatRuns
    by_cases hnext : position = last + 1
    · obtain ⟨runs,htext,hall,hordered⟩ := ih (Nat.le_succ_of_le h)
      rw [if_pos hnext,hnext]
      refine ⟨runs,htext,?_,hordered⟩
      rw [hall,range'_snoc h,List.append_assoc,List.singleton_append]
    · obtain ⟨runs,htext,hall,hordered⟩ := ih (Nat.le_refl position)
      rw [if_neg hnext,htext]
      refine ⟨(start,last) :: runs,rfl,?_,?_⟩
      · rw [List.flatMap_cons,hall]
        simp [positionsOf]
      · intro run hrun
        rcases List.mem_cons.mp hrun with heq | hmem
        · rw [heq]
          exact h
        · exact hordered run hmem

private theorem formatAppliedPositions_lists {positions : List Nat} (h : positions ≠ []) :
    ListsPositions (formatAppliedPositions positions) positions := by
  cases positions with
  | nil => exact absurd rfl h
  | cons position positions =>
    obtain ⟨runs,htext,hall,hordered⟩ := formatRuns_lists positions (Nat.le_refl position)
    refine ⟨runs,?_,?_,hordered⟩
    · rw [formatAppliedPositions,htext]
    · rw [hall]
      simp [positionsOf]

private theorem preflightOp_index {i : Nat} {op : MemoryOp} {r : List MemoryEntry} {write : Write}
    (h : preflightOp entries i op = .ok (r,some write)) : write.opIndex = i := by
  unfold preflightOp at h
  dsimp only at h
  split at h
  · split_ifs at h
    · cases h
    · cases h
      rfl
  · split_ifs at h
    split at h
    · cases h
    · cases h
      rfl
  · split_ifs at h
    split at h
    · cases h
    · cases h
      rfl
  · cases h

private theorem preflight_writes {i : Nat} (h : preflight entries i ops = .ok (final,writes)) :
    (writes.map Write.opIndex).Sublist (List.range' i ops.length) ∧
      ∀ write ∈ writes, ∃ op working r, i ≤ write.opIndex ∧ ops[write.opIndex - i]? = some op ∧
        preflightOp working write.opIndex op = .ok (r,some write) := by
  induction ops generalizing entries i final writes with
  | nil =>
    cases h
    exact ⟨List.nil_sublist _,fun write hwrite => nomatch hwrite⟩
  | cons op ops ih =>
    unfold preflight at h
    split at h
    · cases h
    · rename_i working first hop
      split at h
      · cases h
      · rename_i final' later hrest
        cases h
        obtain ⟨hsublist,hlater⟩ := ih hrest
        have hshift : ∀ write ∈ later, ∃ op' working r, i ≤ write.opIndex ∧
            (op :: ops)[write.opIndex - i]? = some op' ∧
            preflightOp working write.opIndex op' = .ok (r,some write) := by
          intro write hwrite
          obtain ⟨op',working,r,hle,hop',hpasses⟩ := hlater write hwrite
          have hindex : write.opIndex - i = write.opIndex - (i + 1) + 1 := by omega
          refine ⟨op',working,r,by omega,?_,hpasses⟩
          rw [hindex,List.getElem?_cons_succ]
          exact hop'
        rw [List.length_cons,List.range'_succ]
        cases first with
        | none => exact ⟨hsublist.cons i,hshift⟩
        | some write =>
          have hfirst := preflightOp_index hop
          constructor
          · rw [Option.toList_some,List.singleton_append,List.map_cons,hfirst]
            exact hsublist.cons_cons i
          · intro write' hwrite'
            rcases List.mem_cons.mp hwrite' with heq | hmem
            · subst heq
              refine ⟨op,entries,_,by omega,?_,hfirst ▸ hop⟩
              rw [hfirst,Nat.sub_self]
              rfl
            · exact hshift write' hmem

private theorem commitWith_error {applied : List Nat}
    (h : commitWith call s applied writes = (s',.error error)) :
    ∃ done failed rest reason, writes = done ++ failed :: rest ∧ Calls call s done s' ∧
      call failed s' = .error reason ∧
      ∀ positions, positions = applied ++ done.map (fun write => write.opIndex + 1) →
        (positions = [] → error = reason) ∧
        (positions ≠ [] → ∃ noun verb, error.message = reason.message ++ "; " ++ noun ++ " " ++
          formatAppliedPositions positions ++ " " ++ verb ++ " applied before the failure") := by
  induction writes generalizing s applied with
  | nil => cases h
  | cons write writes ih =>
    unfold commitWith at h
    cases hcall : call write s with
    | ok t =>
      rw [hcall] at h
      obtain ⟨done,failed,rest,reason,rfl,hdone,hfailed,hmessage⟩ := ih h
      refine ⟨write :: done,failed,rest,reason,rfl,.cons hcall hdone,hfailed,?_⟩
      intro positions hpositions
      apply hmessage
      rw [hpositions,List.map_cons,List.append_assoc,List.singleton_append]
    | error reason =>
      rw [hcall] at h
      dsimp only at h
      refine ⟨[],write,writes,reason,rfl,?_⟩
      by_cases hnone : applied = []
      · rw [if_pos hnone] at h
        cases h
        refine ⟨.nil _,hcall,fun positions hpositions => ⟨fun _ => rfl,fun hne => absurd ?_ hne⟩⟩
        rw [hpositions,hnone]
        rfl
      · rw [if_neg hnone] at h
        cases h
        refine ⟨.nil _,hcall,fun positions hpositions => ?_⟩
        rw [List.map_nil,List.append_nil] at hpositions
        rw [hpositions]
        exact ⟨fun hempty => absurd hempty hnone,fun _ => ⟨_,_,rfl⟩⟩

private theorem reports (s : Collection) (ops : List MemoryOp) : Reports s ops := by
  intro final writes hpre
  obtain ⟨hsublist,hwrites⟩ := preflight_writes hpre
  rw [List.range_eq_range']
  refine ⟨hsublist,?_,?_⟩
  · intro write hwrite
    obtain ⟨op,working,r,-,hop,hpasses⟩ := hwrites write hwrite
    exact ⟨op,working,r,hop,hpasses⟩
  · intro call s' error h
    obtain ⟨done,failed,rest,reason,hsplit,hdone,hfailed,hmessage⟩ := commitWith_error h
    obtain ⟨hfirst,hlater⟩ := hmessage _ rfl
    rw [List.nil_append] at hfirst hlater
    refine ⟨done,failed,rest,reason,hsplit,hdone,hfailed,?_,?_⟩
    · intro hnone
      exact hfirst (by rw [hnone]; rfl)
    · intro hsome
      have hne : done.map (fun write => write.opIndex + 1) ≠ [] := by simpa using hsome
      obtain ⟨noun,verb,htext⟩ := hlater hne
      exact ⟨_,noun,verb,formatAppliedPositions_lists hne,htext⟩

end reports

/-! ## The batch -/

/-- Every batch and every beginning of it refines its single calls exactly if no operation adds a
text under an id that is taken by another, nor names one of several entries that say the same.  A
commit phase that fails reports the operations that were applied. -/
theorem batch_refines_iff (s : Collection) (ops : List MemoryOp)
    (hids : (s.map MemoryEntry.memory_id).Nodup) :
    (Aligned s.listMemories ops → Refines s ops) ∧
      ((∀ k, Refines s (ops.take k)) ↔ Aligned s.listMemories ops) ∧ Reports s ops := by
  have hlisted : (s.listMemories.map MemoryEntry.memory_id).Nodup :=
    (s.listMemories_perm.map _).nodup_iff.mpr hids
  have hiff : (∀ k, Refines s (ops.take k)) ↔ Aligned s.listMemories ops := by
    rw [← agrees_iff 0 [] hlisted s.listMemories_perm.symm s.listMemories_perm.symm]
    exact forall_congr' fun k => refines_iff hids
  refine ⟨fun haligned => ?_,hiff,reports s ops⟩
  have hall := hiff.mpr haligned ops.length
  rw [List.take_length] at hall
  exact hall

/-- One entry, another one added, and the first one removed. -/
theorem batch_refines_iff_demo :
    Refines [⟨"0","tea"⟩] [⟨.add,some "milk",none⟩,⟨.remove,none,some "tea"⟩] := by
  apply (batch_refines_iff _ _ (by simp)).1
  intro _
  refine ⟨fun _ => by decide +kernel,fun _ _ _ _ => trivial,fun _ =>
    ⟨fun h => (by cases h),?_,trivial⟩⟩
  intro e e' he he'
  have hsame : matchBySubstring (MemoryOp.effect ⟨.add,some "milk",none⟩
      (Collection.listMemories [⟨"0","tea"⟩])) "tea" = .ok ⟨"0","tea"⟩ := by decide
  have hsame' : matchBySubstring (Collection.listMemories (MemoryOp.effect ⟨.add,some "milk",none⟩
      (Collection.listMemories [⟨"0","tea"⟩]))) "tea" = .ok ⟨"0","tea"⟩ := by decide +kernel
  exact Except.ok.inj (he.symm.trans (hsame.trans (hsame'.symm.trans he')))

/-- An entry that was replaced keeps the id of its first text: the single calls answer that text as
a duplicate, the batch stops in the middle of its writes. -/
theorem batch_stops_midway :
    ¬∀ (s : Collection) (ops : List MemoryOp), (s.map MemoryEntry.memory_id).Nodup →
      Refines s ops := by
  intro h
  have hrefines := h [⟨generateMemoryId "a","b"⟩] [⟨.add,some "c",none⟩,⟨.add,some "a",none⟩]
    (by simp)
  have hsingle : ¬SomeFails [⟨generateMemoryId "a","b"⟩]
      [⟨.add,some "c",none⟩,⟨.add,some "a",none⟩] := by
    rintro (hfirst | hsecond | hnone)
    · exact hfirst ⟨addedText,by simp [successTexts],by decide +kernel⟩
    · exact hsecond ⟨dedupeText,by simp [successTexts],by decide +kernel⟩
    · exact hnone
  have hbatch : applyBatch [⟨generateMemoryId "a","b"⟩]
      [⟨.add,some "c",none⟩,⟨.add,some "a",none⟩] =
      ([⟨generateMemoryId "a","b"⟩,⟨generateMemoryId "c","c"⟩],.error ⟨none,
        "resource already exists; operation 1 was applied before the failure"⟩) := by
    decide +kernel
  obtain ⟨-,hanswer⟩ := hrefines.applied hsingle
  obtain ⟨count,hcount⟩ := hanswer (List.cons_ne_nil _ _)
  rw [hbatch] at hcount
  cases hcount

end Dominion.Memory
