import Dominion.Framework.Lts
import Dominion.Memory.Operations

/-! # What the answers of the memory tool say

An id is the digest of the content at creation, and a replacement keeps it.  The tool tells the
truth exactly when it adds no text that was replaced since. -/
namespace Dominion.Memory

open Dominion.Framework

/-- The calls against one collection; ids are unique. -/
def memorySystem : Lts Collection MemoryToolArgs where
  init s := (s.map MemoryEntry.memory_id).Nodup
  step s args := some (applyMemoryCall s args).1

namespace MemoryToolArgs

/-- The call is a single `add` of a content. -/
def Adds (args : MemoryToolArgs) (content : String) : Prop :=
  args.action = some .add ∧ args.operations = none ∧ args.content.getD "" = content

/-- The call is a batch. -/
def Batches (args : MemoryToolArgs) (operations : List MemoryOp) : Prop :=
  args.action = none ∧ args.operations = some operations

end MemoryToolArgs

structure Truthful (s : Collection) (args : MemoryToolArgs) : Prop where
  add : ∀ content, args.Adds content →
    (applyMemoryCall s args).2 = .ok addedText ∨ (applyMemoryCall s args).2 = .ok dedupeText →
    ∃ e ∈ (applyMemoryCall s args).1, e.content = Ecma.trim content
  batch : ∀ operations, args.Batches operations → ∀ final writes,
    preflight s.listMemories 0 operations = .ok (final,writes) →
    (commit s [] writes).2 = .ok () ∧ (applyMemoryCall s args).1.Perm final

/-- A text is held, or no entry has its id. -/
def Recalls (entries : List MemoryEntry) (text : String) : Prop :=
  (∃ e ∈ entries, e.content = text) ∨ ∀ e ∈ entries, e.memory_id ≠ generateMemoryId text

instance (entries : List MemoryEntry) (text : String) : Decidable (Recalls entries text) :=
  inferInstanceAs (Decidable (_ ∨ _))

/-- What an operation makes of the entries. -/
def MemoryOp.effect (op : MemoryOp) (entries : List MemoryEntry) : List MemoryEntry :=
  let text := Ecma.trim (op.content.getD "")
  match op.action with
  | .add =>
    if entries.any fun e => e.content = text then entries
    else entries ++ [⟨generateMemoryId text,text⟩]
  | .replace =>
    match matchBySubstring entries (op.old_text.getD "") with
    | .ok entry =>
      entries.map fun e => if e.memory_id = entry.memory_id then { e with content := text } else e
    | .error _ => entries
  | .remove =>
    match matchBySubstring entries (op.old_text.getD "") with
    | .ok entry => entries.filter fun e => e.memory_id ≠ entry.memory_id
    | .error _ => entries
  | .unknown _ => entries

/-- Every `add`, at its turn, is of a text that is held or whose id is free. -/
def SafeOps : List MemoryEntry → List MemoryOp → Prop
  | _,[] => True
  | entries,op :: ops =>
    (op.action = .add → Recalls entries (Ecma.trim (op.content.getD ""))) ∧
      SafeOps (op.effect entries) ops

instance decidableSafeOps : (entries : List MemoryEntry) → (ops : List MemoryOp) →
    Decidable (SafeOps entries ops)
  | _,[] => .isTrue trivial
  | entries,op :: ops =>
    have := decidableSafeOps (op.effect entries) ops
    inferInstanceAs (Decidable (_ ∧ _))

structure Sound (s : Collection) (args : MemoryToolArgs) : Prop where
  add : ∀ content, args.Adds content → Ecma.trim content ≠ "" →
    countRunes (Ecma.trim content) ≤ memoryContentMaxRunes → Recalls s (Ecma.trim content)
  batch : ∀ operations, args.Batches operations → ∀ final writes,
    preflight s.listMemories 0 operations = .ok (final,writes) → SafeOps s.listMemories operations

/-! ## The service -/

section service

variable {s s' : Collection} {id content : String} {e : MemoryEntry}

private theorem validateMemoryID_generate (content : String) :
    validateMemoryID (generateMemoryId content) = .ok () := by
  have hlen := Sha256.hexDigest_length content
  have hne : generateMemoryId content ≠ "" := by
    intro he
    have htake := congrArg String.toList he
    simp only [generateMemoryId,String.toList_ofList,String.toList_empty] at htake
    have hzero := congrArg List.length htake
    rw [List.length_take,hlen] at hzero
    simp at hzero
  have hchars : ∀ c ∈ (generateMemoryId content).toList,
      (('a' ≤ c && c ≤ 'z') || ('0' ≤ c && c ≤ '9') || c == '_' || c == '-') = true := by
    intro c hc
    rw [generateMemoryId,String.toList_ofList] at hc
    rcases Sha256.isHex_of_mem_hexDigest (List.mem_of_mem_take hc) with ⟨hlo,hhi⟩ | ⟨hlo,hhi⟩
    · have hlast : 'f' ≤ 'z' := by decide
      have hz : c ≤ 'z' := Char.le_trans hhi hlast
      simp [hlo,hz]
    · simp [hlo,hhi]
  unfold validateMemoryID validateResourceId
  rw [if_pos ⟨hne,List.all_eq_true.mpr hchars⟩]

theorem createMemory_generate (hcontent : countRunes content ≤ memoryContentMaxRunes) :
    s.createMemory (generateMemoryId content) content =
      if s.any fun e => e.memory_id = generateMemoryId content then .error errAlreadyExists
      else .ok (s ++ [⟨generateMemoryId content,content⟩]) := by
  have hvalid : validateMemoryContent content = .ok () :=
    if_neg (Nat.not_lt.mpr hcontent)
  simp only [Collection.createMemory,validateMemoryID_generate,hvalid]

theorem updateMemory_mem (hcontent : countRunes content ≤ memoryContentMaxRunes) (he : e ∈ s) :
    s.updateMemory e.memory_id content =
      .ok (s.map fun x => if x.memory_id = e.memory_id then { x with content } else x) := by
  have hvalid : validateMemoryContent content = .ok () :=
    if_neg (Nat.not_lt.mpr hcontent)
  have hany : (s.any fun x => x.memory_id = e.memory_id) = true :=
    List.any_eq_true.mpr ⟨e,he,by simp⟩
  simp only [Collection.updateMemory,hvalid]
  rw [if_pos hany]

theorem deleteMemory_mem (he : e ∈ s) :
    s.deleteMemory e.memory_id = .ok (s.filter fun x => x.memory_id ≠ e.memory_id) :=
  if_pos (List.any_eq_true.mpr ⟨e,he,by simp⟩)

/-- The write calls keep the ids unique. -/
theorem nodup_createMemory (hids : (s.map MemoryEntry.memory_id).Nodup)
    (h : s.createMemory id content = .ok s') : (s'.map MemoryEntry.memory_id).Nodup := by
  unfold Collection.createMemory at h
  split at h
  · cases h
  · split at h
    · cases h
    · split at h
      · cases h
      · rename_i hany
        cases h
        have hfree : ∀ e ∈ s, e.memory_id ≠ id := by simpa using hany
        simpa [List.nodup_append] using ⟨hids,hfree⟩

private theorem map_ids (id content : String) :
    (s.map fun e => if e.memory_id = id then { e with content } else e).map MemoryEntry.memory_id =
      s.map MemoryEntry.memory_id := by
  rw [List.map_map]
  refine List.map_congr_left fun e _ => ?_
  by_cases he : e.memory_id = id <;> simp [he]

private theorem nodup_updateMemory (hids : (s.map MemoryEntry.memory_id).Nodup)
    (h : s.updateMemory id content = .ok s') : (s'.map MemoryEntry.memory_id).Nodup := by
  unfold Collection.updateMemory at h
  split at h
  · cases h
  · split at h
    · cases h
      rw [map_ids]
      exact hids
    · cases h

private theorem nodup_deleteMemory (hids : (s.map MemoryEntry.memory_id).Nodup)
    (h : s.deleteMemory id = .ok s') : (s'.map MemoryEntry.memory_id).Nodup := by
  unfold Collection.deleteMemory at h
  split at h
  · cases h
    exact hids.sublist (List.filter_sublist.map _)
  · cases h

end service

/-! ## The preflight and the commit phase -/

section batch

variable {entries final : List MemoryEntry} {e : MemoryEntry} {op : MemoryOp}

theorem mem_of_matchBySubstring {oldText : String} (h : matchBySubstring entries oldText = .ok e) :
    e ∈ entries := by
  unfold matchBySubstring at h
  dsimp only at h
  split at h
  · cases h
  · split at h
    · cases h
    · rename_i hit hits hfilter
      split at h
      · cases h
        have hmem : e ∈ entries.filter fun x => includes x.content (Ecma.trim oldText) := by
          rw [hfilter]
          exact List.mem_cons_self
        exact List.mem_of_mem_filter hmem
      · cases h

/-- With unique ids, the write at the found index is the write to the entry of that id. -/
theorem set_findIdx (hids : (entries.map MemoryEntry.memory_id).Nodup) (he : e ∈ entries)
    (content : String) :
    entries.set (entries.findIdx fun x => x.memory_id = e.memory_id) { e with content } =
      entries.map fun x => if x.memory_id = e.memory_id then { x with content } else x := by
  induction entries with
  | nil => cases he
  | cons x entries ih =>
    rw [List.map_cons,List.nodup_cons] at hids
    rw [List.findIdx_cons]
    rcases List.mem_cons.mp he with rfl | he
    · have hrest : ∀ y ∈ entries, y.memory_id ≠ e.memory_id := fun y hy hid =>
        hids.1 (hid ▸ List.mem_map_of_mem hy)
      have hsame : (entries.map fun y =>
          if y.memory_id = e.memory_id then { y with content } else y) = entries := by
        conv_rhs => rw [← List.map_id entries]
        exact List.map_congr_left fun y hy => by simp [hrest y hy]
      simp [hsame]
    · have hne : x.memory_id ≠ e.memory_id := fun hid => hids.1 (hid ▸ List.mem_map_of_mem he)
      simp [hne,ih hids.2 he]

private theorem eraseIdx_findIdx (hids : (entries.map MemoryEntry.memory_id).Nodup)
    (he : e ∈ entries) :
    entries.eraseIdx (entries.findIdx fun x => x.memory_id = e.memory_id) =
      entries.filter fun x => x.memory_id ≠ e.memory_id := by
  induction entries with
  | nil => cases he
  | cons x entries ih =>
    rw [List.map_cons,List.nodup_cons] at hids
    rw [List.findIdx_cons]
    rcases List.mem_cons.mp he with rfl | he
    · have hrest : ∀ y ∈ entries, y.memory_id ≠ e.memory_id := fun y hy hid =>
        hids.1 (hid ▸ List.mem_map_of_mem hy)
      have hall : entries.filter (fun y => y.memory_id ≠ e.memory_id) = entries :=
        List.filter_eq_self.mpr fun y hy => by simpa using hrest y hy
      simpa using hall.symm
    · have hne : x.memory_id ≠ e.memory_id := fun hid => hids.1 (hid ▸ List.mem_map_of_mem he)
      simp [hne,ih hids.2 he]

/-- An operation that passes takes its effect on the working copy, and queues the matching write. -/
theorem preflightOp_ok {i : Nat} {working : List MemoryEntry} {write : Option Write}
    (hids : (entries.map MemoryEntry.memory_id).Nodup)
    (h : preflightOp entries i op = .ok (working,write)) :
    working = op.effect entries ∧
    ((write = none ∧ op.effect entries = entries ∧
        ∃ e ∈ entries, op.action = .add ∧ e.content = Ecma.trim (op.content.getD "")) ∨
      (∃ content, write = some (.create (generateMemoryId content) content i) ∧
        op.action = .add ∧ content = Ecma.trim (op.content.getD "") ∧
        countRunes content ≤ memoryContentMaxRunes ∧ (∀ e ∈ entries, e.content ≠ content) ∧
        op.effect entries = entries ++ [⟨generateMemoryId content,content⟩]) ∨
      (∃ e ∈ entries, ∃ content, write = some (.update e.memory_id content i) ∧
        op.action ≠ .add ∧ countRunes content ≤ memoryContentMaxRunes ∧
        op.effect entries =
          entries.map fun x => if x.memory_id = e.memory_id then { x with content } else x) ∨
      ∃ e ∈ entries, write = some (.delete e.memory_id i) ∧ op.action ≠ .add ∧
        op.effect entries = entries.filter fun x => x.memory_id ≠ e.memory_id) := by
  unfold preflightOp at h
  cases haction : op.action with
  | add =>
    rw [haction] at h
    dsimp only at h
    split at h
    · cases h
    · split at h
      · cases h
      · rename_i hrunes
        split at h
        · rename_i hany
          cases h
          have heffect : op.effect entries = entries := by
            simp only [MemoryOp.effect,haction]
            exact if_pos hany
          obtain ⟨e,he,hcontent⟩ := List.any_eq_true.mp hany
          exact ⟨heffect.symm,Or.inl ⟨rfl,heffect,e,he,rfl,by simpa using hcontent⟩⟩
        · rename_i hany
          cases h
          have heffect : op.effect entries = entries ++
              [⟨generateMemoryId (Ecma.trim (op.content.getD "")),Ecma.trim (op.content.getD "")⟩] := by
            simp only [MemoryOp.effect,haction]
            exact if_neg hany
          have hnone : ∀ e ∈ entries, e.content ≠ Ecma.trim (op.content.getD "") := by
            simpa using hany
          exact ⟨heffect.symm,Or.inr (Or.inl ⟨_,rfl,rfl,rfl,Nat.not_lt.mp hrunes,hnone,heffect⟩)⟩
  | replace =>
    rw [haction] at h
    dsimp only at h
    split at h
    · cases h
    · split at h
      · cases h
      · split at h
        · cases h
        · rename_i hrunes
          split at h
          · cases h
          · rename_i e hmatch
            cases h
            have he := mem_of_matchBySubstring hmatch
            have heffect : op.effect entries = entries.map fun x =>
                if x.memory_id = e.memory_id then
                  { x with content := Ecma.trim (op.content.getD "") } else x := by
              simp only [MemoryOp.effect,haction,hmatch]
            have hset := set_findIdx hids he (Ecma.trim (op.content.getD ""))
            exact ⟨hset.trans heffect.symm,Or.inr (Or.inr (Or.inl
              ⟨e,he,_,rfl,by simp,Nat.not_lt.mp hrunes,heffect⟩))⟩
  | remove =>
    rw [haction] at h
    dsimp only at h
    split at h
    · cases h
    · split at h
      · cases h
      · rename_i e hmatch
        cases h
        have he := mem_of_matchBySubstring hmatch
        have heffect : op.effect entries = entries.filter fun x => x.memory_id ≠ e.memory_id := by
          simp only [MemoryOp.effect,haction,hmatch]
        have herase := eraseIdx_findIdx hids he
        exact ⟨herase.trans heffect.symm,Or.inr (Or.inr (Or.inr ⟨e,he,rfl,by simp,heffect⟩))⟩
  | unknown name =>
    rw [haction] at h
    cases h

private theorem commit_cons_ok {s s' : Collection} {write : Write} (h : write.apply s = .ok s')
    (applied : List Nat) (writes : List Write) :
    commit s applied (write :: writes) = commit s' (applied ++ [write.opIndex + 1]) writes := by
  simp only [commit,h]

private theorem commit_cons_error {s : Collection} {write : Write} {error : RpcError}
    (h : write.apply s = .error error) (applied : List Nat) (writes : List Write) :
    (commit s applied (write :: writes)).2 ≠ .ok () := by
  simp only [commit,h]
  split <;> simp

/-- The write of an operation takes the effect that the operation had on the working copy, unless
it adds a text whose id is taken. -/
theorem commit_step {i : Nat} {s : Collection} {working : List MemoryEntry} {write : Option Write}
    (hids : (entries.map MemoryEntry.memory_id).Nodup) (hperm : s.Perm entries)
    (h : preflightOp entries i op = .ok (working,write))
    (hrecalls : op.action = .add → Recalls entries (Ecma.trim (op.content.getD ""))) :
    ((op.effect entries).map MemoryEntry.memory_id).Nodup ∧
      ∃ s', s'.Perm (op.effect entries) ∧ ∀ applied, ∃ applied', ∀ rest,
        commit s applied (write.toList ++ rest) = commit s' applied' rest := by
  obtain ⟨-,hcase⟩ := preflightOp_ok hids h
  rcases hcase with ⟨rfl,heffect,-⟩ | ⟨content,rfl,hadd,rfl,hrunes,hnone,heffect⟩ |
    ⟨e,he,content,rfl,-,hrunes,heffect⟩ | ⟨e,he,rfl,-,heffect⟩
  · rw [heffect]
    exact ⟨hids,s,hperm,fun applied => ⟨applied,fun _ => rfl⟩⟩
  · have hfree : ∀ e ∈ entries,
        e.memory_id ≠ generateMemoryId (Ecma.trim (op.content.getD "")) := by
      apply (hrecalls hadd).resolve_left
      rintro ⟨e,he,hcontent⟩
      exact hnone e he hcontent
    have hany : ¬(s.any fun e => decide (e.memory_id =
        generateMemoryId (Ecma.trim (op.content.getD "")))) = true := by
      simpa using fun e he => hfree e (hperm.mem_iff.mp he)
    have hcreate := createMemory_generate (s := s) hrunes
    rw [if_neg hany] at hcreate
    have happly : (Write.create (generateMemoryId (Ecma.trim (op.content.getD "")))
        (Ecma.trim (op.content.getD "")) i).apply s = .ok _ := hcreate
    refine ⟨?_,_,?_,fun applied => ⟨_,commit_cons_ok happly applied⟩⟩
    · rw [heffect]
      simpa [List.nodup_append] using ⟨hids,hfree⟩
    · rw [heffect]
      exact hperm.append_right _
  · have happly : (Write.update e.memory_id content i).apply s = .ok _ :=
      updateMemory_mem hrunes (hperm.mem_iff.mpr he)
    refine ⟨?_,_,?_,fun applied => ⟨_,commit_cons_ok happly applied⟩⟩
    · rw [heffect,map_ids]
      exact hids
    · rw [heffect]
      exact hperm.map _
  · have happly : (Write.delete e.memory_id i).apply s = .ok _ :=
      deleteMemory_mem (hperm.mem_iff.mpr he)
    refine ⟨?_,_,?_,fun applied => ⟨_,commit_cons_ok happly applied⟩⟩
    · rw [heffect]
      exact hids.sublist (List.filter_sublist.map _)
    · rw [heffect]
      exact hperm.filter _

/-- An `add` of another text under an id that is taken stops the commit phase. -/
theorem commit_taken {i : Nat} {s : Collection} {working : List MemoryEntry} {write : Option Write}
    (hids : (entries.map MemoryEntry.memory_id).Nodup) (hperm : s.Perm entries)
    (h : preflightOp entries i op = .ok (working,write)) (hadd : op.action = .add)
    (htaken : ¬Recalls entries (Ecma.trim (op.content.getD ""))) (applied : List Nat)
    (rest : List Write) : (commit s applied (write.toList ++ rest)).2 ≠ .ok () := by
  obtain ⟨-,hcase⟩ := preflightOp_ok hids h
  obtain ⟨hnew,hheld⟩ := not_or.mp htaken
  rcases hcase with ⟨-,-,e,he,-,hcontent⟩ | ⟨content,rfl,-,rfl,hrunes,-⟩ | ⟨-,-,-,-,hother,-⟩ |
    ⟨-,-,-,hother,-⟩
  · exact absurd ⟨e,he,hcontent⟩ hnew
  · have hany : (s.any fun e => decide (e.memory_id =
        generateMemoryId (Ecma.trim (op.content.getD "")))) = true := by
      obtain ⟨e,he⟩ := not_forall.mp hheld
      obtain ⟨he,hid⟩ := Classical.not_imp.mp he
      exact List.any_eq_true.mpr ⟨e,hperm.mem_iff.mpr he,decide_eq_true (not_not.mp hid)⟩
    have happly : (Write.create (generateMemoryId (Ecma.trim (op.content.getD "")))
        (Ecma.trim (op.content.getD "")) i).apply s = .error errAlreadyExists := by
      rw [Write.apply,createMemory_generate hrunes,if_pos hany]
    exact commit_cons_error happly applied rest
  · exact absurd hadd hother
  · exact absurd hadd hother

/-- A commit phase after a passed preflight succeeds and ends at the working copy exactly when
every `add` is safe. -/
theorem commit_iff {ops : List MemoryOp} {i : Nat} {s : Collection} {applied : List Nat}
    {writes : List Write} (hids : (entries.map MemoryEntry.memory_id).Nodup)
    (hperm : s.Perm entries)
    (h : preflight entries i ops = .ok (final,writes)) :
    ((commit s applied writes).2 = .ok () ∧ (commit s applied writes).1.Perm final) ↔
      SafeOps entries ops := by
  induction ops generalizing entries i s applied writes final with
  | nil =>
    cases h
    simpa [commit,SafeOps] using hperm
  | cons op ops ih =>
    unfold preflight at h
    split at h
    · cases h
    · rename_i working write hop
      split at h
      · cases h
      · rename_i final' writes' hrest
        cases h
        obtain rfl := (preflightOp_ok hids hop).1
        by_cases hrecalls : op.action = .add → Recalls entries (Ecma.trim (op.content.getD ""))
        · obtain ⟨hids',s',hperm',hcommit⟩ := commit_step hids hperm hop hrecalls
          obtain ⟨applied',hcommit⟩ := hcommit applied
          rw [hcommit,SafeOps]
          exact (ih hids' hperm' hrest).trans (and_iff_right hrecalls).symm
        · obtain ⟨hadd,htaken⟩ := Classical.not_imp.mp hrecalls
          have hfails := commit_taken hids hperm hop hadd htaken applied writes'
          constructor
          · intro hok
            exact absurd hok.1 hfails
          · intro hsafe
            exact absurd hsafe.1 hrecalls

theorem nodup_commit {s : Collection} (applied : List Nat) (writes : List Write)
    (hids : (s.map MemoryEntry.memory_id).Nodup) :
    ((commit s applied writes).1.map MemoryEntry.memory_id).Nodup := by
  induction writes generalizing s applied with
  | nil => exact hids
  | cons write writes ih =>
    unfold commit
    split
    · rename_i s' happly
      refine ih _ ?_
      cases write with
      | create id content i => exact nodup_createMemory hids happly
      | update id content i => exact nodup_updateMemory hids happly
      | delete id i => exact nodup_deleteMemory hids happly
    · dsimp only
      split <;> exact hids

end batch

/-! ## Calls -/

section calls

variable {s : Collection} {args : MemoryToolArgs} {content : String}

private theorem nodup_applyAdd (hids : (s.map MemoryEntry.memory_id).Nodup) :
    ((applyAdd s content).1.map MemoryEntry.memory_id).Nodup := by
  unfold applyAdd
  dsimp only
  split_ifs
  · exact hids
  · exact hids
  · exact hids
  · split
    · rename_i s' hcreate
      exact nodup_createMemory hids hcreate
    · split_ifs <;> exact hids

private theorem nodup_applyReplace {oldText : String} (hids : (s.map MemoryEntry.memory_id).Nodup) :
    ((applyReplace s oldText content).1.map MemoryEntry.memory_id).Nodup := by
  unfold applyReplace
  dsimp only
  split_ifs
  · exact hids
  · exact hids
  · split
    · exact hids
    · split
      · rename_i s' hupdate
        exact nodup_updateMemory hids hupdate
      · exact hids

private theorem nodup_applyRemove {oldText : String} (hids : (s.map MemoryEntry.memory_id).Nodup) :
    ((applyRemove s oldText).1.map MemoryEntry.memory_id).Nodup := by
  unfold applyRemove
  split
  · exact hids
  · split
    · rename_i s' hdelete
      exact nodup_deleteMemory hids hdelete
    · exact hids

private theorem applyBatch_fst (operations : List MemoryOp) {final : List MemoryEntry}
    {writes : List Write} (h : preflight s.listMemories 0 operations = .ok (final,writes)) :
    (applyBatch s operations).1 = (commit s [] writes).1 := by
  unfold applyBatch
  split
  · rename_i hnil
    subst hnil
    cases h
    rfl
  · simp only [h]
    split <;> simp_all

private theorem nodup_applyBatch (operations : List MemoryOp)
    (hids : (s.map MemoryEntry.memory_id).Nodup) :
    ((applyBatch s operations).1.map MemoryEntry.memory_id).Nodup := by
  cases h : preflight s.listMemories 0 operations with
  | ok r =>
    rw [applyBatch_fst operations h]
    exact nodup_commit _ _ hids
  | error failure =>
    unfold applyBatch
    split
    · exact hids
    · simp only [h]
      exact hids

/-- Every call keeps the ids unique. -/
theorem nodup_reach (h : Lts.Reach memorySystem s) : (s.map MemoryEntry.memory_id).Nodup := by
  induction h with
  | init hs => exact hs
  | @step s s' args _ _ hstep ih =>
    cases hstep
    unfold applyMemoryCall
    split
    · exact ih
    · exact ih
    · exact nodup_applyBatch _ ih
    · exact nodup_applyAdd ih
    · exact nodup_applyReplace ih
    · exact nodup_applyRemove ih
    · exact ih

private theorem answer_ne {answer : String} (h : answer.toList.take 7 = "memory:".toList) :
    answer ≠ addedText ∧ answer ≠ dedupeText := by
  constructor
  · rintro rfl
    revert h
    decide
  · rintro rfl
    revert h
    decide

theorem head_append {text : String} (h : text.toList.take 7 = "memory:".toList) (rest : String) :
    (text ++ rest).toList.take 7 = "memory:".toList := by
  have hlength : 7 ≤ text.toList.length := by
    have hseven : (text.toList.take 7).length = 7 := by
      rw [h]
      decide
    rw [List.length_take] at hseven
    omega
  rw [String.toList_append,List.take_append_of_le_length hlength,h]

theorem contentLimitText_head (n : Nat) :
    (contentLimitText n).toList.take 7 = "memory:".toList := by
  unfold contentLimitText contentLimitSentence
  simp only [String.append_assoc]
  exact head_append (by decide) _

private theorem contentLimitText_ne (n : Nat) :
    contentLimitText n ≠ addedText ∧ contentLimitText n ≠ dedupeText :=
  answer_ne (contentLimitText_head n)

/-- An `add` tells the truth exactly when its text is held or its id is free. -/
theorem applyAdd_iff :
    ((applyAdd s content).2 = .ok addedText ∨ (applyAdd s content).2 = .ok dedupeText →
      ∃ e ∈ (applyAdd s content).1, e.content = Ecma.trim content) ↔
    (Ecma.trim content ≠ "" → countRunes (Ecma.trim content) ≤ memoryContentMaxRunes →
      Recalls s (Ecma.trim content)) := by
  unfold applyAdd
  dsimp only
  split_ifs with hempty hlong hany
  · have hne : emptyContentText ≠ addedText ∧ emptyContentText ≠ dedupeText :=
      answer_ne (by decide)
    simp [hempty,hne.1,hne.2]
  · have hne := contentLimitText_ne (countRunes (Ecma.trim content))
    simp [hne.1,hne.2,Nat.not_le.mpr hlong]
  · obtain ⟨e,he,hcontent⟩ := List.any_eq_true.mp hany
    have hheld : ∃ e ∈ s, e.content = Ecma.trim content :=
      ⟨e,Collection.mem_listMemories.mp he,by simpa using hcontent⟩
    exact ⟨fun _ _ _ => Or.inl hheld,fun _ _ => hheld⟩
  · have hnone : ∀ e ∈ s, e.content ≠ Ecma.trim content := by
      simpa using hany
    rw [createMemory_generate (Nat.not_lt.mp hlong)]
    by_cases hid : (s.any fun e => decide (e.memory_id = generateMemoryId (Ecma.trim content))) = true
    · rw [if_pos hid]
      have hrecalls : ¬Recalls s (Ecma.trim content) := by
        rintro (⟨e,he,hcontent⟩ | hfree)
        · exact hnone e he hcontent
        · obtain ⟨e,he,hheld⟩ := List.any_eq_true.mp hid
          exact hfree e he (by simpa using hheld)
      have hlost : ¬∃ e ∈ s, e.content = Ecma.trim content := fun ⟨e,he,hcontent⟩ =>
        hnone e he hcontent
      simp [errAlreadyExists,hrecalls,hlost,hempty,Nat.not_lt.mp hlong]
    · rw [if_neg hid]
      have hfree : ∀ e ∈ s, e.memory_id ≠ generateMemoryId (Ecma.trim content) := by
        simpa using hid
      constructor
      · exact fun _ _ _ => Or.inr hfree
      · intro _ _
        exact ⟨_,List.mem_append_right _ (List.mem_singleton.mpr rfl),rfl⟩

/-- A call tells the truth exactly when it adds no text that was replaced since. -/
theorem truthful_iff_sound (h : Lts.Reach memorySystem s) : Truthful s args ↔ Sound s args := by
  have hids := nodup_reach h
  have hlisted : (s.listMemories.map MemoryEntry.memory_id).Nodup :=
    (s.listMemories_perm.map _).nodup_iff.mpr hids
  have hadds : ∀ content, args.Adds content → applyMemoryCall s args = applyAdd s content := by
    rintro content ⟨haction,hoperations,hcontent⟩
    simp only [applyMemoryCall,haction,hoperations,hcontent]
  have hbatch : ∀ operations, args.Batches operations →
      ∀ final writes, preflight s.listMemories 0 operations = .ok (final,writes) →
      (((commit s [] writes).2 = .ok () ∧ (applyMemoryCall s args).1.Perm final) ↔
        SafeOps s.listMemories operations) := by
    rintro operations ⟨haction,hoperations⟩ final writes hpre
    have hcall : applyMemoryCall s args = applyBatch s operations := by
      simp only [applyMemoryCall,haction,hoperations]
    rw [hcall,applyBatch_fst operations hpre]
    exact commit_iff hlisted s.listMemories_perm.symm hpre
  constructor
  · intro ht
    refine ⟨fun content hc => ?_,fun operations hb final writes hpre => ?_⟩
    · have hadd := ht.add content hc
      rw [hadds content hc] at hadd
      exact applyAdd_iff.mp hadd
    · exact (hbatch operations hb final writes hpre).mp (ht.batch operations hb final writes hpre)
  · intro hs
    refine ⟨fun content hc => ?_,fun operations hb final writes hpre => ?_⟩
    · rw [hadds content hc]
      exact applyAdd_iff.mpr (hs.add content hc)
    · exact (hbatch operations hb final writes hpre).mpr (hs.batch operations hb final writes hpre)

/-- An `add`, a replacement and a batch that adds another text, after them. -/
theorem truthful_iff_sound_demo : ∃ s args, Lts.Reach memorySystem s ∧
    s = [⟨generateMemoryId "a","b"⟩] ∧ args.Batches [⟨.add,some "c",none⟩] ∧ Truthful s args := by
  have hrun := Lts.reach_of_run_any (M := memorySystem)
    (p := fun s => decide (s = [⟨generateMemoryId "a","b"⟩]))
    [{ action := some .add, content := some " a" },
      { action := some .replace, old_text := some "a", content := some "b" }]
    (.init (s := []) List.nodup_nil) (by decide +kernel)
  obtain ⟨s,hs,hp⟩ := hrun
  have hs' := of_decide_eq_true hp
  refine ⟨s,{ operations := some [⟨.add,some "c",none⟩] },hs,hs',⟨rfl,rfl⟩,
    (truthful_iff_sound hs).mpr ⟨?_,?_⟩⟩
  · rintro content ⟨haction,-⟩
    cases haction
  · rintro operations ⟨-,hoperations⟩ final writes -
    cases hoperations
    rw [hs']
    decide +kernel

/-- Adding a text again after it was replaced is answered as a duplicate, though nothing holds it. -/
theorem added_again_is_lost : ¬∀ s args, Lts.Reach memorySystem s → Truthful s args := by
  intro h
  have hrun := Lts.reach_of_run_any (M := memorySystem)
    (p := fun s => decide ((applyMemoryCall s { action := some .add, content := some "a" }) =
      ([⟨generateMemoryId "a","b"⟩],.ok dedupeText)))
    [{ action := some .add, content := some "a" },
      { action := some .replace, old_text := some "a", content := some "b" }]
    (.init (s := []) List.nodup_nil) (by decide +kernel)
  obtain ⟨s,hs,hp⟩ := hrun
  have hcall := of_decide_eq_true hp
  have htruth := (h s { action := some .add, content := some "a" } hs).add "a" ⟨rfl,rfl,rfl⟩
  rw [hcall] at htruth
  revert htruth
  decide

end calls

end Dominion.Memory
