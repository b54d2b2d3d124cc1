import Mathlib.Data.Set.Insert
import Dominion.Web.Reordering

/-! # Texts that differ

Two views that are alike but for the texts of some blocks stay alike, until a turn is closed with
such a block; the end of a block makes its texts the same again. -/
namespace Dominion.Web

open Dominion.Framework
open Dominion.Chat (ContentBlock HistoryMessage ToolStatus)

/-- Blocks of turns. -/
abbrev Blocks := Set ((String × String) × BlockKey)

variable {S S' : Blocks} {t t' : TurnDraft} {e : ChatEvent} {key : BlockKey}

/-! ### Drafts -/

open Classical in
/-- The block without its text, if it is one of the given ones. -/
noncomputable def blankBlock (S : Blocks) (k : String × String) (key : BlockKey) (b : BlockDraft) :
    BlockDraft :=
  if (k,key) ∈ S then b.blank else b

private theorem placed_blankBlock (S : Blocks) (k : String × String) : Placed (blankBlock S k) := by
  intro key b
  unfold blankBlock
  split <;> simp

private theorem blankBlock_of_mem {k : String × String} (h : (k,key) ∈ S) (b : BlockDraft) :
    blankBlock S k key b = b.blank :=
  if_pos h

private theorem blankBlock_of_not_mem {k : String × String} (h : (k,key) ∉ S) (b : BlockDraft) :
    blankBlock S k key b = b :=
  if_neg h

private theorem blankBlock_blankBlock {k : String × String} (h : (k,key) ∈ S → (k,key) ∈ S')
    (b : BlockDraft) : blankBlock S' k key (blankBlock S k key b) = blankBlock S' k key b := by
  by_cases hS : (k,key) ∈ S
  · rw [blankBlock_of_mem hS,blankBlock_of_mem (h hS),blankBlock_of_mem (h hS),BlockDraft.blank_blank]
  · rw [blankBlock_of_not_mem hS]

namespace TurnDraft

/-- The draft without the texts of the blocks. -/
noncomputable def blank (S : Blocks) (t : TurnDraft) : TurnDraft :=
  { t with steps := mapBlocks (blankBlock S t.key) t.steps }

@[simp] theorem blank_key (S : Blocks) (t : TurnDraft) : (t.blank S).key = t.key := rfl

private theorem blank_blank (h : ∀ key, (t.key,key) ∈ S → (t.key,key) ∈ S') :
    (t.blank S).blank S' = t.blank S' := by
  simp only [blank]
  congr 1
  refine (mapBlocks_mapBlocks (placed_blankBlock S t.key)).trans ?_
  exact mapBlocks_congr fun key b _ => blankBlock_blankBlock (h key) b

private theorem steady_blank (S : Blocks) (t : TurnDraft) : View.Steady (blank S) t :=
  ⟨rfl,by simp [blank],fun _ => rfl⟩

private theorem settle_blank (toolId : String) (status : ToolStatus) (result : String)
    (t : TurnDraft) :
    (t.settle toolId status result).blank S = (t.blank S).settle toolId status result := by
  simp only [blank,settle,settleSteps_eq]
  congr 1
  have hsettle : Placed fun _ => settleDraft toolId status result := fun _ b =>
    settleDraft_index _ _ _ b
  refine mapBlocks_comm (placed_blankBlock S t.key) hsettle fun key b => ?_
  unfold blankBlock
  split
  · exact (settleDraft_blank _ _ _ b).symm
  · rfl

/-- The steps that are still drafts have none of the blocks. -/
def Intact (S : Blocks) (t : TurnDraft) : Prop :=
  ∀ s ∈ t.steps.drop t.fixedSteps, ∀ b ∈ s.blocks, (t.key,(s.step,b.index)) ∉ S

private theorem Intact.drop (h : t.Intact S) :
    (t.blank S).steps.drop (t.blank S).fixedSteps = t.steps.drop t.fixedSteps := by
  simp only [blank,mapBlocks,← List.map_drop]
  refine (List.map_congr_left fun s hs => ?_).trans (List.map_id' _)
  have hblocks : (s.blocks.map fun b => blankBlock S t.key (s.step,b.index) b) = s.blocks :=
    (List.map_congr_left fun b hb => blankBlock_of_not_mem (h s hs b hb) b).trans (List.map_id' _)
  rw [hblocks]

private theorem Intact.of_blank (h : (t.blank S).Intact S) : t.Intact S := by
  intro s hs b hb
  let f (s : StepDraft) : StepDraft :=
    { s with blocks := s.blocks.map fun b => blankBlock S t.key (s.step,b.index) b }
  have hmem : f s ∈ (t.blank S).steps.drop (t.blank S).fixedSteps := by
    simp only [blank,mapBlocks,← List.map_drop]
    exact List.mem_map_of_mem hs
  have hb' := h (f s) hmem (blankBlock S t.key (s.step,b.index) b) (List.mem_map_of_mem hb)
  rwa [placed_blankBlock] at hb'

private theorem Intact.blank (h : t.Intact S) : (t.blank S).Intact S := by
  intro s hs b hb
  rw [h.drop] at hs
  exact h s hs b hb

/-- A frame of a block acts on the texts of no other one. -/
theorem blank_edit (he : e.blockOf = some key) :
    (editDraft e.turn e.edit (t.blank S)).blank S = (editDraft e.turn e.edit t).blank S := by
  by_cases hk : t.key = e.turn
  · rw [editDraft_of_key (t := t.blank S) hk,editDraft_of_key hk]
    simp only [TurnDraft.blank]
    congr 1
    have hplaced := placed_blankBlock S t.key
    have hsame : mapBlocks (blankBlock S t.key) (mapBlocks (blankBlock S t.key) t.steps) =
        mapBlocks (blankBlock S t.key) t.steps := by
      rw [mapBlocks_mapBlocks hplaced]
      exact mapBlocks_congr fun key b _ => blankBlock_blankBlock id b
    have hat {f : BlockDraft → BlockDraft} (hf : ∀ b, (f b).index = b.index)
        (hblank : ∀ b, (f b.blank).blank = (f b).blank) :
        mapBlocks (blankBlock S t.key) (mapBlocks (atBlock key f)
          (mapBlocks (blankBlock S t.key) t.steps)) =
            mapBlocks (blankBlock S t.key) (mapBlocks (atBlock key f) t.steps) := by
      have hat := placed_atBlock hf key
      rw [mapBlocks_mapBlocks hplaced,mapBlocks_mapBlocks hat,mapBlocks_mapBlocks]
      · refine mapBlocks_congr fun k b _ => ?_
        by_cases hS : (t.key,k) ∈ S
        · simp only [blankBlock_of_mem hS,atBlock]
          split
          · exact hblank b
          · simp
        · simp only [blankBlock_of_not_mem hS]
      · exact fun k b => (hat k _).trans (hplaced k b)
    rcases ChatEvent.block_cases he with ⟨draft,hstart⟩ | ⟨text,hdelta⟩ | ⟨block,hend⟩
    · simp only [ChatEvent.edit_startOf hstart]
      refine (mapBlocks_appendBlockStart hplaced _ _).trans ?_
      rw [hsame]
      exact (mapBlocks_appendBlockStart hplaced _ _).symm
    · simp only [ChatEvent.edit_deltaOf hdelta]
      exact hat (fun b => by simp) fun b => by simp
    · simp only [ChatEvent.edit_endOf hend]
      exact hat (fun b => by simp) fun b => blank_blockEndTerminal b block
  · rw [editDraft_of_ne (t := t.blank S) hk,editDraft_of_ne hk,blank_blank fun _ h => h]

/-- The draft that ends is what its frame says, unless it is a tool call and the frame is not. -/
def Agrees (e : ChatEvent) (t : TurnDraft) : Prop :=
  t.key = e.turn → ∀ key block, e.endOf = some (key,block) →
    ∀ b, BlockAt t.steps key b → isToolCall b.content = true → isToolCall block = true

private theorem Agrees.blank (h : t.Agrees e) : (t.blank S).Agrees e := by
  intro hk key block hend b hb hcall
  obtain ⟨b₀,hb₀,rfl⟩ := blockAt_mapBlocks (placed_blankBlock S t.key) hb
  refine h hk key block hend b₀ hb₀ ?_
  unfold blankBlock at hcall
  split at hcall
  · simpa using hcall
  · exact hcall

private theorem Agrees.of_blank (h : (t.blank S).Agrees e) : t.Agrees e := by
  intro hk key block hend b hb hcall
  refine h hk key block hend _ (hb.mapBlocks (placed_blankBlock S t.key)) ?_
  unfold blankBlock
  split
  · simpa using hcall
  · exact hcall

/-- The end of a block makes its text known. -/
theorem blank_end {block : ContentBlock} (hend : e.endOf = some (key,block)) (h : t.Agrees e)
    (hS : ∀ k, (t.key,k) ∈ S → (t.key,k) ∈ S' ∨ (t.key,k) = (e.turn,key)) :
    (editDraft e.turn e.edit (t.blank S)).blank S' = (editDraft e.turn e.edit t).blank S' := by
  by_cases hk : t.key = e.turn
  · rw [editDraft_of_key (t := t.blank S) hk,editDraft_of_key hk]
    simp only [ChatEvent.edit_endOf hend]
    refine congrArg (fun steps => ({ t with steps := steps } : TurnDraft)) ?_
    show mapBlocks (blankBlock S' t.key) (mapBlocks (atBlock key fun b => blockEndTerminal b block)
        (mapBlocks (blankBlock S t.key) t.steps)) =
      mapBlocks (blankBlock S' t.key) (mapBlocks (atBlock key fun b => blockEndTerminal b block)
        t.steps)
    have hplaced := placed_blankBlock S t.key
    have hat : Placed (atBlock key fun b => blockEndTerminal b block) :=
      placed_atBlock (fun b => by simp) key
    refine (mapBlocks_mapBlocks hat).trans ?_
    refine Eq.trans ?_ (mapBlocks_mapBlocks hat).symm
    rw [mapBlocks_mapBlocks hplaced]
    refine mapBlocks_congr fun k b hb => ?_
    by_cases hkey : k = key
    · subst hkey
      simp only [atBlock,if_true]
      by_cases hmem : (t.key,k) ∈ S
      · rw [blankBlock_of_mem hmem,blockEndTerminal_blank (h hk k block hend b hb)]
      · rw [blankBlock_of_not_mem hmem]
    · simp only [atBlock,if_neg hkey]
      refine blankBlock_blankBlock (fun hmem => ?_) b
      exact (hS k hmem).resolve_right fun he => hkey (congrArg Prod.snd he)
  · have hS' (k : BlockKey) (hmem : (t.key,k) ∈ S) : (t.key,k) ∈ S' :=
      (hS k hmem).resolve_right fun he => hk (congrArg Prod.fst he)
    rw [editDraft_of_ne (t := t.blank S) hk,editDraft_of_ne hk,blank_blank hS']

/-- A delta of one of the blocks. -/
theorem blank_delta {text : String} (hdelta : e.deltaOf = some (key,text))
    (h : (e.turn,key) ∈ S) : (editDraft e.turn e.edit t).blank S = t.blank S := by
  by_cases hk : t.key = e.turn
  · rw [editDraft_of_key hk,ChatEvent.edit_deltaOf hdelta]
    refine congrArg (fun steps => ({ t with steps := steps } : TurnDraft)) ?_
    show mapBlocks (blankBlock S t.key) (mapBlocks (atBlock key fun b => b.append text) t.steps) =
      mapBlocks (blankBlock S t.key) t.steps
    refine (mapBlocks_mapBlocks (placed_atBlock (fun b => by simp) key)).trans ?_
    refine mapBlocks_congr fun k b _ => ?_
    by_cases hkey : k = key
    · subst hkey
      have hmem : (t.key,k) ∈ S := hk ▸ h
      have hsame : blankBlock S t.key k (b.append text) = blankBlock S t.key k b := by
        rw [blankBlock_of_mem hmem,blankBlock_of_mem hmem,BlockDraft.blank_append]
      simpa [atBlock] using hsame
    · simp [atBlock,hkey]
  · rw [editDraft_of_ne hk]

end TurnDraft

/-! ### Views -/

namespace Shown

/-- The entry closes the turn of the key. -/
def cuts (k : String × String) : Shown → Bool
  | .frame e => e.closes && e.turn = k
  | .ended => true

end Shown

namespace View

variable {v w : View} {y : Shown}

/-- The view without the texts of the blocks. -/
noncomputable def blank (S : Blocks) (v : View) : View :=
  v.mapLive (TurnDraft.blank S)

private theorem blank_blank (h : ∀ t ∈ v.live, ∀ key, (t.key,key) ∈ S → (t.key,key) ∈ S') :
    (v.blank S).blank S' = v.blank S' := by
  simp only [blank,mapLive,List.map_map]
  congr 1
  exact List.map_congr_left fun t ht => TurnDraft.blank_blank (h t ht)

/-- Views that are alike without some texts have the same turns. -/
theorem exists_turn (h : v.blank S = w.blank S) (ht : t ∈ w.live) :
    ∃ t' ∈ v.live, t'.blank S = t.blank S := by
  have hlive : v.live.map (TurnDraft.blank S) = w.live.map (TurnDraft.blank S) :=
    congrArg View.live h
  have hmem := List.mem_map_of_mem (f := TurnDraft.blank S) ht
  rw [← hlive] at hmem
  exact List.mem_map.mp hmem

theorem live_keys (h : v.blank S = w.blank S) :
    v.live.map TurnDraft.key = w.live.map TurnDraft.key := by
  have hlive := congrArg (fun v => v.live.map TurnDraft.key) h
  simpa [blank,mapLive,Function.comp_def] using hlive

/-- The views are alike without more texts. -/
theorem blank_mono (h : v.blank S = w.blank S)
    (hS : ∀ t ∈ v.live, ∀ key, (t.key,key) ∈ S → (t.key,key) ∈ S') : v.blank S' = w.blank S' := by
  have hS' : ∀ t ∈ w.live, ∀ key, (t.key,key) ∈ S → (t.key,key) ∈ S' := by
    intro t ht key hmem
    obtain ⟨t',ht',hsame⟩ := exists_turn h ht
    have hk : (t'.blank S).key = (t.blank S).key := congrArg TurnDraft.key hsame
    rw [TurnDraft.blank_key,TurnDraft.blank_key] at hk
    rw [← hk] at hmem ⊢
    exact hS t' ht' key hmem
  rw [← blank_blank hS,h,blank_blank hS']

/-- The turns that the entry closes show none of the blocks. -/
def Closable (S : Blocks) (v : View) (y : Shown) : Prop :=
  ∀ t ∈ v.live, y.cuts t.key = true → t.Intact S

private theorem Closable.congr (h : v.Closable S y) (hvw : v.blank S = w.blank S) :
    w.Closable S y := by
  intro t ht hcuts
  obtain ⟨t',ht',hsame⟩ := exists_turn hvw ht
  have hk : (t'.blank S).key = (t.blank S).key := congrArg TurnDraft.key hsame
  have hintact := (h t' ht' (hk ▸ hcuts)).blank
  rw [hsame] at hintact
  exact hintact.of_blank

private theorem blank_after (h : v.Closable S y) :
    ((v.blank S).after y).blank S = (v.after y).blank S := by
  have hkey (t : TurnDraft) : (t.blank S).key = t.key := rfl
  have hid (v : View) : (v.blank S).blank S = v.blank S := blank_blank fun _ _ _ h => h
  cases y with
  | ended =>
    have hclosed : (v.blank S).closeAll true = v.closeAll true :=
      mapLive_closeAll hkey (fun t ht => (h t ht rfl).drop) true
    simp only [after,hclosed]
  | frame e =>
    have hblock {key : BlockKey} (he : e.blockOf = some key) :
        ((v.blank S).apply e).blank S = (v.apply e).blank S := by
      rw [apply_block he,apply_block he]
      simp only [blank,mapLive,List.map_map]
      congr 1
      exact List.map_congr_left fun t _ => TurnDraft.blank_edit he
    have hclose (hcloses : e.closes = true) (interrupted : Bool) :
        ((v.blank S).close e.turn interrupted).blank S = (v.close e.turn interrupted).blank S := by
      have hcomm : (v.blank S).close e.turn interrupted = (v.close e.turn interrupted).blank S :=
        mapLive_close hkey (fun t ht hk => (h t ht (by simp [Shown.cuts,hcloses,hk])).drop)
          interrupted
      rw [hcomm,hid]
    have hof {x : View} (h : (v.blank S).apply e = x.blank S) (hx : x = v.apply e) :
        ((v.blank S).apply e).blank S = (v.apply e).blank S := by
      rw [h,hid,hx]
    obtain ⟨member,turnId,body⟩ := e
    simp only [after]
    cases body with
    | queued position => exact hid v
    | teamMessage member' message seq =>
      exact hof (mapLive_teamMessage hkey (fun t _ => TurnDraft.steady_blank S t) message seq) rfl
    | memberView member' sender message =>
      exact hof (mapLive_memberView member' sender message) rfl
    | turnStart => exact hof (mapLive_turnStart hkey rfl) rfl
    | blockStart step index type toolId name => exact hblock rfl
    | delta step index text => exact hblock rfl
    | blockEnd step index block => exact hblock rfl
    | toolResult toolId status result =>
      exact hof (mapLive_settle fun t => TurnDraft.settle_blank _ _ _ t) rfl
    | turnEnd status error =>
      cases status with
      | unspecified => exact hid v
      | aborted => rfl
      | completed => exact hclose rfl false
      | error => exact hclose rfl true
      | canceled => exact hclose rfl true
    | unknown => exact hid v

/-- Views that are alike stay alike. -/
theorem after_congr (h : v.blank S = w.blank S) (hy : v.Closable S y) :
    (v.after y).blank S = (w.after y).blank S := by
  rw [← blank_after hy,h,blank_after (hy.congr h)]

/-- A delta of one of the blocks. -/
theorem apply_delta {text : String} (hdelta : e.deltaOf = some (key,text)) (h : (e.turn,key) ∈ S) :
    (v.apply e).blank S = v.blank S := by
  rw [apply_block (ChatEvent.blockOf_of_deltaOf hdelta).1]
  simp only [blank,mapLive,List.map_map]
  congr 1
  exact List.map_congr_left fun t _ => TurnDraft.blank_delta hdelta h

private theorem blank_end {block : ContentBlock} (hend : e.endOf = some (key,block))
    (h : ∀ t ∈ v.live, t.Agrees e)
    (hS : ∀ t ∈ v.live, ∀ k, (t.key,k) ∈ S → (t.key,k) ∈ S' ∨ (t.key,k) = (e.turn,key)) :
    ((v.blank S).apply e).blank S' = (v.apply e).blank S' := by
  have he := (ChatEvent.blockOf_of_endOf hend).1
  rw [apply_block he,apply_block he]
  simp only [blank,mapLive,List.map_map]
  congr 1
  exact List.map_congr_left fun t ht => TurnDraft.blank_end hend (h t ht) (hS t ht)

/-- After the end of a block the views are alike with its text. -/
theorem apply_end {block : ContentBlock} (hvw : v.blank S = w.blank S)
    (hend : e.endOf = some (key,block)) (h : ∀ t ∈ w.live, t.Agrees e)
    (hS : ∀ t ∈ w.live, ∀ k, (t.key,k) ∈ S → (t.key,k) ∈ S' ∨ (t.key,k) = (e.turn,key)) :
    (v.apply e).blank S' = (w.apply e).blank S' := by
  have hv : ∀ t ∈ v.live, t.Agrees e ∧
      ∀ k, (t.key,k) ∈ S → (t.key,k) ∈ S' ∨ (t.key,k) = (e.turn,key) := by
    intro t ht
    obtain ⟨t',ht',hsame⟩ := exists_turn hvw.symm ht
    have hk : (t'.blank S).key = (t.blank S).key := congrArg TurnDraft.key hsame
    rw [TurnDraft.blank_key,TurnDraft.blank_key] at hk
    have hagrees := (h t' ht').blank (S := S)
    rw [hsame] at hagrees
    exact ⟨hagrees.of_blank,fun k hmem => hk ▸ hS t' ht' k (hk.symm ▸ hmem)⟩
  rw [← blank_end hend (fun t ht => (hv t ht).1) fun t ht => (hv t ht).2,hvw,blank_end hend h hS]

end View

end Dominion.Web
