import Dominion.Web.ChatStore

/-! # The drafts of a turn

How the operations of the reducer act on the blocks of a turn, which of them commute, and what a
draft shows without its text. -/
namespace Dominion.Web

open Dominion.Chat (ContentBlock ToolStatus)

/-! ### Blocks -/

@[simp] theorem BlockDraft.append_index (b : BlockDraft) (text : String) :
    (b.append text).index = b.index := by
  rcases b with ⟨index,⟨⟩⟩ <;> rfl

@[simp] theorem overlayText_index (b : BlockDraft) (text : String) :
    (overlayText b text).index = b.index := by
  rcases b with ⟨index,⟨⟩⟩ <;> rfl

@[simp] theorem blockEndTerminal_index (b : BlockDraft) (block : ContentBlock) :
    (blockEndTerminal b block).index = b.index := by
  cases block <;> simp [blockEndTerminal]

@[simp] theorem settleDraft_index (toolId : String) (status : ToolStatus) (result : String)
    (b : BlockDraft) : (settleDraft toolId status result b).index = b.index :=
  rfl

def isToolCall : ContentBlock → Bool
  | .toolCall _ _ _ _ _ => true
  | .think _ => false
  | .text _ => false

@[simp] theorem isToolCall_append (b : BlockDraft) (text : String) :
    isToolCall (b.append text).content = isToolCall b.content := by
  rcases b with ⟨index,⟨⟩⟩ <;> rfl

@[simp] theorem isToolCall_settleDraft (toolId : String) (status : ToolStatus) (result : String)
    (b : BlockDraft) : isToolCall (settleDraft toolId status result b).content =
      isToolCall b.content := by
  rcases b with ⟨index,⟨⟩⟩
  case toolCall => simp only [settleDraft,settleBlock]; split <;> rfl
  all_goals rfl

theorem isToolCall_blockEndTerminal {b : BlockDraft} {block : ContentBlock}
    (h : isToolCall (blockEndTerminal b block).content = true) :
    isToolCall b.content = true ∨ isToolCall block = true := by
  rcases b with ⟨index,⟨⟩⟩ <;> cases block <;> first | exact .inl rfl | exact .inr rfl | exact .inl h

theorem settleDraft_append (toolId : String) (status : ToolStatus) (result text : String)
    (b : BlockDraft) : settleDraft toolId status result (b.append text) =
      (settleDraft toolId status result b).append text := by
  rcases b with ⟨index,⟨⟩⟩
  case toolCall => simp only [settleDraft,settleBlock,BlockDraft.append]; split <;> rfl
  all_goals rfl

/-- A terminal block that the result does not settle may be laid over before or after it. -/
theorem settleDraft_blockEndTerminal {toolId result : String} {status : ToolStatus}
    {block : ContentBlock} (h : settleBlock toolId status result block = block) (b : BlockDraft) :
    settleDraft toolId status result (blockEndTerminal b block) =
      blockEndTerminal (settleDraft toolId status result b) block := by
  cases block with
  | toolCall id name args state shown => simp only [settleDraft,blockEndTerminal,h]
  | think content =>
    rcases b with ⟨index,⟨⟩⟩
    case toolCall => simp only [settleDraft,settleBlock,blockEndTerminal,overlayText]; split <;> rfl
    all_goals rfl
  | text content =>
    rcases b with ⟨index,⟨⟩⟩
    case toolCall => simp only [settleDraft,settleBlock,blockEndTerminal,overlayText]; split <;> rfl
    all_goals rfl

/-- A block ends once. -/
theorem blockEndTerminal_blockEndTerminal (b : BlockDraft) (block : ContentBlock) :
    blockEndTerminal (blockEndTerminal b block) block = blockEndTerminal b block := by
  rcases b with ⟨index,⟨⟩⟩ <;> cases block <;> rfl

/-- The draft without its text. -/
def BlockDraft.blank (draft : BlockDraft) : BlockDraft :=
  match draft.content with
  | .text _ => { draft with content := .text "" }
  | .think _ => { draft with content := .think "" }
  | .toolCall toolId name _ status result =>
    { draft with content := .toolCall toolId name "" status result }

@[simp] theorem BlockDraft.blank_index (b : BlockDraft) : b.blank.index = b.index := by
  rcases b with ⟨index,⟨⟩⟩ <;> rfl

@[simp] theorem BlockDraft.blank_blank (b : BlockDraft) : b.blank.blank = b.blank := by
  rcases b with ⟨index,⟨⟩⟩ <;> rfl

@[simp] theorem BlockDraft.blank_append (b : BlockDraft) (text : String) :
    (b.append text).blank = b.blank := by
  rcases b with ⟨index,⟨⟩⟩ <;> rfl

@[simp] theorem isToolCall_blank (b : BlockDraft) :
    isToolCall b.blank.content = isToolCall b.content := by
  rcases b with ⟨index,⟨⟩⟩ <;> rfl

theorem settleDraft_blank (toolId : String) (status : ToolStatus) (result : String)
    (b : BlockDraft) : settleDraft toolId status result b.blank =
      (settleDraft toolId status result b).blank := by
  rcases b with ⟨index,⟨⟩⟩
  case toolCall => simp only [settleDraft,settleBlock,BlockDraft.blank]; split <;> rfl
  all_goals rfl

/-- The terminal block does not depend on the text of the draft that it is laid over. -/
theorem blockEndTerminal_blank {b : BlockDraft} {block : ContentBlock}
    (h : isToolCall b.content = true → isToolCall block = true) :
    blockEndTerminal b.blank block = blockEndTerminal b block := by
  rcases b with ⟨index,⟨⟩⟩ <;> cases block <;>
    simp_all [blockEndTerminal,overlayText,BlockDraft.blank,isToolCall]

theorem blank_blockEndTerminal (b : BlockDraft) (block : ContentBlock) :
    (blockEndTerminal b.blank block).blank = (blockEndTerminal b block).blank := by
  rcases b with ⟨index,⟨⟩⟩ <;> cases block <;> rfl

/-! ### Steps -/

/-- Every block changed, as one of its key. -/
def mapBlocks (f : BlockKey → BlockDraft → BlockDraft) (steps : List StepDraft) : List StepDraft :=
  steps.map fun s => { s with blocks := s.blocks.map fun b => f (s.step,b.index) b }

/-- The blocks of one key changed. -/
def atBlock (key : BlockKey) (f : BlockDraft → BlockDraft) (k : BlockKey) (b : BlockDraft) :
    BlockDraft :=
  if k = key then f b else b

/-- The blocks stay where they are. -/
def Placed (f : BlockKey → BlockDraft → BlockDraft) : Prop :=
  ∀ k b, (f k b).index = b.index

theorem placed_atBlock {f : BlockDraft → BlockDraft} (hf : ∀ b, (f b).index = b.index)
    (key : BlockKey) : Placed (atBlock key f) := by
  intro k b
  unfold atBlock
  split
  · exact hf b
  · rfl

theorem mapStepBlocks_eq (steps : List StepDraft) (key : BlockKey) (f : BlockDraft → BlockDraft) :
    mapStepBlocks steps key.1 key.2 f = mapBlocks (atBlock key f) steps := by
  refine List.map_congr_left fun s _ => ?_
  by_cases hstep : s.step = key.1
  · simp only [hstep,if_true]
    congr 1
    refine List.map_congr_left fun b _ => ?_
    by_cases hindex : b.index = key.2
    · simp [atBlock,hindex]
    · have hkey : (key.1,b.index) ≠ key := fun he => hindex (congrArg Prod.snd he)
      simp [atBlock,hindex,hkey]
  · have hkey (b : BlockDraft) : (s.step,b.index) ≠ key := fun he => hstep (congrArg Prod.fst he)
    simp [atBlock,hstep,hkey]

theorem settleSteps_eq (toolId : String) (status : ToolStatus) (result : String)
    (steps : List StepDraft) : settleSteps toolId status result steps =
      mapBlocks (fun _ => settleDraft toolId status result) steps :=
  rfl

variable {f g : BlockKey → BlockDraft → BlockDraft} {steps : List StepDraft} {key : BlockKey}

@[simp] theorem length_mapBlocks : (mapBlocks f steps).length = steps.length := by
  simp [mapBlocks]

theorem mapBlocks_mapBlocks (hg : Placed g) :
    mapBlocks f (mapBlocks g steps) = mapBlocks (fun k b => f k (g k b)) steps := by
  simp only [mapBlocks,List.map_map,Function.comp_def]
  refine List.map_congr_left fun s _ => ?_
  congr 1
  exact List.map_congr_left fun b _ => by rw [hg]

theorem mapBlocks_comm (hf : Placed f) (hg : Placed g) (h : ∀ k b, f k (g k b) = g k (f k b)) :
    mapBlocks f (mapBlocks g steps) = mapBlocks g (mapBlocks f steps) := by
  rw [mapBlocks_mapBlocks hg,mapBlocks_mapBlocks hf]
  simp only [h]

private theorem find?_step_map (f : StepDraft → StepDraft) (hf : ∀ s, (f s).step = s.step)
    (steps : List StepDraft) (step : Int) :
    (steps.map f).find? (fun s => s.step = step) =
      (steps.find? fun s => s.step = step).map f := by
  rw [List.find?_map]
  simp only [Function.comp_def,hf]

/-- A block may start before or after the blocks are changed. -/
theorem mapBlocks_appendBlockStart (hf : Placed f) (step : Int) (draft : BlockDraft) :
    mapBlocks f (appendBlockStart steps step draft) =
      appendBlockStart (mapBlocks f steps) step (f (step,draft.index) draft) := by
  have hfind := find?_step_map
    (fun s => { s with blocks := s.blocks.map fun b => f (s.step,b.index) b }) (fun _ => rfl) steps step
  simp only [appendBlockStart,mapBlocks,hfind,hf _ draft]
  cases hgroup : steps.find? fun s => s.step = step with
  | none => simp
  | some group =>
    simp only [Option.map_some,List.any_map,Function.comp_def,hf _ _]
    split
    · rfl
    · simp only [List.map_map]
      refine List.map_congr_left fun s _ => ?_
      by_cases hstep : s.step = step
      · subst hstep
        simp
      · simp [hstep]

/-- The draft is one of the block. -/
def BlockAt (steps : List StepDraft) (key : BlockKey) (b : BlockDraft) : Prop :=
  ∃ s ∈ steps, s.step = key.1 ∧ b ∈ s.blocks ∧ b.index = key.2

theorem blockAt_mapBlocks {b : BlockDraft} (hf : Placed f) (h : BlockAt (mapBlocks f steps) key b) :
    ∃ b₀, BlockAt steps key b₀ ∧ b = f key b₀ := by
  obtain ⟨s,hs,hstep,hb,hindex⟩ := h
  obtain ⟨s₀,hs₀,rfl⟩ := List.mem_map.mp hs
  obtain ⟨b₀,hb₀,rfl⟩ := List.mem_map.mp hb
  have hindex₀ : b₀.index = key.2 := (hf _ b₀).symm.trans hindex
  have hkey : (s₀.step,b₀.index) = key := Prod.ext hstep hindex₀
  exact ⟨b₀,⟨s₀,hs₀,hstep,hb₀,hindex₀⟩,by rw [← hkey]⟩

theorem mapBlocks_congr (h : ∀ key b, BlockAt steps key b → f key b = g key b) :
    mapBlocks f steps = mapBlocks g steps := by
  refine List.map_congr_left fun s hs => ?_
  congr 1
  exact List.map_congr_left fun b hb => h _ b ⟨s,hs,rfl,hb,rfl⟩

theorem BlockAt.mapBlocks {b : BlockDraft} (hf : Placed f) (h : BlockAt steps key b) :
    BlockAt (mapBlocks f steps) key (f key b) := by
  obtain ⟨s,hs,hstep,hb,hindex⟩ := h
  have hkey : (s.step,b.index) = key := Prod.ext hstep hindex
  refine ⟨_,List.mem_map_of_mem hs,hstep,?_,(hf key b).trans hindex⟩
  rw [← hkey]
  exact List.mem_map_of_mem hb

/-- The step of the block has it. -/
def Started (steps : List StepDraft) (key : BlockKey) : Prop :=
  ∃ group, steps.find? (fun s => s.step = key.1) = some group ∧ ∃ b ∈ group.blocks, b.index = key.2

private theorem Started.map {steps : List StepDraft} {key : BlockKey} (h : Started steps key)
    {f : StepDraft → StepDraft} (hf : ∀ s, (f s).step = s.step)
    (hblocks : ∀ s, ∀ b ∈ s.blocks, ∃ b' ∈ (f s).blocks, b'.index = b.index) :
    Started (steps.map f) key := by
  obtain ⟨group,hgroup,b,hb,hindex⟩ := h
  obtain ⟨b',hb',hindex'⟩ := hblocks group b hb
  exact ⟨f group,by rw [find?_step_map f hf,hgroup]; rfl,b',hb',hindex'.trans hindex⟩

theorem Started.mapBlocks (h : Started steps key) (hf : Placed f) : Started (mapBlocks f steps) key :=
  h.map (fun _ => rfl) fun _ b hb => ⟨_,List.mem_map_of_mem hb,hf _ b⟩

theorem Started.appendBlockStart {steps : List StepDraft} {key : BlockKey} (h : Started steps key)
    (step : Int) (draft : BlockDraft) : Started (appendBlockStart steps step draft) key := by
  rw [Web.appendBlockStart]
  split
  · split
    · exact h
    · refine h.map (fun s => by split <;> rfl) fun s b hb => ⟨b,?_,rfl⟩
      split
      · exact List.mem_append_left _ hb
      · exact hb
  · obtain ⟨group,hgroup,hb⟩ := h.map (f := fun s => { s with settled := true }) (fun _ => rfl)
      fun _ b hb => ⟨b,hb,rfl⟩
    exact ⟨group,by rw [List.find?_append,hgroup]; rfl,hb⟩

/-- A block that is appended is there. -/
theorem started_appendBlockStart (steps : List StepDraft) (step : Int) (draft : BlockDraft) :
    Started (appendBlockStart steps step draft) (step,draft.index) := by
  rw [appendBlockStart]
  split
  · rename_i group hgroup
    have hstep : group.step = step := by simpa using List.find?_some hgroup
    split
    · rename_i hany
      obtain ⟨b,hb,hindex⟩ := List.any_eq_true.mp hany
      exact ⟨group,hgroup,b,hb,by simpa using hindex⟩
    · have hfind := find?_step_map (fun s => if s.step = step then
        { s with blocks := s.blocks ++ [draft] } else s) (fun s => by split <;> rfl) steps step
      rw [hgroup] at hfind
      refine ⟨_,hfind,draft,?_,rfl⟩
      simp [hstep]
  · rename_i hnone
    have hfind := find?_step_map (fun s => { s with settled := true }) (fun _ => rfl) steps step
    rw [hnone] at hfind
    refine ⟨⟨step,[draft],false⟩,?_,draft,List.mem_cons_self,rfl⟩
    simp only [List.find?_append,hfind]
    simp

/-- A block is appended once. -/
theorem appendBlockStart_of_started {steps : List StepDraft} {step : Int} {draft : BlockDraft}
    (h : Started steps (step,draft.index)) : appendBlockStart steps step draft = steps := by
  obtain ⟨group,hgroup,b,hb,hindex⟩ := h
  have hany : group.blocks.any (fun b => b.index = draft.index) = true :=
    List.any_eq_true.mpr ⟨b,hb,by simpa using hindex⟩
  simp only [appendBlockStart,hgroup,hany,if_true]

theorem blockAt_appendBlockStart {steps : List StepDraft} {step : Int} {draft b : BlockDraft}
    {key : BlockKey} (h : BlockAt (appendBlockStart steps step draft) key b) :
    BlockAt steps key b ∨ key = (step,draft.index) ∧ b = draft := by
  rw [appendBlockStart] at h
  split at h
  · split at h
    · exact .inl h
    · obtain ⟨s,hs,hstep,hb,hindex⟩ := h
      obtain ⟨s₀,hs₀,rfl⟩ := List.mem_map.mp hs
      split at hb
      · rename_i hstep₀
        rcases List.mem_append.mp hb with hb | hb
        · exact .inl ⟨s₀,hs₀,by simpa [hstep₀] using hstep,hb,hindex⟩
        · have hdraft : b = draft := by simpa using hb
          subst hdraft
          simp only [hstep₀,if_true] at hstep
          exact .inr ⟨Prod.ext hstep.symm hindex.symm,rfl⟩
      · rename_i hstep₀
        exact .inl ⟨s₀,hs₀,by simpa [hstep₀] using hstep,hb,hindex⟩
  · obtain ⟨s,hs,hstep,hb,hindex⟩ := h
    rcases List.mem_append.mp hs with hs | hs
    · obtain ⟨s₀,hs₀,rfl⟩ := List.mem_map.mp hs
      exact .inl ⟨s₀,hs₀,hstep,hb,hindex⟩
    · have hs' : s = ⟨step,[draft],false⟩ := by simpa using hs
      subst hs'
      have hdraft : b = draft := by simpa using hb
      subst hdraft
      exact .inr ⟨Prod.ext hstep.symm hindex.symm,rfl⟩

end Dominion.Web
