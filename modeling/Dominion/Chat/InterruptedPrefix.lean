import Dominion.Chat.MemberFrames
import Mathlib.Data.List.Induction
import Mathlib.Data.List.Nodup

/-! # The interrupted prefix

What a failed turn leaves behind is said by the chunks alone: which of them belong to the step that
was running, and which blocks they stream. -/
namespace Dominion.Chat

open Dominion.Framework

/-! ## The blocks of a sequence of chunks -/

namespace StreamChunk

/-- The text that a chunk adds to the block of an index. -/
def adds (i : Int) (c : StreamChunk) : Option String :=
  if (c.type = "reasoning-delta" ∨ c.type = "text-delta") ∧ c.index.getD 0 = i then
    some (c.text.getD "")
  else none

/-- The final form that a chunk gives the block of an index. -/
def settles (i : Int) (c : StreamChunk) : Option ContentBlockView :=
  if c.type = "block-end" ∧ c.index.getD 0 = i then c.block else none

def touches (i : Int) (c : StreamChunk) : Bool :=
  (c.adds i).isSome || (c.settles i).isSome

/-- The empty block that the text of a delta goes to. -/
def opened (c : StreamChunk) : ContentBlockView :=
  ⟨if c.type = "reasoning-delta" then "reasoning" else "text",some "",none,none,none⟩

end StreamChunk

/-- A block with the texts that the chunks add to it. -/
def extended (i : Int) (view : ContentBlockView) (chunks : List StreamChunk) : ContentBlockView :=
  (chunks.filterMap (StreamChunk.adds i)).foldl appendText view

/-- The block that has its place at a chunk: the last final form of an index, or the first delta of
an index that has no final form. -/
def blockAt (before : List StreamChunk) (c : StreamChunk) (after : List StreamChunk) :
    Option PendingBlock :=
  let i := c.index.getD 0
  if after.any fun d => (d.settles i).isSome then none
  else
    match c.settles i with
    | some block => some ⟨i,extended i block after⟩
    | none =>
      if (c.adds i).isSome && !before.any (StreamChunk.touches i) then
        some ⟨i,extended i c.opened (c :: after)⟩
      else none

/-- The blocks of the chunks, in the order of their places. -/
def streamedBlocks (before : List StreamChunk) : List StreamChunk → List PendingBlock
  | [] => []
  | c :: after => (blockAt before c after).toList ++ streamedBlocks (before ++ [c]) after

/-- A block after one more chunk. -/
def PendingBlock.extend (entry : PendingBlock) (c : StreamChunk) : PendingBlock :=
  { entry with view := extended entry.index entry.view [c] }

/-- The blocks of the chunks `before`, after one more. -/
def absorbed (before : List StreamChunk) (pending : List PendingBlock) (c : StreamChunk) :
    List PendingBlock :=
  ((pending.filter fun entry => (c.settles entry.index).isNone).map fun entry => entry.extend c) ++
    (blockAt before c []).toList

section Blocks

variable {before after chunks : List StreamChunk} {c d : StreamChunk} {i : Int}
  {view : ContentBlockView} {pending : List PendingBlock}

private theorem extended_append (after' : List StreamChunk) :
    extended i view (after ++ after') = extended i (extended i view after) after' := by
  unfold extended
  rw [List.filterMap_append,List.foldl_append]

/-- A later chunk extends the block of a place or takes its index over. -/
theorem blockAt_snoc : blockAt before d (after ++ [c]) =
    if (c.settles (d.index.getD 0)).isSome then none
    else (blockAt before d after).map fun entry => entry.extend c := by
  unfold blockAt
  simp only [List.any_append,List.any_cons,List.any_nil,Bool.or_false,Bool.or_eq_true]
  by_cases hc : (c.settles (d.index.getD 0)).isSome
  · rw [if_pos (Or.inr hc),if_pos hc]
  · rw [if_neg hc]
    by_cases hafter : after.any fun e => (e.settles (d.index.getD 0)).isSome
    · rw [if_pos (Or.inl hafter),if_pos hafter]
      rfl
    · rw [if_neg (not_or.mpr ⟨hafter,hc⟩),if_neg hafter]
      cases d.settles (d.index.getD 0) with
      | some block => simp only [Option.map_some,PendingBlock.extend,extended_append]
      | none =>
        simp only [← List.cons_append,extended_append]
        split <;> rfl

private theorem blockAt_index {entry : PendingBlock} (h : blockAt before c after = some entry) :
    entry.index = c.index.getD 0 := by
  unfold blockAt at h
  dsimp only at h
  split at h
  · cases h
  · split at h
    · cases h
      rfl
    · split at h
      · cases h
        rfl
      · cases h

private theorem streamedBlocks_snoc : streamedBlocks before (chunks ++ [c]) =
    absorbed (before ++ chunks) (streamedBlocks before chunks) c := by
  induction chunks generalizing before with
  | nil => simp [streamedBlocks,absorbed]
  | cons d chunks ih =>
    rw [List.cons_append,streamedBlocks,streamedBlocks,ih,absorbed,absorbed,List.filter_append,
      List.map_append,List.append_assoc,List.append_assoc,List.singleton_append,blockAt_snoc]
    congr 1
    cases hat : blockAt before d chunks with
    | none => simp
    | some entry =>
      have hindex := blockAt_index hat
      by_cases hc : (c.settles (d.index.getD 0)).isSome
      · simp [hindex,hc,Option.isSome_iff_ne_none.mp hc]
      · simp [hindex,Option.not_isSome_iff_eq_none.mp hc]

/-! The blocks have one place for each index that was streamed. -/

structure Tabled (chunks : List StreamChunk) (pending : List PendingBlock) : Prop where
  nodup : (pending.map PendingBlock.index).Nodup
  touched : ∀ i, i ∈ pending.map PendingBlock.index ↔ chunks.any (StreamChunk.touches i) = true

private theorem map_index_extend (pending : List PendingBlock) :
    (pending.map fun entry => entry.extend c).map PendingBlock.index =
      pending.map PendingBlock.index := by
  rw [List.map_map]
  rfl

private theorem index_of_settles (h : (c.settles i).isSome) : i = c.index.getD 0 := by
  unfold StreamChunk.settles at h
  split at h
  · rename_i hc
    exact hc.2.symm
  · cases h

private theorem index_of_adds (h : (c.adds i).isSome) : i = c.index.getD 0 := by
  unfold StreamChunk.adds at h
  split at h
  · rename_i hc
    exact hc.2.symm
  · cases h

private theorem mem_blockAt_nil : i ∈ (blockAt before c []).toList.map PendingBlock.index ↔
    (c.settles i).isSome ∨ (c.adds i).isSome ∧ before.any (StreamChunk.touches i) = false := by
  constructor
  · intro h
    obtain ⟨entry,hentry,rfl⟩ := List.mem_map.mp h
    have hat := Option.mem_toList.mp hentry
    have hindex := blockAt_index hat
    unfold blockAt at hat
    rw [hindex]
    cases hsettles : c.settles (c.index.getD 0) with
    | some block => exact Or.inl rfl
    | none =>
      simp only [hsettles] at hat
      split at hat
      · cases hat
      · split at hat
        · rename_i hadds
          simpa using hadds
        · cases hat
  · intro h
    have hindex : i = c.index.getD 0 := by
      apply h.elim
      · exact index_of_settles
      · exact fun hadds => index_of_adds hadds.1
    subst hindex
    unfold blockAt
    cases hsettles : c.settles (c.index.getD 0) with
    | some block => simp [hsettles]
    | none =>
      have hadds := h.resolve_left (by simp [hsettles])
      simp [hsettles,hadds]

private theorem mem_keep : i ∈ ((pending.filter fun entry => (c.settles entry.index).isNone).map
      fun entry => entry.extend c).map PendingBlock.index ↔
    i ∈ pending.map PendingBlock.index ∧ c.settles i = none := by
  rw [map_index_extend]
  constructor
  · intro h
    obtain ⟨entry,hentry,rfl⟩ := List.mem_map.mp h
    obtain ⟨hmem,hnone⟩ := List.mem_filter.mp hentry
    exact ⟨List.mem_map_of_mem hmem,Option.isNone_iff_eq_none.mp hnone⟩
  · intro h
    obtain ⟨entry,hmem,rfl⟩ := List.mem_map.mp h.1
    exact List.mem_map_of_mem (List.mem_filter.mpr ⟨hmem,Option.isNone_iff_eq_none.mpr h.2⟩)

private theorem Tabled.snoc (h : Tabled chunks pending) :
    Tabled (chunks ++ [c]) (absorbed chunks pending c) := by
  unfold absorbed
  constructor
  · rw [List.map_append]
    apply List.Nodup.append
    · rw [map_index_extend]
      exact h.nodup.sublist (List.filter_sublist.map _)
    · cases blockAt chunks c [] with
      | none => exact List.nodup_nil
      | some entry => exact List.nodup_singleton _
    · intro i hkeep hnew
      obtain ⟨hmem,hnone⟩ := mem_keep.mp hkeep
      have htouched := (h.touched i).mp hmem
      rcases mem_blockAt_nil.mp hnew with hsettles | hadds
      · simp [hnone] at hsettles
      · rw [hadds.2] at htouched
        cases htouched
  · intro i
    rw [List.map_append,List.mem_append,mem_keep,mem_blockAt_nil,h.touched,List.any_append]
    cases hany : chunks.any (StreamChunk.touches i) <;>
      cases hsettles : c.settles i <;> simp [StreamChunk.touches,hsettles]

private theorem tabled_streamedBlocks (chunks : List StreamChunk) :
    Tabled chunks (streamedBlocks [] chunks) := by
  induction chunks using List.reverseRecOn with
  | nil => exact ⟨List.nodup_nil,fun i => by simp [streamedBlocks]⟩
  | append_singleton chunks c ih =>
    rw [streamedBlocks_snoc,List.nil_append]
    exact ih.snoc

/-- The one entry of an index is changed by changing every entry of the index. -/
theorem modify_findIdx {f : PendingBlock → PendingBlock}
    (hpending : (pending.map PendingBlock.index).Nodup) :
    (match pending.findIdx? fun entry => entry.index = i with
      | none => pending
      | some j => pending.modify j f) =
      pending.map fun entry => if entry.index = i then f entry else entry := by
  induction pending with
  | nil => rfl
  | cons entry rest ih =>
    rw [List.map_cons,List.nodup_cons] at hpending
    rw [List.findIdx?_cons]
    by_cases hentry : entry.index = i
    · have hrest : rest.map (fun e => if e.index = i then f e else e) = rest := by
        calc rest.map (fun e => if e.index = i then f e else e)
            = rest.map id := by
                apply List.map_congr_left
                intro e he
                rw [if_neg,id]
                intro hsame
                rw [hentry,← hsame] at hpending
                exact hpending.1 (List.mem_map_of_mem he)
          _ = rest := List.map_id rest
      simp [hentry,hrest]
    · have hih := ih hpending.2
      cases hfind : rest.findIdx? fun e => decide (e.index = i) with
      | none => simpa [hentry,hfind] using hih
      | some j => simpa [hentry,hfind] using hih

private theorem Tabled.any_index (h : Tabled chunks pending) (i : Int) :
    (pending.any fun entry => entry.index = i) = chunks.any (StreamChunk.touches i) := by
  rw [Bool.eq_iff_iff,← h.touched,List.any_eq_true]
  simp

private theorem type_of_adds {text : String} (h : c.adds i = some text) :
    (c.type = "reasoning-delta" ∨ c.type = "text-delta") ∧ c.index.getD 0 = i ∧
      c.text.getD "" = text := by
  unfold StreamChunk.adds at h
  split at h
  · rename_i hc
    exact ⟨hc.1,hc.2,Option.some.inj h⟩
  · cases h

private theorem settles_of_delta (h : c.type = "reasoning-delta" ∨ c.type = "text-delta")
    (i : Int) :
    c.settles i = none := by
  unfold StreamChunk.settles
  rw [if_neg]
  rintro ⟨hend,-⟩
  rcases h with h | h <;> simp [h] at hend

private theorem adds_of_settles {j : Int} (h : c.settles i = some view) : c.adds j = none := by
  cases hadds : c.adds j with
  | none => rfl
  | some text => simp [settles_of_delta (type_of_adds hadds).1] at h

private theorem extend_of_adds {text : String} (h : c.adds (c.index.getD 0) = some text)
    (entry : PendingBlock) :
    entry.extend c = if entry.index = c.index.getD 0 then
      { entry with view := appendText entry.view (c.text.getD "") } else entry := by
  obtain ⟨htype,-,-⟩ := type_of_adds h
  unfold PendingBlock.extend extended StreamChunk.adds
  by_cases hindex : entry.index = c.index.getD 0
  · simp [hindex,htype]
  · simp [hindex,htype,Ne.symm hindex]

/-- A delta goes to the block of its index, which it opens if there is none. -/
theorem Tabled.notePending_adds (h : Tabled chunks pending) {text : String}
    (hadds : c.adds (c.index.getD 0) = some text) :
    notePending pending c = absorbed chunks pending c := by
  have htype := (type_of_adds hadds).1
  have hsettles := settles_of_delta htype
  have hkeep : pending.filter (fun entry => (c.settles entry.index).isNone) = pending :=
    List.filter_eq_self.mpr fun entry _ => by rw [hsettles]; rfl
  unfold Chat.notePending absorbed
  rw [if_pos htype,hkeep,h.any_index]
  dsimp only
  cases hany : chunks.any (StreamChunk.touches (c.index.getD 0)) with
  | true =>
    have hat : blockAt chunks c [] = none := by simp [blockAt,hsettles,hany]
    rw [if_pos rfl,hat]
    refine (modify_findIdx h.nodup).trans ?_
    simp [extend_of_adds hadds]
  | false =>
    have hat : blockAt chunks c [] =
        some ⟨c.index.getD 0,extended (c.index.getD 0) c.opened [c]⟩ := by
      simp only [blockAt,hsettles,hadds,hany]
      rfl
    have hfresh : c.index.getD 0 ∉ pending.map PendingBlock.index := by
      rw [h.touched,hany]
      exact Bool.false_ne_true
    have hnodup : ((pending ++ [PendingBlock.mk (c.index.getD 0) c.opened]).map
        PendingBlock.index).Nodup := by
      rw [List.map_append]
      exact h.nodup.append (List.nodup_singleton _) (by simpa using hfresh)
    rw [if_neg Bool.false_ne_true,hat]
    refine (modify_findIdx hnodup).trans ?_
    rw [List.map_append]
    simp [extend_of_adds hadds,extended,hadds,(type_of_adds hadds).2.2]

/-- A final form goes to the end, whatever was streamed under its index. -/
theorem notePending_settles (hsettles : c.settles (c.index.getD 0) = some view) :
    notePending pending c = absorbed chunks pending c := by
  have hadds : ∀ j, c.adds j = none := fun j => adds_of_settles hsettles
  have hend : c.type = "block-end" ∧ c.block = some view := by
    unfold StreamChunk.settles at hsettles
    split at hsettles
    · rename_i hc
      exact ⟨hc.1,hsettles⟩
    · cases hsettles
  have hextend : ∀ entry : PendingBlock, entry.extend c = entry := fun entry => by
    simp [PendingBlock.extend,extended,hadds]
  have hkeep : pending.filter (fun entry => (c.settles entry.index).isNone) =
      pending.filter fun entry => entry.index ≠ c.index.getD 0 := by
    apply List.filter_congr
    intro entry _
    by_cases hindex : entry.index = c.index.getD 0
    · simp [hindex,hsettles]
    · simp [hindex,StreamChunk.settles,Ne.symm hindex]
  have hat : blockAt chunks c [] = some ⟨c.index.getD 0,view⟩ := by
    simp [blockAt,hsettles,extended]
  unfold Chat.notePending absorbed
  rw [hkeep,hat]
  simp [hend,hextend]

private theorem notePending_quiet (hadds : c.adds (c.index.getD 0) = none)
    (hsettles : c.settles (c.index.getD 0) = none) :
    notePending pending c = absorbed chunks pending c := by
  have htype : ¬(c.type = "reasoning-delta" ∨ c.type = "text-delta") := by
    intro h
    simp [StreamChunk.adds,h] at hadds
  have hquiet : ∀ j, c.adds j = none ∧ c.settles j = none := by
    intro j
    by_cases hj : c.index.getD 0 = j
    · exact hj ▸ ⟨hadds,hsettles⟩
    · simp [StreamChunk.adds,StreamChunk.settles,hj]
  have hextend : ∀ entry : PendingBlock, entry.extend c = entry := fun entry => by
    simp [PendingBlock.extend,extended,hquiet]
  have hkeep : pending.filter (fun entry => (c.settles entry.index).isNone) = pending :=
    List.filter_eq_self.mpr fun entry _ => by rw [(hquiet entry.index).2]; rfl
  have hat : blockAt chunks c [] = none := by simp [blockAt,hadds,hsettles]
  unfold Chat.notePending absorbed
  rw [if_neg htype,hkeep,hat]
  by_cases hend : c.type = "block-end"
  · have hblock : c.block = none := by simpa [StreamChunk.settles,hend] using hsettles
    simp [hend,hblock,hextend]
  · simp [hend,hextend]

private theorem Tabled.notePending (h : Tabled chunks pending) :
    notePending pending c = absorbed chunks pending c := by
  cases hadds : c.adds (c.index.getD 0) with
  | some text => exact h.notePending_adds hadds
  | none =>
    cases hsettles : c.settles (c.index.getD 0) with
    | some block => exact notePending_settles hsettles
    | none => exact notePending_quiet hadds hsettles

/-- The table of the collector holds the streamed blocks. -/
theorem foldl_notePending (chunks : List StreamChunk) :
    chunks.foldl notePending [] = streamedBlocks [] chunks := by
  induction chunks using List.reverseRecOn with
  | nil => rfl
  | append_singleton chunks c ih =>
    rw [List.foldl_append,List.foldl_cons,List.foldl_nil,ih,streamedBlocks_snoc,List.nil_append]
    exact (tabled_streamedBlocks chunks).notePending

/-- A final form comes after the blocks that are still streamed. -/
example : (streamedBlocks [] [{ type := "reasoning-delta", text := some "why" },
    { type := "text-delta", index := some 1, text := some "so" },
    { type := "block-end", block := some ⟨"reasoning",some "why not",none,none,none⟩ }]).map
      (fun entry => entry.view.text) = [some "so",some "why not"] := by decide

end Blocks

/-! ## The chunks of the running step -/

/-- What arrived since the running step was entered and since its last message. -/
structure StreamWindow where
  /-- The attempts between their start and their end. -/
  live : String → Bool := fun _ => false
  step : Option Int := none
  /-- The attempt that was started last. -/
  attempt : Option String := none
  /-- The chunks with their attempts, in the order of arrival. -/
  chunks : List (String × StreamChunk) := []

namespace StreamWindow

def start (p : StreamWindow) (attempt : String) (step : Int) : StreamWindow where
  live := Function.update p.live attempt true
  step := some step
  attempt := some attempt
  chunks := if p.step = some step then p.chunks else []

def frame (p : StreamWindow) (attempt : String) (frame : AssistantStreamFrame) : StreamWindow :=
  if frame.type = "start" then
    match frame.step with
    | none => p
    | some step => p.start attempt step
  else if frame.type = "chunk" then
    match p.live attempt,frame.chunk with
    | true,some chunk => { p with chunks := p.chunks ++ [(attempt,chunk)] }
    | _,_ => p
  else { p with live := Function.update p.live attempt false }

def event (p : StreamWindow) : SessionEvent ⊕ LiveEvent → StreamWindow
  | .inl (.assistantMessage _ _ _) => { p with chunks := [] }
  | .inr (.assistantStream (some frame)) =>
    match frame.attemptId with
    | none => p
    | some attempt => p.frame attempt frame
  | .inr (.status status) => if status = "idle" then { p with step := none, chunks := [] } else p
  | _ => p

def observe (cfg : CollectorConfig) (p : StreamWindow) : Label → StreamWindow
  | .envelope envelope => if envelope.memberId = cfg.memberId then p.event envelope.event else p
  | .markOutcome _ => p

def streamed (p : StreamWindow) : List StreamChunk :=
  p.chunks.map Prod.snd

/-- The chunks of the attempt that was started last. -/
def ofLast (p : StreamWindow) : List StreamChunk :=
  (p.chunks.filter fun c => some c.1 = p.attempt).map Prod.snd

end StreamWindow

/-- The collector beside the chunks of the running step. -/
def streamedSystem (cfg : CollectorConfig) : Lts (World × StreamWindow) Label :=
  (collectorSystem cfg).journaled (fun _ l _ p => p.observe cfg l) {}

/-- The outcomes that a session marks a turn with. -/
def Marks (_ : World × StreamWindow) (l : Label) : Prop :=
  ∀ outcome, l = .markOutcome outcome →
    outcome.status = .canceled ∨ outcome.status = .aborted

/-- The table of the open turn is that of the chunks. -/
structure WindowInv (w : World) (p : StreamWindow) : Prop where
  live : ∀ attempt, p.live attempt = (w.collector.attempts attempt).isSome
  step : p.step = w.collector.active.bind ActiveMemberTurn.step
  pending : w.collector.active.elim [] ActiveMemberTurn.pending = p.streamed.foldl notePending []
  marked : ∀ outcome, w.collector.pendingOutcome = some outcome → outcome.status ≠ .error

/-- A change that concerns neither the attempts nor the table. -/
structure Steady (w w' : World) : Prop where
  attempts : w'.collector.attempts = w.collector.attempts
  step : w'.collector.active.bind ActiveMemberTurn.step =
    w.collector.active.bind ActiveMemberTurn.step
  pending : w'.collector.active.elim [] ActiveMemberTurn.pending =
    w.collector.active.elim [] ActiveMemberTurn.pending
  marked : w'.collector.pendingOutcome = w.collector.pendingOutcome

section Events

variable {cfg : CollectorConfig} {w w' w'' : World} {p : StreamWindow} {a : ActiveMemberTurn}

private theorem Steady.refl (w : World) : Steady w w :=
  ⟨rfl,rfl,rfl,rfl⟩

private theorem Steady.trans (h : Steady w w') (h' : Steady w' w'') : Steady w w'' :=
  ⟨h'.attempts.trans h.attempts,h'.step.trans h.step,h'.pending.trans h.pending,
    h'.marked.trans h.marked⟩

private theorem Steady.of_collector (h : w'.collector = w.collector) : Steady w w' := by
  constructor <;> rw [h]

private theorem WindowInv.steady (h : WindowInv w p) (hsteady : Steady w w') : WindowInv w' p where
  live attempt := by rw [hsteady.attempts,h.live]
  step := h.step.trans hsteady.step.symm
  pending := hsteady.pending.trans h.pending
  marked := by
    rw [hsteady.marked]
    exact h.marked

private theorem steady_ensureActive (cfg : CollectorConfig) (w : World) :
    Steady w (w.ensureActive cfg).2 := by
  unfold World.ensureActive
  split
  · exact .refl w
  · rename_i hnone
    constructor <;> simp [World.sink,World.setActive,hnone]

/-- The open turn changes elsewhere. -/
theorem steady_setActive {a' : ActiveMemberTurn} (ha : w.collector.active = some a)
    (hstep : a'.step = a.step) (hpending : a'.pending = a.pending) :
    Steady w (w.setActive (some a')) := by
  constructor <;> simp [World.setActive,ha,hstep,hpending]

private theorem steady_recordFailure (failure : Option LlmFailureView) :
    Steady w (w.recordFailure failure) := by
  unfold World.recordFailure
  split
  · rename_i ha
    exact steady_setActive ha rfl rfl
  · exact .refl w

private theorem steady_onToolResult (toolCallId : Option String) (isError : Bool)
    (content : List ContentBlockView) :
    Steady w (w.onToolResult cfg toolCallId isError content) := by
  have hwrite : ∀ history, Steady w { w with history := history } := fun _ => .of_collector rfl
  exact ((hwrite _).trans (steady_ensureActive cfg _)).trans (.of_collector rfl)

/-- The table of the turn that an event finds or opens. -/
theorem WindowInv.latched (h : WindowInv w p) (cfg : CollectorConfig) :
    p.step = (w.ensureActive cfg).1.step ∧
      (w.ensureActive cfg).1.pending = p.streamed.foldl notePending [] := by
  have hlatched := h.steady (steady_ensureActive cfg w)
  have hstep := hlatched.step
  have hpending := hlatched.pending
  rw [ensureActive_active] at hstep hpending
  exact ⟨hstep,hpending⟩

/-- The open turn is given another table. -/
theorem WindowInv.setActive (h : WindowInv w p) {q : StreamWindow} (hlive : q.live = p.live)
    (hstep : q.step = a.step) (hpending : a.pending = q.streamed.foldl notePending []) :
    WindowInv (w.setActive (some a)) q where
  live attempt := by rw [hlive]; exact h.live attempt
  step := hstep
  pending := hpending
  marked := h.marked

private theorem WindowInv.sink (h : WindowInv w p) (events : List ChatEvent) :
    WindowInv (w.sink events) p :=
  h.steady (.of_collector rfl)

private theorem WindowInv.setHistory (h : WindowInv w p) (written : TeamHistory × List ChatEvent) :
    WindowInv (w.setHistory written) p :=
  h.steady (.of_collector rfl)

private theorem WindowInv.assistantMessage (h : WindowInv w p) (content : List ContentBlockView)
    (usage : Option TokenUsage) (interrupted : Bool) :
    WindowInv (w.onSessionEvent cfg (.assistantMessage content usage interrupted))
      { p with chunks := [] } := by
  have hlatched := h.steady (steady_ensureActive cfg w)
  apply WindowInv.setHistory
  exact hlatched.setActive rfl (h.latched cfg).1 rfl

/-- A step that is entered again keeps its table. -/
theorem WindowInv.enterStep (h : WindowInv w p) (step : Int) :
    WindowInv (w.enterStep cfg step)
      { p with step := some step, chunks := if p.step = some step then p.chunks else [] } := by
  have hlatched := h.steady (steady_ensureActive cfg w)
  obtain ⟨hstep,hpending⟩ := h.latched cfg
  change WindowInv (if (w.ensureActive cfg).1.step = some step then (w.ensureActive cfg).2
    else (w.ensureActive cfg).2.setActive (some _)) _
  rw [← hstep]
  by_cases hsame : p.step = some step
  · rw [if_pos hsame,if_pos hsame,← hsame]
    exact hlatched
  · rw [if_neg hsame,if_neg hsame]
    exact hlatched.setActive rfl rfl rfl

private theorem WindowInv.setAttempt (h : WindowInv w p) (attempt : String) (step : Option Int) :
    WindowInv (w.setAttempt attempt step)
      { p with live := Function.update p.live attempt step.isSome } where
  live other := by
    by_cases hother : other = attempt
    · subst hother
      simp [World.setAttempt]
    · simp [World.setAttempt,hother,h.live]
  step := h.step
  pending := h.pending
  marked := h.marked

private theorem WindowInv.start (h : WindowInv w p) (attempt : String) (step : Int) :
    WindowInv ((w.setAttempt attempt (some step)).enterStep cfg step) (p.start attempt step) := by
  have hentered := @WindowInv.enterStep cfg _ _ (h.setAttempt attempt (some step)) step
  exact ⟨hentered.live,hentered.step,hentered.pending,hentered.marked⟩

private theorem notePending_usage {chunk : StreamChunk} (h : chunk.type = "usage")
    (pending : List PendingBlock) : notePending pending chunk = pending := by
  unfold notePending
  simp [h]

private theorem WindowInv.chunk (h : WindowInv w p) (attempt : String) (chunk : StreamChunk)
    (step : Int) :
    WindowInv (w.onChunk cfg chunk step) { p with chunks := p.chunks ++ [(attempt,chunk)] } := by
  have hlatched := h.steady (steady_ensureActive cfg w)
  obtain ⟨hstep,hpending⟩ := h.latched cfg
  have hmore : notePending (w.ensureActive cfg).1.pending chunk =
      (StreamWindow.streamed { p with chunks := p.chunks ++ [(attempt,chunk)] }).foldl
        notePending [] := by
    rw [hpending]
    simp [StreamWindow.streamed]
  unfold World.onChunk
  dsimp only
  split
  · rename_i husage
    rw [notePending_usage husage] at hmore
    exact hlatched.setActive rfl hstep hmore
  · split
    · exact hlatched.setActive rfl hstep hmore
    · apply WindowInv.sink
      apply hlatched.setActive
      · rfl
      · unfold remapIndex
        split <;> exact hstep
      · unfold remapIndex
        split <;> exact hmore

private theorem WindowInv.frame (h : WindowInv w p) (attempt : String)
    (frame : AssistantStreamFrame) (hattempt : frame.attemptId = some attempt) :
    WindowInv (w.onAssistantStream cfg (some frame)) (p.frame attempt frame) := by
  unfold World.onAssistantStream StreamWindow.frame
  simp only [hattempt]
  by_cases hstart : frame.type = "start"
  · rw [if_pos hstart,if_pos hstart]
    cases frame.step with
    | none => exact h
    | some step => exact h.start attempt step
  · rw [if_neg hstart,if_neg hstart]
    by_cases hchunk : frame.type = "chunk"
    · rw [if_pos hchunk,if_pos hchunk,h.live]
      cases w.collector.attempts attempt with
      | none => exact h
      | some step =>
        cases frame.chunk with
        | none => exact h
        | some chunk => exact h.chunk attempt chunk step
    · rw [if_neg hchunk,if_neg hchunk]
      exact h.setAttempt attempt none

private theorem WindowInv.status (h : WindowInv w p) (status : String) :
    WindowInv (w.onStatus cfg status) (p.event (.inr (.status status))) := by
  unfold World.onStatus StreamWindow.event
  by_cases hrunning : status = "running"
  · subst hrunning
    exact h.steady (steady_ensureActive cfg w)
  · rw [if_neg hrunning]
    by_cases hidle : status = "idle"
    · simp only [hidle,ne_eq,not_true_eq_false,if_false,if_true]
      cases hactive : w.collector.active with
      | none =>
        constructor
        · exact h.live
        · simp [hactive]
        · simp [hactive,StreamWindow.streamed]
        · exact h.marked
      | some a =>
        have hclosed : WindowInv { w with
            collector := { w.collector with active := none, pendingOutcome := none } }
            { p with step := none, chunks := [] } :=
          ⟨h.live,rfl,rfl,fun _ hmark => nomatch hmark⟩
        apply hclosed.steady
        apply Steady.of_collector
        dsimp only
        split <;> rfl
    · simp only [ne_eq,hidle,not_false_eq_true,if_true,if_false]
      exact h

private theorem WindowInv.event (h : WindowInv w p) (envelope : TeamMemberEvent) :
    WindowInv (w.applyEvent cfg envelope) (p.observe cfg (.envelope envelope)) := by
  unfold World.applyEvent
  change WindowInv _ (if envelope.memberId = cfg.memberId then p.event envelope.event else p)
  by_cases hmember : envelope.memberId = cfg.memberId
  · rw [if_neg (not_not.mpr hmember),if_pos hmember]
    cases envelope.event with
    | inl event =>
      cases event with
      | userMessage content kind role => exact h.steady (.of_collector rfl)
      | assistantMessage content usage interrupted =>
        exact h.assistantMessage content usage interrupted
      | toolCall => exact h
      | toolResult toolCallId isError content =>
        exact h.steady (steady_onToolResult toolCallId isError content)
      | turnEnd kind error =>
        apply h.steady
        dsimp only [World.onSessionEvent]
        split
        · exact steady_recordFailure error
        · exact .refl w
      | other => exact h
    | inr event =>
      cases event with
      | assistantStream frame =>
        cases frame with
        | none => exact h
        | some frame =>
          cases hattempt : frame.attemptId with
          | none =>
            simp only [World.onLiveEvent,World.onAssistantStream,StreamWindow.event,hattempt]
            exact h
          | some attempt =>
            simp only [World.onLiveEvent,StreamWindow.event,hattempt]
            exact h.frame attempt frame hattempt
      | status status => exact h.status status
      | error error => exact h.steady (steady_recordFailure _)
  · rw [if_pos hmember,if_neg hmember]
    exact h

private theorem inductive_window (cfg : CollectorConfig) :
    Lts.Inductive (streamedSystem cfg) Marks fun x => WindowInv x.1 x.2 where
  init x hx := by
    obtain ⟨w,p⟩ := x
    obtain ⟨rfl,rfl⟩ : w = {} ∧ p = {} := hx
    exact ⟨fun _ => rfl,rfl,rfl,fun _ h => nomatch h⟩
  step x l y hx hmarks hstep := by
    obtain ⟨hs,hp⟩ := Lts.journaled_step.mp hstep
    rw [hp]
    cases l with
    | envelope envelope =>
      rw [← Option.some.inj hs]
      exact hx.event envelope
    | markOutcome outcome =>
      rw [← Option.some.inj hs]
      have hmarked : outcome.status ≠ .error := by
        intro herror
        rcases hmarks outcome rfl with h | h <;> simp [h] at herror
      exact ⟨hx.live,hx.step,hx.pending,fun o ho => Option.some.inj ho ▸ hmarked⟩

/-! ## What a failed turn leaves -/

/-- The blocks that the chunks show. -/
def displayed (chunks : List StreamChunk) : List ContentBlock :=
  ((streamedBlocks [] chunks).map PendingBlock.view).filterMap blockToContentBlock

def idle (cfg : CollectorConfig) : TeamMemberEvent :=
  ⟨cfg.memberId,.inr (.status "idle")⟩

/-- The idle status ends a turn with the outcome. -/
def Settles (cfg : CollectorConfig) (w : World) (status : TurnStatus) : Prop :=
  ∃ new turnId error usage, (w.applyEvent cfg (idle cfg)).frames =
    w.frames ++ new ++ [.turnEnd turnId cfg.role status error usage]

/-- The idle status adds one interrupted entry with the blocks, or none if there are no blocks. -/
def LeavesPrefix (cfg : CollectorConfig) (w : World) (blocks : List ContentBlock) : Prop :=
  let after := (w.applyEvent cfg (idle cfg)).history
  if blocks = [] then after = w.history
  else
    after.messages = w.history.messages ++
      [⟨"m" ++ toString w.history.nextMessageId,.agent,blocks,true⟩] ∧
    after.merge = w.history.merge ++ [⟨cfg.role,w.history.messages.length,w.history.nextSeq⟩]

private theorem appendMemberOutput_interrupted (h : TeamHistory) (role : String)
    (content : List ContentBlockView) (recordView : Bool) :
    let after := (h.appendMemberOutput role content true recordView).1
    let blocks := content.filterMap blockToContentBlock
    if blocks = [] then after = h
    else
      after.messages = h.messages ++ [⟨"m" ++ toString h.nextMessageId,.agent,blocks,true⟩] ∧
      after.merge = h.merge ++ [⟨role,h.messages.length,h.nextSeq⟩] := by
  unfold TeamHistory.appendMemberOutput
  dsimp only
  by_cases hblocks : content.filterMap blockToContentBlock = []
  · rw [if_pos hblocks,if_pos hblocks]
  · rw [if_neg hblocks,if_neg hblocks]
    cases recordView <;> exact ⟨rfl,rfl⟩

private theorem applyEvent_idle : w.applyEvent cfg (idle cfg) =
    match w.collector.active with
    | none => w
    | some active =>
      let outcome := w.turnOutcome active
      let blocks := active.pending.map PendingBlock.view
      let closed : World :=
        { w with collector := { w.collector with active := none, pendingOutcome := none } }
      let written := if active.failure.isSome ∧ outcome.status = .error ∧ blocks ≠ [] then
          closed.setHistory (closed.history.appendMemberOutput cfg.role blocks true cfg.recordView)
        else closed
      written.sink [.turnEnd active.turnId cfg.role outcome.status outcome.error
        (if outcome.status = .completed then active.usage.map usageToProto else none)] := by
  have hmember : ¬(idle cfg).memberId ≠ cfg.memberId := not_not.mpr rfl
  unfold World.applyEvent
  rw [if_neg hmember]
  rfl

/-- A turn that ends with an error was told of a failure. -/
theorem WindowInv.settles (h : WindowInv w p) (hsettles : Settles cfg w .error) :
    ∃ a, w.collector.active = some a ∧ a.failure.isSome ∧ (w.turnOutcome a).status = .error := by
  obtain ⟨new,turnId,error,usage,hframes⟩ := hsettles
  rw [applyEvent_idle] at hframes
  cases hactive : w.collector.active with
  | none =>
    rw [hactive] at hframes
    have hlength := congrArg List.length hframes
    simp only [List.length_append,List.length_singleton] at hlength
    omega
  | some a =>
    rw [hactive] at hframes
    have hlast := congrArg List.getLast? hframes
    simp only [World.sink,List.getLast?_append,List.getLast?_singleton,Option.some_or,
      Option.some.injEq,ChatEvent.turnEnd.injEq] at hlast
    have hstatus : (w.turnOutcome a).status = .error := hlast.2.2.1
    refine ⟨a,rfl,?_,hstatus⟩
    unfold World.turnOutcome at hstatus
    cases hmark : w.collector.pendingOutcome with
    | some outcome =>
      rw [hmark] at hstatus
      exact absurd hstatus (h.marked outcome hmark)
    | none =>
      rw [hmark] at hstatus
      cases hfailure : a.failure with
      | some failure => rfl
      | none =>
        rw [hfailure] at hstatus
        cases hstatus

private theorem WindowInv.leavesPrefix (h : WindowInv w p) (hsettles : Settles cfg w .error) :
    LeavesPrefix cfg w (displayed p.streamed) := by
  obtain ⟨a,ha,hfailure,hstatus⟩ := h.settles hsettles
  have hpending : a.pending = streamedBlocks [] p.streamed := by
    have hp := h.pending
    rw [ha,foldl_notePending] at hp
    exact hp
  have happend := appendMemberOutput_interrupted w.history cfg.role
    ((streamedBlocks [] p.streamed).map PendingBlock.view) cfg.recordView
  unfold LeavesPrefix displayed
  rw [applyEvent_idle,ha]
  dsimp only [World.sink]
  rw [hpending]
  by_cases hnone : (streamedBlocks [] p.streamed).map PendingBlock.view = []
  · rw [hnone,List.filterMap_nil,if_pos rfl,if_neg fun hfails => hfails.2.2 rfl]
  · have hfails : a.failure.isSome ∧ (w.turnOutcome a).status = .error ∧
        (streamedBlocks [] p.streamed).map PendingBlock.view ≠ [] := ⟨hfailure,hstatus,hnone⟩
    rw [if_pos hfails]
    exact happend

/-- A turn that fails leaves one interrupted entry with the blocks that the attempts of the running
step have streamed since its last message: those of the last attempt, if no other one streamed. -/
theorem interrupted_blocks (cfg : CollectorConfig) :
    ∀ x, Lts.ReachUnder (streamedSystem cfg) Marks x → Settles cfg x.1 .error →
      LeavesPrefix cfg x.1 (displayed x.2.streamed) ∧
      ((∀ c ∈ x.2.chunks, some c.1 = x.2.attempt) →
        LeavesPrefix cfg x.1 (displayed x.2.ofLast)) := by
  intro x hx hsettles
  have hleaves := ((inductive_window cfg).of_reachUnder hx).leavesPrefix hsettles
  refine ⟨hleaves,?_⟩
  intro honly
  have hown : x.2.ofLast = x.2.streamed := by
    unfold StreamWindow.ofLast StreamWindow.streamed
    rw [List.filter_eq_self.mpr fun c hc => decide_eq_true (honly c hc)]
  rw [hown]
  exact hleaves

end Events

/-! ## A retried step that fails -/

def textStreams (attemptId text : String) : Label :=
  streamed ⟨"chunk",some attemptId,none,
    some { type := "text-delta", index := some 0, text := some text }⟩

/-- An attempt streams a text, and so does the retry of its step, which fails. -/
def retriedStep : List Label :=
  [attemptStarts "attempt-1" 1,textStreams "attempt-1" "first ",
    attemptStarts "attempt-2" 1,textStreams "attempt-2" "retry",
    .envelope ⟨"s/planner",.inr (.error (.object ⟨some "TRANSPORT",some "retry exhausted"⟩))⟩]

/-- What the retried step comes to. -/
def retriedStepEnds (x : World × StreamWindow) : Bool :=
  decide ((x.1.applyEvent planner (idle planner)).frames =
      x.1.frames ++ [.teamMessage "planner" 0 "1"] ++
        [.turnEnd "0" "planner" .error (some ⟨"TRANSPORT","retry exhausted"⟩) none] ∧
    displayed x.2.streamed = [.text "first retry"] ∧ displayed x.2.ofLast = [.text "retry"])

private theorem retriedStep_runs : ∃ x, Lts.ReachUnder (streamedSystem planner) Marks x ∧
    Settles planner x.1 .error ∧ displayed x.2.streamed = [.text "first retry"] ∧
    displayed x.2.ofLast = [.text "retry"] := by
  have hmarks : ∀ (x : World × StreamWindow) (l : Label),
      (match l with | .markOutcome _ => false | _ => true) = true → Marks x l := by
    intro x l hl outcome houtcome
    subst houtcome
    cases hl
  obtain ⟨x,hx,hp⟩ := Lts.reachUnder_of_runUnder_any (M := streamedSystem planner) hmarks
    (s := ({},{})) (p := retriedStepEnds) retriedStep (.init ⟨rfl,rfl⟩) (by decide)
  obtain ⟨hframes,hall,hown⟩ := of_decide_eq_true hp
  exact ⟨x,hx,⟨_,_,_,_,hframes⟩,hall,hown⟩

theorem interrupted_blocks_demo : ∃ x, Lts.ReachUnder (streamedSystem planner) Marks x ∧
    Settles planner x.1 .error ∧ LeavesPrefix planner x.1 [.text "first retry"] := by
  obtain ⟨x,hx,hsettles,hall,-⟩ := retriedStep_runs
  exact ⟨x,hx,hsettles,hall ▸ (interrupted_blocks planner x hx hsettles).1⟩

/-- The entry of a retried step has the text of the attempt that was given up, too. -/
theorem prefix_is_not_the_last_attempts :
    ¬∀ (cfg : CollectorConfig) (x : World × StreamWindow),
      Lts.ReachUnder (streamedSystem cfg) Marks x → Settles cfg x.1 .error →
        LeavesPrefix cfg x.1 (displayed x.2.ofLast) := by
  intro h
  obtain ⟨x,hx,hsettles,hall,hown⟩ := retriedStep_runs
  have hmerged := ((inductive_window planner).of_reachUnder hx).leavesPrefix hsettles
  have hlast := h planner x hx hsettles
  rw [hall] at hmerged
  rw [hown] at hlast
  have hsame := List.append_cancel_left (hmerged.1.symm.trans hlast.1)
  simp at hsame

end Dominion.Chat
