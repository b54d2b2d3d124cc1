import Dominion.Llm.Grouping
import Mathlib.Data.List.Induction

/-! # The translation of a chat completion

What the fragments of a response come to: the blocks in the order they are first seen, each with its
own fragments only. -/
namespace Dominion.Llm.Opencode

open Dominion.Framework

/-- What a fragment belongs to. -/
inductive Source
  | reasoning
  | text
  | toolCall (index : Int)
  deriving DecidableEq, Repr

def Source.kind : Source → BlockKind
  | .reasoning => .reasoning
  | .text => .text
  | .toolCall _ => .toolCall

structure Fragment where
  source : Source
  text : String
  callId : Option String := none
  name : Option String := none
  deriving DecidableEq, Repr

/-- Empty content is no fragment. -/
def contentFragment (source : Source) (content : Option String) : List Fragment :=
  match content with
  | none => []
  | some text => if text = "" then [] else [{ source := source, text := text }]

def toolFragment (call : ChatToolCallDelta) : Fragment :=
  ⟨.toolCall (call.index.getD 0),call.arguments.getD "",call.id,call.name⟩

def fragments (chunk : ChatCompletionChunk) : List Fragment :=
  let delta := (chunk.choice.map ChatChoice.delta).getD {}
  contentFragment .reasoning delta.reasoningContent ++ contentFragment .text delta.content ++
    delta.toolCalls.map toolFragment

/-! ## The blocks -/

/-- The blocks, as they are first seen. -/
def sources (fs : List Fragment) : List Source := (fs.map Fragment.source).eraseDups

def own (fs : List Fragment) (source : Source) : List Fragment :=
  fs.filter fun f => f.source = source

/-- All fragments of one block. -/
def whole (fs : List Fragment) (source : Source) : String :=
  String.join ((own fs source).map Fragment.text)

def lastReported (field : Fragment → Option String) (fs : List Fragment) (source : Source) :
    Option String :=
  ((own fs source).filterMap field).getLast?

def blockOf (fs : List Fragment) (source : Source) : ContentBlock :=
  match source with
  | .reasoning => .reasoning (whole fs source)
  | .text => .text (whole fs source)
  | .toolCall _ =>
    .toolCall ((lastReported Fragment.callId fs source).getD "")
      ((lastReported Fragment.name fs source).getD "") (whole fs source)

/-- The delta of a fragment, once its block is there; `fs` are the fragments up to it. -/
def deltaOf (fs : List Fragment) (f : Fragment) : StreamChunk :=
  let index := (sources fs).idxOf f.source
  match f.source with
  | .reasoning => .reasoningDelta index f.text
  | .text => .textDelta index f.text
  | .toolCall _ =>
    .toolCallDelta index ((lastReported Fragment.callId fs f.source).getD "")
      (lastReported Fragment.name fs f.source) f.text

/-- A fragment after others: the start of its block if it is new, and its delta. -/
def liveChunks (before : List Fragment) (f : Fragment) : List StreamChunk :=
  (if f.source ∈ sources before then []
    else [StreamChunk.blockStart (sources before).length f.source.kind]) ++
    [deltaOf (before ++ [f]) f]

/-- What is handed out while the fragments come in. -/
def liveAll (before : List Fragment) : List Fragment → List StreamChunk
  | [] => []
  | f :: fs => liveChunks before f ++ liveAll (before ++ [f]) fs

def ends (fs : List Fragment) : List StreamChunk :=
  (sources fs).mapIdx fun index source => .blockEnd index (blockOf fs source)

/-- The last reported usage. -/
def usageOf (chunks : List ChatCompletionChunk) : Option TokenUsage :=
  (chunks.filterMap ChatCompletionChunk.usage).getLast?.map mapUsage

/-- The last reported reason. -/
def reportedFinish (upper : String → String) (chunks : List ChatCompletionChunk) :
    Option FinishReason :=
  (chunks.filterMap fun c => c.choice.bind ChatChoice.finishReason).getLast?.map
    (mapFinishReason upper)

section snoc

variable (fs : List Fragment) (f : Fragment) (source : Source)

private theorem sources_snoc : sources (fs ++ [f]) =
    if f.source ∈ sources fs then sources fs else sources fs ++ [f.source] := by
  have hone : [f.source].removeAll (fs.map Fragment.source) =
      if f.source ∈ sources fs then [] else [f.source] := by
    have hiff : f.source ∈ fs.map Fragment.source ↔ f.source ∈ sources fs := by
      rw [sources,List.mem_eraseDups]
    generalize fs.map Fragment.source = seen at hiff
    by_cases hmem : f.source ∈ sources fs
    · simp [List.removeAll,hiff,hmem]
    · simp [List.removeAll,hiff,hmem]
  rw [sources,List.map_append,List.eraseDups_append]
  simp only [List.map_cons,List.map_nil]
  rw [hone]
  split_ifs with hmem
  · exact List.append_nil _
  · rfl

private theorem mem_sources_snoc : f.source ∈ sources (fs ++ [f]) := by
  simp [sources]

private theorem nodup_sources : (sources fs).Nodup := by
  induction fs using List.reverseRecOn with
  | nil => simp [sources]
  | append_singleton fs f ih =>
    rw [sources_snoc]
    split_ifs with hmem
    · exact ih
    · rw [List.nodup_append]
      refine ⟨ih,by simp,?_⟩
      intro a ha b hb hab
      rw [List.mem_singleton] at hb
      exact hmem (hb ▸ hab ▸ ha)

private theorem whole_snoc : whole (fs ++ [f]) source =
    if f.source = source then whole fs source ++ f.text else whole fs source := by
  by_cases h : f.source = source
  · simp [whole,own,h]
  · simp [whole,own,h]

private theorem lastReported_snoc (field : Fragment → Option String) :
    lastReported field (fs ++ [f]) source =
      if f.source = source then (field f).or (lastReported field fs source)
      else lastReported field fs source := by
  by_cases h : f.source = source
  · cases hfield : field f with
    | none => simp [lastReported,own,h,hfield]
    | some value => simp [lastReported,own,h,hfield]
  · simp [lastReported,own,h]

end snoc

/-! ## The wire on one fragment -/

/-- The block as the wire keeps it. -/
def wireBlock (fs : List Fragment) (source : Source) : WireBlock :=
  ⟨source.kind,lastReported Fragment.callId fs source,lastReported Fragment.name fs source,
    whole fs source⟩

/-- The wire after some fragments. -/
structure Heard (fs : List Fragment) (finish : Option FinishReason) (usage : Option TokenUsage)
    (w : Wire) : Prop where
  order : w.order = (sources fs).map (wireBlock fs)
  reasoning : w.reasoningBlock = (sources fs).idxOf? .reasoning
  text : w.textBlock = (sources fs).idxOf? .text
  toolCalls : ∀ index, (w.toolBlocks.find? fun e => e.1 = index).map Prod.snd =
    (sources fs).idxOf? (.toolCall index)
  pending : w.pendingChunks = liveAll [] fs
  finish : w.pendingFinish = finish
  usage : w.pendingUsage = usage
  going : w.finished = false

private theorem liveAll_snoc (before fs : List Fragment) (f : Fragment) :
    liveAll before (fs ++ [f]) = liveAll before fs ++ liveChunks (before ++ fs) f := by
  induction fs generalizing before with
  | nil => simp [liveAll]
  | cons g fs ih => simp [liveAll,ih]

/-- Two lists made from the same blocks that differ in one of them. -/
theorem map_modify {α β : Type} [DecidableEq α] {l : List α} {x : α} {a b : α → β} {change : β → β}
    (hl : l.Nodup) (hchanged : b x = change (a x)) (hsame : ∀ y ∈ l, y ≠ x → b y = a y) :
    (l.map a).modify (l.idxOf x) change = l.map b := by
  apply List.ext_getElem
  · simp
  · intro i hi hi'
    simp only [List.getElem_modify,List.getElem_map]
    split_ifs with hindex
    · subst hindex
      simp [hchanged]
    · have hi'' : i < l.length := by simpa using hi'
      refine (hsame _ (List.getElem_mem hi'') fun heq => hindex ?_).symm
      rw [← heq,hl.idxOf_getElem]

private theorem idxOf?_eq {α : Type} [DecidableEq α] (l : List α) (x : α) :
    l.idxOf? x = if x ∈ l then some (l.idxOf x) else none := by
  induction l with
  | nil => rfl
  | cons y l ih =>
    by_cases hy : y = x
    · simp [List.idxOf?_cons,hy]
    · by_cases hmem : x ∈ l
      · simp [List.idxOf?_cons,hy,ih,hmem,List.idxOf_cons_ne l hy]
      · simp [List.idxOf?_cons,hy,ih,hmem,Ne.symm hy]

private theorem idxOf?_snoc_self (fs : List Fragment) (f : Fragment) :
    (sources (fs ++ [f])).idxOf? f.source = some ((sources (fs ++ [f])).idxOf f.source) := by
  rw [idxOf?_eq,if_pos (mem_sources_snoc fs f)]

private theorem idxOf?_snoc_other (fs : List Fragment) {f : Fragment} {source : Source}
    (h : f.source ≠ source) :
    (sources (fs ++ [f])).idxOf? source = (sources fs).idxOf? source := by
  rw [sources_snoc]
  split_ifs with hnew
  · rfl
  · rw [idxOf?_eq,idxOf?_eq]
    by_cases hmem : source ∈ sources fs
    · simp [hmem,List.idxOf_append_of_mem hmem]
    · simp [hmem,Ne.symm h]

/-- The position of the block of a fragment, whether it is new or not. -/
theorem index_snoc (fs : List Fragment) (f : Fragment) :
    ((sources fs).idxOf? f.source).getD (sources fs).length =
      (sources (fs ++ [f])).idxOf f.source := by
  rw [sources_snoc,idxOf?_eq]
  split_ifs with hmem
  · rfl
  · simp [List.idxOf_append_of_notMem hmem]

private theorem wireBlock_new {fs : List Fragment} {source : Source} (h : source ∉ sources fs) :
    wireBlock fs source = { kind := source.kind } := by
  have hnone : own fs source = [] := by
    rw [own,List.filter_eq_nil_iff]
    intro f hf heq
    apply h
    simp only [sources,List.mem_eraseDups,List.mem_map]
    exact ⟨f,hf,by simpa using heq⟩
  simp [wireBlock,lastReported,whole,hnone]

private theorem order_snoc {w : Wire} {fs : List Fragment}
    (horder : w.order = (sources fs).map (wireBlock fs)) (f : Fragment) :
    (if f.source ∈ sources fs then w.order else w.order ++ [{ kind := f.source.kind }]).modify
      ((sources (fs ++ [f])).idxOf f.source) (fun b =>
        { b with
          callId := f.callId.or b.callId
          name := f.name.or b.name
          text := b.text ++ f.text }) = (sources (fs ++ [f])).map (wireBlock (fs ++ [f])) := by
  have hbase : (if f.source ∈ sources fs then w.order
      else w.order ++ [{ kind := f.source.kind }]) = (sources (fs ++ [f])).map (wireBlock fs) := by
    rw [sources_snoc,horder]
    split_ifs with hmem
    · rfl
    · rw [List.map_append,List.map_singleton,wireBlock_new hmem]
  rw [hbase]
  apply map_modify (nodup_sources _)
  · simp [wireBlock,whole_snoc,lastReported_snoc]
  · intro source _ hother
    simp [wireBlock,whole_snoc,lastReported_snoc,Ne.symm hother]

/-- The position of the block of a fragment that comes next. -/
def position (fs : List Fragment) (f : Fragment) : Nat := (sources (fs ++ [f])).idxOf f.source

private theorem position_old {fs : List Fragment} {f : Fragment} (h : f.source ∈ sources fs) :
    (sources fs).idxOf? f.source = some (position fs f) := by
  rw [position,sources_snoc,if_pos h,idxOf?_eq,if_pos h]

private theorem position_new {fs : List Fragment} {f : Fragment} (h : f.source ∉ sources fs) :
    position fs f = (sources fs).length := by
  rw [position,sources_snoc,if_neg h,List.idxOf_append_of_notMem h]
  simp

section heard

variable {fs : List Fragment} {finish : Option FinishReason} {usage : Option TokenUsage}
  {w w' : Wire}

/-- One more fragment, by what it does to the wire. -/
theorem Heard.snoc (h : Heard fs finish usage w) (f : Fragment)
    (horder : w'.order =
      (if f.source ∈ sources fs then w.order else w.order ++ [{ kind := f.source.kind }]).modify
        (position fs f) fun b =>
          { b with
            callId := f.callId.or b.callId
            name := f.name.or b.name
            text := b.text ++ f.text })
    (hpending : w'.pendingChunks = w.pendingChunks ++ liveChunks fs f)
    (hreasoning : w'.reasoningBlock =
      if f.source = .reasoning then some (position fs f) else w.reasoningBlock)
    (htext : w'.textBlock = if f.source = .text then some (position fs f) else w.textBlock)
    (htools : ∀ index, (w'.toolBlocks.find? fun e => e.1 = index).map Prod.snd =
      if f.source = .toolCall index then some (position fs f)
      else (w.toolBlocks.find? fun e => e.1 = index).map Prod.snd)
    (hfinish : w'.pendingFinish = w.pendingFinish) (husage : w'.pendingUsage = w.pendingUsage)
    (hlive : w'.finished = w.finished) : Heard (fs ++ [f]) finish usage w' := by
  have hblock : ∀ source, (sources (fs ++ [f])).idxOf? source =
      if f.source = source then some (position fs f) else (sources fs).idxOf? source := by
    intro source
    split_ifs with hself
    · rw [← hself]
      exact idxOf?_snoc_self fs f
    · exact idxOf?_snoc_other fs hself
  constructor
  · rw [horder]
    exact order_snoc h.order f
  · rw [hreasoning,hblock,h.reasoning]
  · rw [htext,hblock,h.text]
  · intro index
    rw [htools,hblock,h.toolCalls]
  · rw [hpending,h.pending,liveAll_snoc,List.nil_append]
  · rw [hfinish,h.finish]
  · rw [husage,h.usage]
  · rw [hlive,h.going]

private theorem Heard.length (h : Heard fs finish usage w) :
    w.order.length = (sources fs).length := by
  rw [h.order,List.length_map]

private theorem Heard.mapReasoning (h : Heard fs finish usage w) (content : Option String) :
    Heard (fs ++ contentFragment .reasoning content) finish usage (w.mapReasoning content) := by
  cases content with
  | none => simpa [contentFragment,Wire.mapReasoning] using h
  | some text =>
    by_cases hempty : text = ""
    · simpa [contentFragment,Wire.mapReasoning,hempty] using h
    · rw [contentFragment,if_neg hempty,Wire.mapReasoning,if_neg hempty]
      have hposition := index_snoc fs { source := .reasoning, text := text }
      rw [h.reasoning,h.length,hposition]
      by_cases hmem : Source.reasoning ∈ sources fs
      · rw [if_neg (by simp [hmem])]
        apply h.snoc <;>
          simp [Wire.appendText,Wire.push,hmem,position,liveChunks,deltaOf]
      · rw [if_pos (by simp [hmem])]
        apply h.snoc <;>
          simp [Wire.appendText,Wire.push,Wire.openBlock,hmem,position,liveChunks,deltaOf,
            Source.kind,h.length]

private theorem Heard.mapContent (h : Heard fs finish usage w) (content : Option String) :
    Heard (fs ++ contentFragment .text content) finish usage (w.mapContent content) := by
  cases content with
  | none => simpa [contentFragment,Wire.mapContent] using h
  | some text =>
    by_cases hempty : text = ""
    · simpa [contentFragment,Wire.mapContent,hempty] using h
    · rw [contentFragment,if_neg hempty,Wire.mapContent,if_neg hempty]
      have hposition := index_snoc fs { source := .text, text := text }
      rw [h.text,h.length,hposition]
      by_cases hmem : Source.text ∈ sources fs
      · rw [if_neg (by simp [hmem])]
        apply h.snoc <;>
          simp [Wire.appendText,Wire.push,hmem,position,liveChunks,deltaOf]
      · rw [if_pos (by simp [hmem])]
        apply h.snoc <;>
          simp [Wire.appendText,Wire.push,Wire.openBlock,hmem,position,liveChunks,deltaOf,
            Source.kind,h.length]

/-- The block of a fragment, once the fragment is in it. -/
theorem getElem?_position (fs : List Fragment) (f : Fragment) :
    ((sources (fs ++ [f])).map (wireBlock (fs ++ [f])))[position fs f]? =
      some (wireBlock (fs ++ [f]) f.source) := by
  have hlt : position fs f < (sources (fs ++ [f])).length :=
    List.idxOf_lt_length_of_mem (mem_sources_snoc fs f)
  rw [List.getElem?_map,List.getElem?_eq_getElem hlt]
  simp [position]

private theorem Heard.toolBlock (h : Heard fs finish usage w) (call : ChatToolCallDelta) :
    w.toolBlock (call.index.getD 0) = (position fs (toolFragment call),
      if (toolFragment call).source ∈ sources fs then w
      else { w.openBlock .toolCall with
        toolBlocks := w.toolBlocks ++ [(call.index.getD 0,w.order.length)] }) := by
  have hposition : _ = position fs (toolFragment call) := index_snoc fs (toolFragment call)
  have hfound := h.toolCalls (call.index.getD 0)
  have hsource : (toolFragment call).source = .toolCall (call.index.getD 0) := rfl
  rw [← hposition,hsource,← hfound,← h.length]
  unfold Wire.toolBlock
  cases hblock : w.toolBlocks.find? fun e => e.1 = call.index.getD 0 with
  | none =>
    rw [hblock,Option.map_none] at hfound
    have hnew := List.idxOf?_eq_none_iff.mp hfound.symm
    simp [hnew]
  | some e =>
    rw [hblock,Option.map_some,idxOf?_eq] at hfound
    have hmem : Source.toolCall (call.index.getD 0) ∈ sources fs := by
      by_contra hnot
      rw [if_neg hnot] at hfound
      cases hfound
    simp [hmem]

private theorem Heard.mapToolCall (h : Heard fs finish usage w) (call : ChatToolCallDelta) :
    Heard (fs ++ [toolFragment call]) finish usage (w.mapToolCall call) := by
  have hat : ∀ order, order = (if (toolFragment call).source ∈ sources fs then w.order
      else w.order ++ [{ kind := .toolCall }]) →
      (order.modify (position fs (toolFragment call)) fun b =>
        { b with
          callId := call.id.or b.callId
          name := call.name.or b.name
          text := b.text ++ call.arguments.getD "" })[position fs (toolFragment call)]? =
      some (wireBlock (fs ++ [toolFragment call]) (toolFragment call).source) := by
    rintro order rfl
    rw [← getElem?_position,← order_snoc h.order]
    rfl
  have hdelta : StreamChunk.toolCallDelta (position fs (toolFragment call))
      ((lastReported Fragment.callId (fs ++ [toolFragment call])
        (toolFragment call).source).getD "")
      (lastReported Fragment.name (fs ++ [toolFragment call]) (toolFragment call).source)
      (call.arguments.getD "") = deltaOf (fs ++ [toolFragment call]) (toolFragment call) := rfl
  unfold Wire.mapToolCall
  rw [h.toolBlock call]
  by_cases hmem : (toolFragment call).source ∈ sources fs
  · simp only [if_pos hmem] at hat ⊢
    rw [hat _ rfl]
    apply h.snoc
    · rw [if_pos hmem]
      rfl
    · rw [liveChunks,if_pos hmem,List.nil_append,← hdelta]
      rfl
    · rfl
    · rfl
    · intro index
      change _ = if Source.toolCall (call.index.getD 0) = Source.toolCall index then _ else _
      split_ifs with hindex
      · rw [← position_old hmem]
        cases hindex
        exact h.toolCalls (call.index.getD 0)
      · rfl
    · rfl
    · rfl
    · rfl
  · simp only [if_neg hmem] at hat ⊢
    rw [hat (w.openBlock .toolCall).order rfl]
    apply h.snoc
    · rw [if_neg hmem]
      rfl
    · rw [liveChunks,if_neg hmem,← hdelta,← h.length,← List.append_assoc]
      rfl
    · rfl
    · rfl
    · intro index
      change _ = if Source.toolCall (call.index.getD 0) = Source.toolCall index then _ else _
      simp only [Wire.push,List.find?_append]
      split_ifs with hindex
      · cases hindex
        have hunseen : (sources fs).idxOf? (Source.toolCall (call.index.getD 0)) = none :=
          List.idxOf?_eq_none_iff.mpr hmem
        have hnone := h.toolCalls (call.index.getD 0)
        rw [hunseen,Option.map_eq_none_iff] at hnone
        simp [hnone,position_new hmem,h.length]
      · have hother : call.index.getD 0 ≠ index := fun he => hindex (he ▸ rfl)
        simp [hother]
    · rfl
    · rfl
    · rfl

private theorem Heard.toolCallsAll (h : Heard fs finish usage w) (calls : List ChatToolCallDelta) :
    Heard (fs ++ calls.map toolFragment) finish usage (calls.foldl Wire.mapToolCall w) := by
  induction calls generalizing fs w with
  | nil => simpa using h
  | cons call calls ih =>
    have hrest := ih (h.mapToolCall call)
    rwa [List.append_assoc] at hrest

private theorem Heard.mapChunk (h : Heard fs finish usage w) (upper : String → String)
    (chunk : ChatCompletionChunk) :
    Heard (fs ++ fragments chunk)
      (((chunk.choice.bind ChatChoice.finishReason).map (mapFinishReason upper)).or finish)
      ((chunk.usage.map mapUsage).or usage) (w.mapChunk upper chunk) := by
  let delta := (chunk.choice.map ChatChoice.delta).getD {}
  have hcalls := ((h.mapReasoning delta.reasoningContent).mapContent delta.content).toolCallsAll
    delta.toolCalls
  have hfragments : fs ++ contentFragment .reasoning delta.reasoningContent ++
      contentFragment .text delta.content ++ delta.toolCalls.map toolFragment =
        fs ++ fragments chunk := by
    simp [fragments,delta,List.append_assoc]
  rw [hfragments] at hcalls
  unfold Wire.mapChunk
  rw [if_neg (by simp [h.going])]
  constructor
  · exact hcalls.order
  · exact hcalls.reasoning
  · exact hcalls.text
  · exact hcalls.toolCalls
  · exact hcalls.pending
  · rw [← hcalls.finish]
  · rw [← hcalls.usage]
  · exact hcalls.going

end heard

/-! ## The whole response -/

/-- A chunk, or a keep-alive. -/
def frame (chunk : Option ChatCompletionChunk) : Payload Wire Message :=
  match chunk with
  | none => .message .blank
  | some chunk => .message (.chunk chunk)

/-- The last one of a list, or else what there was before. -/
theorem getLast?_filterMap_cons {α β γ : Type} (pick : α → Option β) (change : β → γ) (x : α)
    (later : List α) (before : Option γ) :
    (((x :: later).filterMap pick).getLast?.map change).or before =
      ((later.filterMap pick).getLast?.map change).or (((pick x).map change).or before) := by
  cases hpick : pick x with
  | none => rw [List.filterMap_cons_none hpick,Option.map_none,Option.none_or]
  | some y =>
    rw [List.filterMap_cons_some hpick,List.getLast?_cons]
    cases (later.filterMap pick).getLast? with
    | none => rfl
    | some z => rfl

variable {fs : List Fragment} {finish : Option FinishReason} {usage : Option TokenUsage} {w : Wire}

private theorem Heard.accept (h : Heard fs finish usage w) (upper : String → String)
    (frames : List (Option ChatCompletionChunk)) :
    ∃ w', (buffered upper).accept w (frames.map frame) = .ok w' ∧
      Heard (fs ++ (frames.filterMap id).flatMap fragments)
        ((reportedFinish upper (frames.filterMap id)).or finish)
        ((usageOf (frames.filterMap id)).or usage) w' := by
  induction frames generalizing fs finish usage w with
  | nil => exact ⟨w,rfl,by simpa [reportedFinish,usageOf] using h⟩
  | cons chunk frames ih =>
    rw [List.map_cons,Buffered.accept_live h.going]
    cases chunk with
    | none => exact ih h
    | some chunk =>
      obtain ⟨w',haccept,hheard⟩ := ih (h.mapChunk upper chunk)
      refine ⟨w',haccept,?_⟩
      have hread : (some chunk :: frames).filterMap id = chunk :: frames.filterMap id := rfl
      rw [hread,List.flatMap_cons,← List.append_assoc,reportedFinish,usageOf,
        getLast?_filterMap_cons,getLast?_filterMap_cons]
      exact hheard

/-- The sentinel hands out the rest. -/
theorem Heard.flushDone (h : Heard fs finish usage w) :
    w.flushDone.pendingChunks = liveAll [] fs ++ ends fs ++ usage.toList.map StreamChunk.usage ++
      [.finish (if finish.getD .stop = .stop ∧ fs = [] then emptyCompletionFinish
        else finish.getD .stop)] := by
  have hends : (w.order.mapIdx fun index block =>
      StreamChunk.blockEnd index (assembledBlock block)) = ends fs := by
    have hblock : ∀ source, assembledBlock (wireBlock fs source) = blockOf fs source := by
      intro source
      cases source with
      | _ => rfl
    apply List.ext_getElem
    · simp [h.order,ends]
    · intro i hi hi'
      simp [h.order,ends,hblock]
  have hempty : w.order = [] ↔ fs = [] := by
    rw [h.order,List.map_eq_nil_iff]
    cases fs with
    | nil => simp [sources]
    | cons f fs => simp [sources,List.eraseDups_cons]
  simp only [Wire.flushDone,Wire.finishReason,hends,hempty,h.pending,h.usage,h.finish]

/-- The start of a block. -/
def started : StreamChunk → Option (Nat × BlockKind)
  | .blockStart index kind => some (index,kind)
  | _ => none

end Dominion.Llm.Opencode
