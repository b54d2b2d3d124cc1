import Dominion.Llm.Adapter
import Mathlib.Data.List.Basic

/-! # The wire of the chat completions endpoint

The ends of the blocks, the usage and the finish wait for the sentinel. -/
namespace Dominion.Llm.Opencode

open Dominion.Llm

structure ChatCompletionsUsage where
  promptTokens : Option Nat := none
  completionTokens : Option Nat := none
  reasoningTokens : Option Nat := none
  deriving DecidableEq, Repr

structure ChatToolCallDelta where
  index : Option Int := none
  id : Option String := none
  name : Option String := none
  arguments : Option String := none
  deriving DecidableEq, Repr

structure ChatDelta where
  reasoningContent : Option String := none
  content : Option String := none
  toolCalls : List ChatToolCallDelta := []
  deriving DecidableEq, Repr

structure ChatChoice where
  delta : ChatDelta := {}
  finishReason : Option String := none
  deriving DecidableEq, Repr

/-- A chunk with its first choice. -/
structure ChatCompletionChunk where
  choice : Option ChatChoice := none
  usage : Option ChatCompletionsUsage := none
  deriving DecidableEq, Repr

structure WireBlock where
  kind : BlockKind
  callId : Option String := none
  name : Option String := none
  text : String := ""
  deriving DecidableEq, Repr

structure Wire where
  pendingChunks : List StreamChunk := []
  /-- The blocks in the order of their starts; the position is the index. -/
  order : List WireBlock := []
  toolBlocks : List (Int × Nat) := []
  finished : Bool := false
  reasoningBlock : Option Nat := none
  textBlock : Option Nat := none
  pendingFinish : Option FinishReason := none
  pendingUsage : Option TokenUsage := none
  deriving DecidableEq, Repr

/-- An unknown reason is an error with the reason in upper case as its code. -/
def mapFinishReason (upper : String → String) (reason : String) : FinishReason :=
  if reason = "stop" then .stop
  else if reason = "tool_calls" then .toolCalls
  else if reason = "length" then .maxTokens
  else .error ⟨"model stopped: " ++ reason,upper reason⟩

def mapUsage (usage : ChatCompletionsUsage) : TokenUsage :=
  ⟨usage.promptTokens.getD 0,usage.completionTokens.getD 0,usage.reasoningTokens⟩

def assembledBlock (block : WireBlock) : ContentBlock :=
  match block.kind with
  | .reasoning => .reasoning block.text
  | .text => .text block.text
  | .toolCall => .toolCall (block.callId.getD "") (block.name.getD "") block.text

def emptyCompletionFinish : FinishReason :=
  .error ⟨"OpenCode Go stream finished without any content blocks","EMPTY_RESPONSE"⟩

namespace Wire

variable (w : Wire)

def push (chunk : StreamChunk) : Wire :=
  { w with pendingChunks := w.pendingChunks ++ [chunk] }

/-- A new block, announced. -/
def openBlock (kind : BlockKind) : Wire :=
  let block : WireBlock := { kind := kind }
  { w with order := w.order ++ [block] }.push (.blockStart w.order.length kind)

def appendText (index : Nat) (fragment : String) : Wire :=
  { w with order := w.order.modify index fun b => { b with text := b.text ++ fragment } }

/-- Empty content is skipped. -/
def mapReasoning (content : Option String) : Wire :=
  match content with
  | none => w
  | some text =>
    if text = "" then w
    else
      let index := w.reasoningBlock.getD w.order.length
      let started := if w.reasoningBlock = none then w.openBlock .reasoning else w
      ({ started with reasoningBlock := some index }.appendText index text).push
        (.reasoningDelta index text)

def mapContent (content : Option String) : Wire :=
  match content with
  | none => w
  | some text =>
    if text = "" then w
    else
      let index := w.textBlock.getD w.order.length
      let started := if w.textBlock = none then w.openBlock .text else w
      ({ started with textBlock := some index }.appendText index text).push
        (.textDelta index text)

/-- The position of a tool call's block; a missing index shares the block of index zero. -/
def toolBlock (key : Int) : Nat × Wire :=
  match w.toolBlocks.find? fun e => e.1 = key with
  | some e => (e.2,w)
  | none =>
    (w.order.length,
      { w.openBlock .toolCall with toolBlocks := w.toolBlocks ++ [(key,w.order.length)] })

def mapToolCall (call : ChatToolCallDelta) : Wire :=
  let (index,started) := w.toolBlock (call.index.getD 0)
  let fragment := call.arguments.getD ""
  let named := { started with
    order := started.order.modify index fun b =>
      { b with
        callId := call.id.or b.callId
        name := call.name.or b.name
        text := b.text ++ fragment } }
  let block := named.order[index]?
  named.push (.toolCallDelta index ((block.bind WireBlock.callId).getD "")
    (block.bind WireBlock.name) fragment)

def mapChunk (upper : String → String) (chunk : ChatCompletionChunk) : Wire :=
  if w.finished then w
  else
    let delta := (chunk.choice.map ChatChoice.delta).getD {}
    let mapped := delta.toolCalls.foldl mapToolCall
      ((w.mapReasoning delta.reasoningContent).mapContent delta.content)
    { mapped with
      pendingFinish :=
        ((chunk.choice.bind ChatChoice.finishReason).map (mapFinishReason upper)).or mapped.pendingFinish
      pendingUsage := (chunk.usage.map mapUsage).or mapped.pendingUsage }

/-- A stop without any block is no success. -/
def finishReason : FinishReason :=
  if w.pendingFinish.getD .stop = .stop ∧ w.order = [] then emptyCompletionFinish
  else w.pendingFinish.getD .stop

/-- The sentinel: the ends of all blocks, the usage and the finish. -/
def flushDone : Wire :=
  { w with
    pendingChunks := w.pendingChunks ++
      (w.order.mapIdx fun index block => StreamChunk.blockEnd index (assembledBlock block)) ++
      w.pendingUsage.toList.map StreamChunk.usage ++
      [.finish w.finishReason]
    pendingUsage := none
    finished := true }

end Wire

inductive Message
  | blank
  | malformed
  /-- The data of the last frame. -/
  | doneSentinel
  | chunk (chunk : ChatCompletionChunk)
  deriving DecidableEq, Repr

def malformedPayload : Failure :=
  ⟨"OpenCode Go stream carried a malformed event payload","MALFORMED_RESPONSE"⟩

def endedWithoutDone : Failure :=
  ⟨"OpenCode Go stream ended without [DONE]","STREAM_CLOSED"⟩

namespace Wire

/-- The messages of one piece of the body, up to a malformed one. -/
def consume (upper : String → String) (w : Wire) : List Message → Option Failure × Wire
  | [] => (none,w)
  | message :: rest =>
    if w.finished then (none,w)
    else
      match message with
      | .doneSentinel => (none,w.flushDone)
      | .blank => w.consume upper rest
      | .malformed => (some malformedPayload,w)
      | .chunk chunk => (w.mapChunk upper chunk).consume upper rest

def feed (upper : String → String) (w : Wire) (messages : List Message) :
    Except Failure (List StreamChunk) × Wire :=
  match w.consume upper messages with
  | (some failure,w) => (.error failure,w)
  | (none,w) => (.ok w.pendingChunks,{ w with pendingChunks := [] })

/-- The end of the body. -/
def close (w : Wire) : Except Failure (List StreamChunk) :=
  if w.finished then .ok w.pendingChunks else .error endedWithoutDone

end Wire

/-! ## The finish comes last -/

section chunks

/-- The chunks that a step of the wire adds. -/
def Adds (w w' : Wire) : Prop :=
  Sends (w.pendingChunks,w.finished) (w'.pendingChunks,w'.finished)

variable {w w' : Wire}

private theorem live_openBlock (hlive : w.finished = false) (kind : BlockKind) :
    Adds w (w.openBlock kind) ∧ (w.openBlock kind).finished = false := by
  have hstart : ∀ c ∈ [StreamChunk.blockStart w.order.length kind], c.finished = none := by
    simp [StreamChunk.finished]
  exact ⟨Sends.of_live hlive hlive rfl hstart,hlive⟩

theorem live_mapReasoning (hlive : w.finished = false) (content : Option String) :
    Adds w (w.mapReasoning content) ∧ (w.mapReasoning content).finished = false := by
  cases content with
  | none => exact ⟨Sends.refl _,hlive⟩
  | some text =>
    by_cases hempty : text = ""
    · rw [Wire.mapReasoning,if_pos hempty]
      exact ⟨Sends.refl _,hlive⟩
    · have hstarted : Adds w (if w.reasoningBlock = none then w.openBlock .reasoning else w) ∧
          (if w.reasoningBlock = none then w.openBlock .reasoning else w).finished = false := by
        split
        · exact live_openBlock hlive .reasoning
        · exact ⟨Sends.refl _,hlive⟩
      rw [Wire.mapReasoning,if_neg hempty]
      refine ⟨hstarted.1.trans ?_,hstarted.2⟩
      exact Sends.of_live hstarted.2 hstarted.2 rfl (by simp [StreamChunk.finished])

theorem live_mapContent (hlive : w.finished = false) (content : Option String) :
    Adds w (w.mapContent content) ∧ (w.mapContent content).finished = false := by
  cases content with
  | none => exact ⟨Sends.refl _,hlive⟩
  | some text =>
    by_cases hempty : text = ""
    · rw [Wire.mapContent,if_pos hempty]
      exact ⟨Sends.refl _,hlive⟩
    · have hstarted : Adds w (if w.textBlock = none then w.openBlock .text else w) ∧
          (if w.textBlock = none then w.openBlock .text else w).finished = false := by
        split
        · exact live_openBlock hlive .text
        · exact ⟨Sends.refl _,hlive⟩
      rw [Wire.mapContent,if_neg hempty]
      refine ⟨hstarted.1.trans ?_,hstarted.2⟩
      exact Sends.of_live hstarted.2 hstarted.2 rfl (by simp [StreamChunk.finished])

private theorem live_toolBlock (hlive : w.finished = false) (key : Int) :
    Adds w (w.toolBlock key).2 ∧ (w.toolBlock key).2.finished = false := by
  unfold Wire.toolBlock
  cases w.toolBlocks.find? fun e => e.1 = key with
  | none =>
    have hopened := live_openBlock hlive .toolCall
    exact ⟨hopened.1.trans (Sends.same hopened.2 hopened.2 rfl),hopened.2⟩
  | some e => exact ⟨Sends.refl _,hlive⟩

private theorem live_mapToolCall (hlive : w.finished = false) (call : ChatToolCallDelta) :
    Adds w (w.mapToolCall call) ∧ (w.mapToolCall call).finished = false := by
  have hstarted := live_toolBlock hlive (call.index.getD 0)
  refine ⟨hstarted.1.trans ?_,hstarted.2⟩
  exact Sends.of_live hstarted.2 hstarted.2 rfl (by simp [StreamChunk.finished])

theorem live_toolCalls (hlive : w.finished = false) (calls : List ChatToolCallDelta) :
    Adds w (calls.foldl Wire.mapToolCall w) ∧ (calls.foldl Wire.mapToolCall w).finished = false := by
  induction calls generalizing w with
  | nil => exact ⟨Sends.refl _,hlive⟩
  | cons call calls ih =>
    have hcall := live_mapToolCall hlive call
    have hrest := ih hcall.2
    exact ⟨hcall.1.trans hrest.1,hrest.2⟩

theorem live_mapChunk (upper : String → String) (hlive : w.finished = false)
    (chunk : ChatCompletionChunk) :
    Adds w (w.mapChunk upper chunk) ∧ (w.mapChunk upper chunk).finished = false := by
  let delta := (chunk.choice.map ChatChoice.delta).getD {}
  have hreasoning := live_mapReasoning hlive delta.reasoningContent
  have hcontent := live_mapContent hreasoning.2 delta.content
  have hcalls := live_toolCalls hcontent.2 delta.toolCalls
  unfold Wire.mapChunk
  rw [if_neg (by simp [hlive])]
  exact ⟨hreasoning.1.trans (hcontent.1.trans (hcalls.1.trans (Sends.same hcalls.2 hcalls.2 rfl))),
    hcalls.2⟩

private theorem adds_flushDone (hlive : w.finished = false) : Adds w w.flushDone := by
  refine ⟨(w.order.mapIdx fun index block => StreamChunk.blockEnd index (assembledBlock block)) ++
    w.pendingUsage.toList.map StreamChunk.usage ++ [.finish w.finishReason],?_,?_⟩
  · simp [Wire.flushDone]
  · rw [hlive]
    refine .last fun c hc => ?_
    rcases List.mem_append.mp hc with hc | hc
    · obtain ⟨i,hi,rfl⟩ := List.mem_mapIdx.mp hc
      rfl
    · obtain ⟨u,-,rfl⟩ := List.mem_map.mp hc
      rfl

private theorem adds_consume {w w' : Wire} (upper : String → String) (messages : List Message)
    (h : w.consume upper messages = (none,w')) :
    Adds w w' := by
  induction messages generalizing w with
  | nil =>
    cases h
    exact Sends.refl _
  | cons message rest ih =>
    cases hfinished : w.finished with
    | true =>
      simp only [Wire.consume,hfinished,if_true] at h
      cases h
      exact Sends.refl _
    | false =>
      simp only [Wire.consume,hfinished] at h
      cases message with
      | blank => exact ih h
      | malformed => cases h
      | doneSentinel =>
        cases h
        exact adds_flushDone hfinished
      | chunk chunk => exact (live_mapChunk upper hfinished chunk).1.trans (ih h)

private theorem consume_error (upper : String → String) (messages : List Message)
    {failure : Failure}
    (h : w.consume upper messages = (some failure,w')) : w.finished = false := by
  cases hfinished : w.finished with
  | false => rfl
  | true =>
    cases messages with
    | nil => cases h
    | cons message rest =>
      simp only [Wire.consume,hfinished,if_true] at h
      cases h

end chunks

/-- The chat completions wire of one response. -/
def streamWire (upper : String → String) : StreamWire Wire Message where
  start := {}
  feed w messages := w.feed upper messages
  close w _ := w.close
  finished := Wire.finished
  idle w := w.pendingChunks = []
  start_idle := ⟨rfl,rfl⟩
  feed_ok := by
    intro w w' messages chunks hidle hfeed
    unfold Wire.feed at hfeed
    rcases hconsume : w.consume upper messages with ⟨failure,v⟩
    cases failure with
    | some failure =>
      rw [hconsume] at hfeed
      cases hfeed
    | none =>
      obtain ⟨added,hchunks,hadded⟩ := adds_consume upper messages hconsume
      rw [hconsume] at hfeed
      cases hfeed
      rw [hidle,List.nil_append] at hchunks
      have hsame : v.pendingChunks = added := hchunks
      exact ⟨rfl,hsame ▸ hadded⟩
  feed_error := by
    intro w w' messages failure hfeed
    unfold Wire.feed at hfeed
    rcases hconsume : w.consume upper messages with ⟨failed,v⟩
    cases failed with
    | some failed => exact consume_error upper messages hconsume
    | none =>
      rw [hconsume] at hfeed
      cases hfeed
  close_ok := by
    intro w saw chunks hidle hclose
    obtain ⟨-,hsame⟩ : w.finished = true ∧ w.pendingChunks = chunks := by
      unfold Wire.close at hclose
      split at hclose
      · rename_i hfinished
        exact ⟨hfinished,Except.ok.inj hclose⟩
      · cases hclose
    exact hsame.symm.trans hidle
  close_finished := by
    intro w hidle hfinished
    simp [Wire.close,hfinished,hidle]

end Dominion.Llm.Opencode
