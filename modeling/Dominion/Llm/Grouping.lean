import Dominion.Llm.GlmWire
import Dominion.Llm.OpencodeWire
import Dominion.Framework.Transducer

/-! # The network's pieces

How the messages of a response fall into pieces of its body, and payloads of another shape. -/
namespace Dominion.Llm

open Dominion.Framework

/-- How a piece of the body fails. -/
inductive Trouble
  | llm (failure : Failure)
  | typeError
  deriving DecidableEq, Repr

/-- The data of one message. -/
inductive Payload (ω : Type) (μ : Type)
  /-- Of the shape the wire is written for, or no JSON at all. -/
  | message (message : μ)
  /-- JSON of another shape: what the wire does with it, if that is no type error. -/
  | misshapen (effect : ω → Option (List StreamChunk × ω))

/-- JSON's `null`: reading a field of it is a type error. -/
def Payload.null {ω μ : Type} : Payload ω μ := .misshapen fun _ => none

/-! ## The Responses endpoint -/

namespace Glm

namespace Wire

/-- Chunks that have been waiting for longer. -/
def behind (waiting : List StreamChunk) (w : Wire) : Wire :=
  { w with pendingChunks := waiting ++ w.pendingChunks }

def drained (w : Wire) : Wire := { w with pendingChunks := [] }

/-- One message on a wire that has not finished. -/
def receive (w : Wire) : Payload Wire Message → Except Trouble Wire
  | .message .blank => .ok w
  | .message .malformed => .error (.llm malformedPayload)
  | .message .untyped => .ok w
  | .message (.event event) => .ok (w.mapEvent event)
  | .misshapen effect =>
    match effect w.drained with
    | none => .error .typeError
    | some (chunks,w') => .ok (w'.drained.push (w.pendingChunks ++ chunks))

end Wire

variable (waiting : List StreamChunk) (w : Wire)

@[simp] theorem finished_behind : (w.behind waiting).finished = w.finished := rfl

@[simp] theorem blocks_behind : (w.behind waiting).blocks = w.blocks := rfl

@[simp] theorem sawToolCall_behind : (w.behind waiting).sawToolCall = w.sawToolCall := rfl

@[simp] theorem blockAt_behind (outputIndex : Int) :
    (w.behind waiting).blockAt outputIndex = w.blockAt outputIndex := rfl

@[simp] theorem push_behind (chunks : List StreamChunk) :
    (w.behind waiting).push chunks = (w.push chunks).behind waiting := by
  simp [Wire.push,Wire.behind]

@[simp] theorem setBlock_behind (outputIndex : Int) (block : WireBlock) :
    (w.behind waiting).setBlock outputIndex block = (w.setBlock outputIndex block).behind waiting :=
  rfl

@[simp] theorem startBlock_behind (outputIndex : Int) (kind : BlockKind)
    (item : Option ResponsesOutputItem) :
    (w.behind waiting).startBlock outputIndex kind item =
      (w.startBlock outputIndex kind item).behind waiting := by
  unfold Wire.startBlock
  rw [finished_behind,blockAt_behind]
  split_ifs with hskip
  · rfl
  · simp [Wire.push,Wire.behind]

@[simp] theorem append_behind (outputIndex : Int) (kind : BlockKind) (fragment : String) :
    (w.behind waiting).append outputIndex kind fragment =
      (w.append outputIndex kind fragment).behind waiting := by
  unfold Wire.append
  rw [blockAt_behind]
  cases w.blockAt outputIndex with
  | none => rfl
  | some block =>
    dsimp only
    split_ifs with hdrop
    · rfl
    · rw [setBlock_behind,push_behind]

@[simp] theorem delta_behind (outputIndex : Int) (kind : BlockKind) (fragment : String) :
    (w.behind waiting).delta outputIndex kind fragment =
      (w.delta outputIndex kind fragment).behind waiting := by
  unfold Wire.delta
  rw [finished_behind]
  split_ifs with hfinished
  · rfl
  · rw [startBlock_behind,append_behind]

@[simp] theorem endBlock_behind (outputIndex : Int) (item : Option ResponsesOutputItem) :
    (w.behind waiting).endBlock outputIndex item =
      (w.endBlock outputIndex item).behind waiting := by
  unfold Wire.endBlock
  rw [finished_behind,blockAt_behind]
  split_ifs with hfinished
  · rfl
  · cases w.blockAt outputIndex with
    | none => rfl
    | some block =>
      dsimp only
      split_ifs with hended
      · rfl
      · rw [setBlock_behind,push_behind]

@[simp] theorem flushFinish_behind (reason : FinishReason) :
    (w.behind waiting).flushFinish reason = (w.flushFinish reason).behind waiting := by
  simp [Wire.flushFinish,Wire.push,Wire.behind]

@[simp] theorem complete_behind (response : ResponsesResponse) (reason : FinishReason) :
    (w.behind waiting).complete response reason = (w.complete response reason).behind waiting :=
  flushFinish_behind waiting { w with usage := extractUsage response }
    (if w.blocks = [] then emptyCompletionFinish else reason)

private theorem mapEvent_behind (event : ResponsesStreamEvent) :
    (w.behind waiting).mapEvent event = (w.mapEvent event).behind waiting := by
  unfold Wire.mapEvent
  rw [finished_behind]
  cases w.finished with
  | true => rfl
  | false =>
    rw [if_neg Bool.false_ne_true,if_neg Bool.false_ne_true]
    cases event with
    | outputItemAdded outputIndex item =>
      dsimp only
      split_ifs <;> simp
    | reasoningSummaryPartAdded outputIndex partType =>
      dsimp only
      split_ifs <;> simp
    | contentPartAdded outputIndex partType =>
      dsimp only
      split_ifs <;> simp
    | completed response => exact complete_behind waiting w response _
    | _ => simp

private theorem receive_behind (payload : Payload Wire Message) :
    (w.behind waiting).receive payload = (w.receive payload).map (Wire.behind waiting) := by
  cases payload with
  | message message =>
    cases message with
    | event event => simp [Wire.receive,mapEvent_behind,Except.map]
    | _ => rfl
  | misshapen effect =>
    have hsame : (w.behind waiting).drained = w.drained := rfl
    simp only [Wire.receive,hsame]
    cases effect w.drained with
    | none => rfl
    | some r => simp [Except.map,Wire.behind,Wire.push,Wire.drained]

/-- The wire with its buffer of chunks. -/
def buffered : Buffered Wire (Payload Wire Message) StreamChunk Trouble where
  take := Wire.receive
  halted := Wire.finished
  pending := Wire.pendingChunks
  drained := Wire.drained
  behind := Wire.behind
  take_behind waiting w := receive_behind waiting w
  halted_behind _ _ := rfl
  pending_behind _ _ := rfl
  drained_behind _ _ := rfl
  behind_drained w := by simp [Wire.behind,Wire.drained]

/-- On payloads of the expected shape this is the wire's own feed. -/
theorem feed_buffered (messages : List Message) :
    buffered.feed w (messages.map .message) =
      match w.feed messages with
      | (.ok chunks,w') => .ok (chunks,w')
      | (.error failure,_) => .error (.llm failure) := by
  have haccept : buffered.accept w (messages.map .message) =
      match w.consume messages with
      | (none,w') => .ok w'
      | (some failure,_) => .error (.llm failure) := by
    induction messages generalizing w with
    | nil => rfl
    | cons message rest ih =>
      cases hfinished : w.finished with
      | true =>
        have hhalted : buffered.halted w = true := hfinished
        simp [Buffered.accept,Wire.consume,hhalted,hfinished]
      | false =>
        rw [List.map_cons,Buffered.accept_live hfinished]
        cases message with
        | malformed =>
          rw [Wire.consume,if_neg (by simp [hfinished])]
          rfl
        | event event =>
          rw [Wire.consume,if_neg (by simp [hfinished])]
          exact ih (w.mapEvent event)
        | blank =>
          rw [Wire.consume,if_neg (by simp [hfinished])]
          exact ih w
        | untyped =>
          rw [Wire.consume,if_neg (by simp [hfinished])]
          exact ih w
  unfold Buffered.feed Wire.feed
  rw [haccept]
  rcases w.consume messages with ⟨failure,v⟩
  cases failure with
  | none => rfl
  | some failure => rfl

/-- Not a JSON object that describes an event. -/
inductive Bad : Payload Wire Message → Prop
  | malformed : Bad (.message .malformed)
  | untyped : Bad (.message .untyped)
  | misshapen (effect : Wire → Option (List StreamChunk × Wire)) : Bad (.misshapen effect)

private theorem receive_good (payload : Payload Wire Message) (h : ¬Bad payload) :
    ∃ t, w.receive payload = .ok t := by
  cases payload with
  | message message =>
    cases message with
    | blank => exact ⟨w,rfl⟩
    | malformed => exact absurd .malformed h
    | untyped => exact ⟨w,rfl⟩
    | event event => exact ⟨w.mapEvent event,rfl⟩
  | misshapen effect => exact absurd (.misshapen effect) h

private theorem receive_bad (payload : Payload Wire Message) (h : Bad payload) :
    w.receive payload = .error (.llm malformedPayload) ↔ payload = .message .malformed := by
  cases h with
  | malformed => simp [Wire.receive]
  | untyped => simp [Wire.receive]
  | misshapen effect =>
    simp only [Wire.receive]
    cases effect w.drained with
    | none => simp
    | some r => simp

/-- The events that finish the response. -/
def terminal : Payload Wire Message → Bool
  | .message (.event (.completed _)) => true
  | .message (.event (.incomplete _)) => true
  | .message (.event (.failed _)) => true
  | .message (.event (.error _)) => true
  | _ => false

/-- The events that say nothing as long as no block has started. -/
def silentEvent : ResponsesStreamEvent → Bool
  | .lifecycle => true
  | .outputItemAdded _ item =>
    item.type ≠ some "reasoning" && item.type ≠ some "message" && item.type ≠ some "function_call"
  | .reasoningSummaryPartAdded _ partType => partType ≠ some "summary_text"
  | .contentPartAdded _ partType => partType ≠ some "output_text"
  | .outputItemDone _ _ => true
  | .contentPartDone _ => true
  | .unknown => true
  | _ => false

def silent : Payload Wire Message → Bool
  | .message (.event event) => silentEvent event
  | _ => true

/-- No block has started and nothing waits. -/
def Quiet (w : Wire) : Prop := w.blocks = [] ∧ w.pendingChunks = []

private theorem finished_startBlock (outputIndex : Int) (kind : BlockKind)
    (item : Option ResponsesOutputItem) :
    (w.startBlock outputIndex kind item).finished = w.finished := by
  unfold Wire.startBlock
  split_ifs <;> rfl

private theorem finished_append (outputIndex : Int) (kind : BlockKind) (fragment : String) :
    (w.append outputIndex kind fragment).finished = w.finished := by
  unfold Wire.append
  cases w.blockAt outputIndex with
  | none => rfl
  | some block =>
    dsimp only
    split_ifs <;> rfl

private theorem finished_delta (outputIndex : Int) (kind : BlockKind) (fragment : String) :
    (w.delta outputIndex kind fragment).finished = w.finished := by
  unfold Wire.delta
  split_ifs with hfinished
  · rfl
  · rw [finished_append,finished_startBlock]

private theorem finished_endBlock (outputIndex : Int) (item : Option ResponsesOutputItem) :
    (w.endBlock outputIndex item).finished = w.finished := by
  unfold Wire.endBlock
  split_ifs with hfinished
  · rfl
  · cases w.blockAt outputIndex with
    | none => rfl
    | some block =>
      dsimp only
      split_ifs <;> rfl

/-- The wire finishes with the terminal events. -/
theorem finished_mapEvent (hlive : w.finished = false) (event : ResponsesStreamEvent) :
    (w.mapEvent event).finished = terminal (.message (.event event)) := by
  unfold Wire.mapEvent
  rw [if_neg (by simp [hlive])]
  cases event with
  | outputItemAdded outputIndex item =>
    dsimp only
    split_ifs <;> simp [terminal,finished_startBlock,hlive]
  | reasoningSummaryPartAdded outputIndex partType =>
    dsimp only
    split_ifs <;> simp [terminal,finished_startBlock,hlive]
  | contentPartAdded outputIndex partType =>
    dsimp only
    split_ifs <;> simp [terminal,finished_startBlock,hlive]
  | completed response => rfl
  | incomplete response => rfl
  | failed response => rfl
  | error error => rfl
  | _ => simp [terminal,finished_delta,finished_endBlock,hlive]

private theorem startBlock_said (hw : Quiet w) (hlive : w.finished = false) (outputIndex : Int)
    (kind : BlockKind) (item : Option ResponsesOutputItem) :
    (w.startBlock outputIndex kind item).pendingChunks ≠ [] := by
  simp [Wire.startBlock,Wire.blockAt,hw.1,hlive,Wire.push]

private theorem delta_said (hw : Quiet w) (hlive : w.finished = false) (outputIndex : Int)
    (kind : BlockKind) (fragment : String) :
    (w.delta outputIndex kind fragment).pendingChunks ≠ [] := by
  simp [Wire.delta,Wire.append,Wire.startBlock,Wire.blockAt,hw.1,hlive,Wire.push,Wire.setBlock]

private theorem endBlock_quiet (hw : Quiet w) (outputIndex : Int)
    (item : Option ResponsesOutputItem) :
    w.endBlock outputIndex item = w := by
  simp [Wire.endBlock,Wire.blockAt,hw.1]

private theorem mapEvent_quiet (hw : Quiet w) (hlive : w.finished = false)
    (event : ResponsesStreamEvent) (hsilent : silentEvent event = true) : w.mapEvent event = w := by
  unfold Wire.mapEvent
  rw [if_neg (by simp [hlive])]
  cases event with
  | outputItemAdded outputIndex item =>
    simp [silentEvent] at hsilent
    simp [hsilent]
  | reasoningSummaryPartAdded outputIndex partType =>
    simp [silentEvent] at hsilent
    simp [hsilent]
  | contentPartAdded outputIndex partType =>
    simp [silentEvent] at hsilent
    simp [hsilent]
  | outputItemDone outputIndex item => exact endBlock_quiet w hw outputIndex _
  | contentPartDone outputIndex => exact endBlock_quiet w hw outputIndex _
  | lifecycle => rfl
  | unknown => rfl
  | _ => simp [silentEvent] at hsilent

private theorem mapEvent_said (hw : Quiet w) (hlive : w.finished = false)
    (event : ResponsesStreamEvent)
    (hloud : silentEvent event = false) : (w.mapEvent event).pendingChunks ≠ [] := by
  unfold Wire.mapEvent
  rw [if_neg (by simp [hlive])]
  cases event with
  | outputItemAdded outputIndex item =>
    dsimp only
    split_ifs with hreasoning hmessage hcall
    · exact startBlock_said w hw hlive _ _ _
    · exact startBlock_said w hw hlive _ _ _
    · exact startBlock_said w hw hlive _ _ _
    · simp [silentEvent,hreasoning,hmessage,hcall] at hloud
  | reasoningSummaryPartAdded outputIndex partType =>
    simp [silentEvent] at hloud
    simpa [hloud] using startBlock_said w hw hlive outputIndex .reasoning none
  | contentPartAdded outputIndex partType =>
    simp [silentEvent] at hloud
    simpa [hloud] using startBlock_said w hw hlive outputIndex .text none
  | reasoningSummaryTextDelta outputIndex fragment => exact delta_said w hw hlive _ _ _
  | reasoningTextDelta outputIndex fragment => exact delta_said w hw hlive _ _ _
  | outputTextDelta outputIndex fragment => exact delta_said w hw hlive _ _ _
  | functionCallArgumentsDelta outputIndex fragment => exact delta_said w hw hlive _ _ _
  | completed response => simp [Wire.complete,Wire.flushFinish,Wire.push]
  | incomplete response => simp [Wire.complete,Wire.flushFinish,Wire.push]
  | failed response => simp [Wire.flushFinish,Wire.push]
  | error error => simp [Wire.flushFinish,Wire.push]
  | _ => simp [silentEvent] at hloud

private theorem sorted :
    Buffered.Sorted buffered Bad (terminal · = true) (silent · = true) Quiet where
  good w payload hgood := receive_good w payload hgood
  ends w payload t hlive hgood htake := by
    cases payload with
    | message message =>
      cases message with
      | malformed => exact absurd .malformed hgood
      | event event =>
        cases htake
        exact iff_of_eq (congrArg (· = true) (finished_mapEvent w hlive event))
      | _ =>
        cases htake
        exact iff_of_eq (congrArg (· = true) hlive)
    | misshapen effect => exact absurd (.misshapen effect) hgood
  nothing w hw := hw.2
  hushed w payload t hw hlive hgood hsilent htake := by
    cases payload with
    | message message =>
      cases message with
      | malformed => exact absurd .malformed hgood
      | event event =>
        cases htake
        exact (mapEvent_quiet w hw hlive event hsilent).symm ▸ hw
      | _ =>
        cases htake
        exact hw
    | misshapen effect => exact absurd (.misshapen effect) hgood
  said w payload t hw hlive hgood hloud htake := by
    cases payload with
    | message message =>
      cases message with
      | malformed => exact absurd .malformed hgood
      | event event =>
        cases htake
        exact mapEvent_said w hw hlive event (by simpa [silent] using hloud)
      | _ => exact absurd rfl hloud
    | misshapen effect => exact absurd (.misshapen effect) hgood

end Glm

/-! ## The chat completions endpoint -/

namespace Opencode

namespace Wire

/-- Chunks that have been waiting for longer. -/
def behind (waiting : List StreamChunk) (w : Wire) : Wire :=
  { w with pendingChunks := waiting ++ w.pendingChunks }

def drained (w : Wire) : Wire := { w with pendingChunks := [] }

/-- One message on a wire that has not finished. -/
def receive (upper : String → String) (w : Wire) : Payload Wire Message → Except Trouble Wire
  | .message .blank => .ok w
  | .message .malformed => .error (.llm malformedPayload)
  | .message .doneSentinel => .ok w.flushDone
  | .message (.chunk chunk) => .ok (w.mapChunk upper chunk)
  | .misshapen effect =>
    match effect w.drained with
    | none => .error .typeError
    | some (chunks,w') => .ok (w'.drained.behind (w.pendingChunks ++ chunks))

end Wire

variable (waiting : List StreamChunk) (w : Wire) (upper : String → String)

@[simp] theorem finished_behind : (w.behind waiting).finished = w.finished := rfl

@[simp] theorem push_behind (chunk : StreamChunk) :
    (w.behind waiting).push chunk = (w.push chunk).behind waiting := by
  simp [Wire.push,Wire.behind]

@[simp] theorem openBlock_behind (kind : BlockKind) :
    (w.behind waiting).openBlock kind = (w.openBlock kind).behind waiting := by
  simp [Wire.openBlock,Wire.push,Wire.behind]

private theorem mapReasoning_behind (content : Option String) :
    (w.behind waiting).mapReasoning content = (w.mapReasoning content).behind waiting := by
  cases content with
  | none => rfl
  | some text =>
    have hsame : (w.behind waiting).reasoningBlock = w.reasoningBlock := rfl
    simp only [Wire.mapReasoning,hsame,openBlock_behind]
    split_ifs with hempty hnew
    · rfl
    · simp [Wire.appendText,Wire.push,Wire.behind]
    · simp [Wire.appendText,Wire.push,Wire.behind]

private theorem mapContent_behind (content : Option String) :
    (w.behind waiting).mapContent content = (w.mapContent content).behind waiting := by
  cases content with
  | none => rfl
  | some text =>
    have hsame : (w.behind waiting).textBlock = w.textBlock := rfl
    simp only [Wire.mapContent,hsame,openBlock_behind]
    split_ifs with hempty hnew
    · rfl
    · simp [Wire.appendText,Wire.push,Wire.behind]
    · simp [Wire.appendText,Wire.push,Wire.behind]

private theorem toolBlock_behind (key : Int) :
    (w.behind waiting).toolBlock key =
      ((w.toolBlock key).1,(w.toolBlock key).2.behind waiting) := by
  have hsame : (w.behind waiting).toolBlocks = w.toolBlocks := rfl
  simp only [Wire.toolBlock,hsame,openBlock_behind]
  cases w.toolBlocks.find? fun e => e.1 = key with
  | none => rfl
  | some e => rfl

private theorem mapToolCall_behind (call : ChatToolCallDelta) :
    (w.behind waiting).mapToolCall call = (w.mapToolCall call).behind waiting := by
  simp only [Wire.mapToolCall,toolBlock_behind]
  simp [Wire.push,Wire.behind]

private theorem toolCalls_behind (calls : List ChatToolCallDelta) :
    calls.foldl Wire.mapToolCall (w.behind waiting) =
      (calls.foldl Wire.mapToolCall w).behind waiting := by
  induction calls generalizing w with
  | nil => rfl
  | cons call calls ih => rw [List.foldl_cons,mapToolCall_behind,ih,List.foldl_cons]

private theorem mapChunk_behind (chunk : ChatCompletionChunk) :
    (w.behind waiting).mapChunk upper chunk = (w.mapChunk upper chunk).behind waiting := by
  unfold Wire.mapChunk
  rw [finished_behind]
  cases w.finished with
  | true => rfl
  | false =>
    rw [if_neg Bool.false_ne_true,if_neg Bool.false_ne_true]
    dsimp only
    rw [mapReasoning_behind,mapContent_behind,toolCalls_behind]
    rfl

private theorem flushDone_behind : (w.behind waiting).flushDone = w.flushDone.behind waiting := by
  have hsame : (w.behind waiting).finishReason = w.finishReason := rfl
  simp only [Wire.flushDone,hsame]
  simp [Wire.behind]

private theorem receive_behind (payload : Payload Wire Message) :
    (w.behind waiting).receive upper payload =
      (w.receive upper payload).map (Wire.behind waiting) := by
  cases payload with
  | message message =>
    cases message with
    | chunk chunk => simp [Wire.receive,mapChunk_behind,Except.map]
    | doneSentinel => simp [Wire.receive,flushDone_behind,Except.map]
    | _ => rfl
  | misshapen effect =>
    have hsame : (w.behind waiting).drained = w.drained := rfl
    simp only [Wire.receive,hsame]
    cases effect w.drained with
    | none => rfl
    | some r => simp [Except.map,Wire.behind,Wire.drained]

/-- The wire with its buffer of chunks. -/
def buffered (upper : String → String) :
    Buffered Wire (Payload Wire Message) StreamChunk Trouble where
  take := Wire.receive upper
  halted := Wire.finished
  pending := Wire.pendingChunks
  drained := Wire.drained
  behind := Wire.behind
  take_behind waiting w := receive_behind waiting w upper
  halted_behind _ _ := rfl
  pending_behind _ _ := rfl
  drained_behind _ _ := rfl
  behind_drained w := by simp [Wire.behind,Wire.drained]

/-- On payloads of the expected shape this is the wire's own feed. -/
theorem feed_buffered (messages : List Message) :
    (buffered upper).feed w (messages.map .message) =
      match w.feed upper messages with
      | (.ok chunks,w') => .ok (chunks,w')
      | (.error failure,_) => .error (.llm failure) := by
  have haccept : (buffered upper).accept w (messages.map .message) =
      match w.consume upper messages with
      | (none,w') => .ok w'
      | (some failure,_) => .error (.llm failure) := by
    induction messages generalizing w with
    | nil => rfl
    | cons message rest ih =>
      cases hfinished : w.finished with
      | true =>
        have hhalted : (buffered upper).halted w = true := hfinished
        simp [Buffered.accept,Wire.consume,hhalted,hfinished]
      | false =>
        rw [List.map_cons,Buffered.accept_live hfinished]
        cases message with
        | malformed =>
          rw [Wire.consume,if_neg (by simp [hfinished])]
          rfl
        | chunk chunk =>
          rw [Wire.consume,if_neg (by simp [hfinished])]
          exact ih (w.mapChunk upper chunk)
        | blank =>
          rw [Wire.consume,if_neg (by simp [hfinished])]
          exact ih w
        | doneSentinel =>
          -- the wire has finished, so the rest is not read
          have hhalted : (buffered upper).halted w.flushDone = true := rfl
          rw [Wire.consume,if_neg (by simp [hfinished])]
          change (buffered upper).accept w.flushDone (rest.map .message) = .ok w.flushDone
          cases rest with
          | nil => rfl
          | cons later rest => simp [Buffered.accept,hhalted]
  unfold Buffered.feed Wire.feed
  rw [haccept]
  rcases w.consume upper messages with ⟨failure,v⟩
  cases failure with
  | none => rfl
  | some failure => rfl

/-- Not a JSON object that describes a chunk. -/
inductive Bad : Payload Wire Message → Prop
  | malformed : Bad (.message .malformed)
  | misshapen (effect : Wire → Option (List StreamChunk × Wire)) : Bad (.misshapen effect)

private theorem receive_good (payload : Payload Wire Message) (h : ¬Bad payload) :
    ∃ t, w.receive upper payload = .ok t := by
  cases payload with
  | message message =>
    cases message with
    | blank => exact ⟨w,rfl⟩
    | malformed => exact absurd .malformed h
    | doneSentinel => exact ⟨w.flushDone,rfl⟩
    | chunk chunk => exact ⟨w.mapChunk upper chunk,rfl⟩
  | misshapen effect => exact absurd (.misshapen effect) h

private theorem receive_bad (payload : Payload Wire Message) (h : Bad payload) :
    w.receive upper payload = .error (.llm malformedPayload) ↔ payload = .message .malformed := by
  cases h with
  | malformed => simp [Wire.receive]
  | misshapen effect =>
    simp only [Wire.receive]
    cases effect w.drained with
    | none => simp
    | some r => simp

/-- The sentinel finishes the response. -/
def terminal : Payload Wire Message → Bool
  | .message .doneSentinel => true
  | _ => false

/-- No text, no reasoning and no tool call. -/
def silentChunk (chunk : ChatCompletionChunk) : Bool :=
  let delta := (chunk.choice.map ChatChoice.delta).getD {}
  delta.reasoningContent.getD "" = "" && delta.content.getD "" = "" && delta.toolCalls.isEmpty

def silent : Payload Wire Message → Bool
  | .message (.chunk chunk) => silentChunk chunk
  | .message .doneSentinel => false
  | _ => true

private theorem mapReasoning_empty {content : Option String} (h : content.getD "" = "") :
    w.mapReasoning content = w := by
  cases content with
  | none => rfl
  | some text => simp_all [Wire.mapReasoning]

private theorem mapContent_empty {content : Option String} (h : content.getD "" = "") :
    w.mapContent content = w := by
  cases content with
  | none => rfl
  | some text => simp_all [Wire.mapContent]

private theorem mapReasoning_said {content : Option String} (h : content.getD "" ≠ "") :
    (w.mapReasoning content).pendingChunks ≠ [] := by
  cases content with
  | none => exact absurd rfl h
  | some text => simp_all [Wire.mapReasoning,Wire.push]

private theorem mapContent_said {content : Option String} (h : content.getD "" ≠ "") :
    (w.mapContent content).pendingChunks ≠ [] := by
  cases content with
  | none => exact absurd rfl h
  | some text => simp_all [Wire.mapContent,Wire.push]

private theorem toolCalls_said {calls : List ChatToolCallDelta} (h : calls ≠ []) :
    (calls.foldl Wire.mapToolCall w).pendingChunks ≠ [] := by
  obtain ⟨front,call,rfl⟩ := List.eq_nil_or_concat calls |>.resolve_left h
  rw [List.concat_eq_append,List.foldl_append]
  simp [Wire.mapToolCall,Wire.push]

private theorem said_of_adds {w w' : Wire} (hadds : Adds w w') (h : w.pendingChunks ≠ []) :
    w'.pendingChunks ≠ [] := by
  obtain ⟨added,hchunks,-⟩ := hadds
  have hchunks' : w'.pendingChunks = w.pendingChunks ++ added := hchunks
  simp [hchunks',h]

private theorem mapChunk_said (hlive : w.finished = false) (chunk : ChatCompletionChunk)
    (hloud : silentChunk chunk = false) : (w.mapChunk upper chunk).pendingChunks ≠ [] := by
  let delta := (chunk.choice.map ChatChoice.delta).getD {}
  have hreasoning := live_mapReasoning hlive delta.reasoningContent
  have hcontent := live_mapContent hreasoning.2 delta.content
  have hcalls := live_toolCalls hcontent.2 delta.toolCalls
  unfold Wire.mapChunk
  rw [if_neg (by simp [hlive])]
  by_cases hr : delta.reasoningContent.getD "" = ""
  · by_cases hc : delta.content.getD "" = ""
    · have hsome : delta.toolCalls ≠ [] := by
        intro hnone
        simp [silentChunk,delta,hr,hc,hnone] at hloud
      exact toolCalls_said _ hsome
    · exact said_of_adds hcalls.1 (mapContent_said _ hc)
  · exact said_of_adds hcalls.1 (said_of_adds hcontent.1 (mapReasoning_said _ hr))

private theorem mapChunk_silent (hlive : w.finished = false) (chunk : ChatCompletionChunk)
    (hsilent : silentChunk chunk = true) :
    (w.mapChunk upper chunk).pendingChunks = w.pendingChunks := by
  simp only [silentChunk,Bool.and_eq_true,decide_eq_true_eq,List.isEmpty_iff] at hsilent
  obtain ⟨⟨hreasoning,hcontent⟩,hcalls⟩ := hsilent
  unfold Wire.mapChunk
  rw [if_neg (by simp [hlive])]
  dsimp only
  rw [mapReasoning_empty w hreasoning,mapContent_empty w hcontent,hcalls]
  rfl

private theorem sorted : Buffered.Sorted (buffered upper) Bad (terminal · = true) (silent · = true)
    (Wire.pendingChunks · = []) where
  good w payload hgood := receive_good w upper payload hgood
  ends w payload t hlive hgood htake := by
    cases payload with
    | message message =>
      cases message with
      | malformed => exact absurd .malformed hgood
      | chunk chunk =>
        cases htake
        exact iff_of_eq (congrArg (· = true) (live_mapChunk upper hlive chunk).2)
      | doneSentinel =>
        cases htake
        exact iff_of_true rfl rfl
      | blank =>
        cases htake
        exact iff_of_eq (congrArg (· = true) hlive)
    | misshapen effect => exact absurd (.misshapen effect) hgood
  nothing w hw := hw
  hushed w payload t hw hlive hgood hsilent htake := by
    cases payload with
    | message message =>
      cases message with
      | malformed => exact absurd .malformed hgood
      | chunk chunk =>
        cases htake
        exact (mapChunk_silent w upper hlive chunk hsilent).trans hw
      | doneSentinel => cases hsilent
      | blank =>
        cases htake
        exact hw
    | misshapen effect => exact absurd (.misshapen effect) hgood
  said w payload t hw hlive hgood hloud htake := by
    cases payload with
    | message message =>
      cases message with
      | malformed => exact absurd .malformed hgood
      | chunk chunk =>
        cases htake
        exact mapChunk_said w upper hlive chunk (by simpa [silent] using hloud)
      | doneSentinel =>
        cases htake
        change w.flushDone.pendingChunks ≠ []
        simp [Wire.flushDone]
      | blank => exact absurd rfl hloud
    | misshapen effect => exact absurd (.misshapen effect) hgood

end Opencode

/-! ## Both -/

section grouping

variable {ω μ : Type}

/-- However the network splits the body, the same chunks are handed out and the response ends the
same way, and every payload of another shape that is reached is reported as malformed. -/
def Steady (wire : Buffered ω (Payload ω μ) StreamChunk Trouble) (malformed : Failure)
    (bad : Payload ω μ → Prop) (start : ω) (payloads : List (Payload ω μ)) : Prop :=
  Independent wire.feed start payloads ∧
    Rejects wire.feed wire.halted bad (.llm malformed) start payloads

/-- If a payload of another shape comes before the end of the response, then the first one is no
JSON, and what comes before it says nothing. -/
def Undisturbed (malformed : μ) (bad : Payload ω μ → Prop) (terminal silent : Payload ω μ → Bool)
    (payloads : List (Payload ω μ)) : Prop :=
  ∀ before payload after, payloads = before ++ payload :: after → bad payload →
    (∀ p ∈ before, ¬bad p ∧ ¬terminal p = true) →
      payload = .message malformed ∧ ∀ p ∈ before, silent p = true

end grouping

/-- On both wires the pieces do not matter and malformed payloads are reported, just when the first
malformed payload is no JSON and follows nothing that is handed out. -/
theorem steady_iff_undisturbed (records : List (Payload Glm.Wire Glm.Message))
    (chunks : List (Payload Opencode.Wire Opencode.Message)) (upper : String → String) :
    (Steady Glm.buffered Glm.malformedPayload Glm.Bad {} records ↔
      Undisturbed .malformed Glm.Bad Glm.terminal Glm.silent records) ∧
      (Steady (Opencode.buffered upper) Opencode.malformedPayload Opencode.Bad {} chunks ↔
        Undisturbed .malformed Opencode.Bad Opencode.terminal Opencode.silent chunks) := by
  constructor
  · exact Glm.sorted.independent_rejects_iff Glm.receive_bad rfl ⟨rfl,rfl⟩ rfl
  · exact (Opencode.sorted upper).independent_rejects_iff (fun w => Opencode.receive_bad w upper)
      rfl rfl rfl

/-- A text fragment before a malformed payload gets lost if both come in one piece, and `null` is a
type error on either wire. -/
theorem malformed_behind_text_and_null :
    let fragment : Payload Opencode.Wire Opencode.Message :=
      .message (.chunk { choice := some { delta := { content := some "hi" } } })
    feeds (Opencode.buffered id).feed {} [[fragment,.message .malformed]] =
      ([],.error (.llm Opencode.malformedPayload)) ∧
    feeds (Opencode.buffered id).feed {} [[fragment],[.message .malformed]] =
      ([.blockStart 0 .text,.textDelta 0 "hi"],.error (.llm Opencode.malformedPayload)) ∧
    ¬Independent (Opencode.buffered id).feed {} [fragment,.message .malformed] ∧
    ¬Rejects (Opencode.buffered id).feed Opencode.Wire.finished Opencode.Bad
      (.llm Opencode.malformedPayload) {} [.null] ∧
    ¬Rejects Glm.buffered.feed Glm.Wire.finished Glm.Bad
      (.llm Glm.malformedPayload) {} [.null] := by
  intro fragment
  have htogether : feeds (Opencode.buffered id).feed {} [[fragment,.message .malformed]] =
      ([],.error (.llm Opencode.malformedPayload)) := rfl
  have happart : feeds (Opencode.buffered id).feed {} [[fragment],[.message .malformed]] =
      ([.blockStart 0 .text,.textDelta 0 "hi"],.error (.llm Opencode.malformedPayload)) := rfl
  refine ⟨htogether,happart,fun hsame => ?_,fun hrejects => ?_,fun hrejects => ?_⟩
  · have h := hsame [[fragment,.message .malformed]] [[fragment],[.message .malformed]] rfl rfl
    rw [htogether,happart] at h
    cases (Prod.mk.inj h).1
  · have h := hrejects [] .null [] [] {} rfl (.misshapen _) rfl rfl
    cases h
  · have h := hrejects [] .null [] [] {} rfl (.misshapen _) rfl rfl
    cases h

end Dominion.Llm
