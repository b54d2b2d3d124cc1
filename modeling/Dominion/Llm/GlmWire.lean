import Dominion.Llm.Chunks
import Mathlib.Data.List.Basic

/-! # The wire of the Responses endpoint

The translation of the provider's events into chunks. -/
namespace Dominion.Llm.Glm


structure ResponsesOutputItem where
  type : Option String := none
  callId : Option String := none
  name : Option String := none
  arguments : Option String := none
  deriving DecidableEq, Repr

structure ResponsesUsage where
  inputTokens : Option Nat := none
  outputTokens : Option Nat := none
  reasoningTokens : Option Nat := none
  deriving DecidableEq, Repr

/-- An error as the provider reports it; a code that is no string counts as missing. -/
structure ResponsesError where
  message : Option String := none
  code : Option String := none
  deriving DecidableEq, Repr

structure ResponsesResponse where
  error : Option ResponsesError := none
  usage : Option ResponsesUsage := none
  deriving DecidableEq, Repr

inductive ResponsesStreamEvent
  | lifecycle
  | outputItemAdded (outputIndex : Int) (item : ResponsesOutputItem)
  | reasoningSummaryPartAdded (outputIndex : Int) (partType : Option String)
  | reasoningSummaryTextDelta (outputIndex : Int) (delta : String)
  | reasoningTextDelta (outputIndex : Int) (delta : String)
  | contentPartAdded (outputIndex : Int) (partType : Option String)
  | outputTextDelta (outputIndex : Int) (delta : String)
  | functionCallArgumentsDelta (outputIndex : Int) (delta : String)
  | outputItemDone (outputIndex : Int) (item : ResponsesOutputItem)
  | contentPartDone (outputIndex : Int)
  | completed (response : ResponsesResponse)
  | incomplete (response : ResponsesResponse)
  | failed (response : ResponsesResponse)
  | error (error : ResponsesError)
  | unknown
  deriving DecidableEq, Repr

structure WireBlock where
  index : Nat
  kind : BlockKind
  callId : Option String
  name : Option String
  /-- The accumulated text or argument fragments. -/
  text : String
  ended : Bool
  deriving DecidableEq, Repr

structure Wire where
  /-- The blocks by output index, in the order of their starts. -/
  blocks : List (Int × WireBlock) := []
  pendingChunks : List StreamChunk := []
  nextIndex : Nat := 0
  finished : Bool := false
  sawToolCall : Bool := false
  usage : Option TokenUsage := none
  deriving DecidableEq, Repr

def extractUsage (response : ResponsesResponse) : Option TokenUsage :=
  response.usage.map fun u => ⟨u.inputTokens.getD 0,u.outputTokens.getD 0,u.reasoningTokens⟩

def failureOf (error : Option ResponsesError) : Failure :=
  match error with
  | some error => ⟨error.message.getD "GLM Responses stream failed",error.code.getD "UNKNOWN"⟩
  | none => ⟨"GLM Responses stream failed","UNKNOWN"⟩

def emptyCompletionFinish : FinishReason :=
  .error ⟨"GLM Responses stream finished without any content blocks","EMPTY_RESPONSE"⟩

/-- The terminal block; a tool call without fragments takes the arguments of the item. -/
def assembledBlock (block : WireBlock) (item : Option ResponsesOutputItem) : ContentBlock :=
  match block.kind with
  | .reasoning => .reasoning block.text
  | .text => .text block.text
  | .toolCall =>
    .toolCall (block.callId.getD ((item.bind ResponsesOutputItem.callId).getD ""))
      ((block.name.or (item.bind ResponsesOutputItem.name)).getD "")
      (if block.text ≠ "" then block.text
      else (item.bind ResponsesOutputItem.arguments).getD "")

def deltaChunk (block : WireBlock) (fragment : String) : StreamChunk :=
  match block.kind with
  | .toolCall => .toolCallDelta block.index (block.callId.getD "") none fragment
  | .text => .textDelta block.index fragment
  | .reasoning => .reasoningDelta block.index fragment

namespace Wire

variable (w : Wire)

def push (chunks : List StreamChunk) : Wire :=
  { w with pendingChunks := w.pendingChunks ++ chunks }

def blockAt (outputIndex : Int) : Option WireBlock :=
  (w.blocks.find? fun e => e.1 = outputIndex).map Prod.snd

def setBlock (outputIndex : Int) (block : WireBlock) : Wire :=
  { w with blocks := w.blocks.map fun e => if e.1 = outputIndex then (e.1,block) else e }

/-- A block is announced once for its output index. -/
def startBlock (outputIndex : Int) (kind : BlockKind) (item : Option ResponsesOutputItem) : Wire :=
  if w.finished ∨ (w.blockAt outputIndex).isSome then w
  else
    { w with
      blocks := w.blocks ++ [(outputIndex,
        (⟨w.nextIndex,kind,item.bind ResponsesOutputItem.callId,
          item.bind ResponsesOutputItem.name,"",false⟩ : WireBlock))]
      nextIndex := w.nextIndex + 1
      sawToolCall := w.sawToolCall || decide (kind = BlockKind.toolCall) }.push
      [.blockStart w.nextIndex kind]

/-- A fragment for a block that has ended or is of another kind is dropped. -/
def append (outputIndex : Int) (kind : BlockKind) (fragment : String) : Wire :=
  match w.blockAt outputIndex with
  | none => w
  | some block =>
    if block.ended ∨ block.kind ≠ kind then w
    else
      (w.setBlock outputIndex { block with text := block.text ++ fragment }).push
        [deltaChunk block fragment]

/-- A fragment starts its block if there is none. -/
def delta (outputIndex : Int) (kind : BlockKind) (fragment : String) : Wire :=
  if w.finished then w
  else (w.startBlock outputIndex kind none).append outputIndex kind fragment

def endBlock (outputIndex : Int) (item : Option ResponsesOutputItem) : Wire :=
  if w.finished then w
  else
    match w.blockAt outputIndex with
    | none => w
    | some block =>
      if block.ended then w
      else
        (w.setBlock outputIndex { block with ended := true }).push
          [.blockEnd block.index (assembledBlock block item)]

def flushFinish (reason : FinishReason) : Wire :=
  { w with usage := none, finished := true }.push
    ((w.usage.toList.map StreamChunk.usage) ++ [StreamChunk.finish reason])

/-- A terminal event that reports no failure. -/
def complete (response : ResponsesResponse) (reason : FinishReason) : Wire :=
  { w with usage := extractUsage response }.flushFinish
    (if w.blocks = [] then emptyCompletionFinish else reason)

def mapEvent (event : ResponsesStreamEvent) : Wire :=
  if w.finished then w
  else
    match event with
    | .lifecycle => w
    | .outputItemAdded outputIndex item =>
      if item.type = some "reasoning" then w.startBlock outputIndex .reasoning (some item)
      else if item.type = some "message" then w.startBlock outputIndex .text (some item)
      else if item.type = some "function_call" then w.startBlock outputIndex .toolCall (some item)
      else w
    | .reasoningSummaryPartAdded outputIndex partType =>
      if partType = some "summary_text" then w.startBlock outputIndex .reasoning none else w
    | .reasoningSummaryTextDelta outputIndex fragment => w.delta outputIndex .reasoning fragment
    | .reasoningTextDelta outputIndex fragment => w.delta outputIndex .reasoning fragment
    | .contentPartAdded outputIndex partType =>
      if partType = some "output_text" then w.startBlock outputIndex .text none else w
    | .outputTextDelta outputIndex fragment => w.delta outputIndex .text fragment
    | .functionCallArgumentsDelta outputIndex fragment => w.delta outputIndex .toolCall fragment
    | .outputItemDone outputIndex item => w.endBlock outputIndex (some item)
    | .contentPartDone outputIndex => w.endBlock outputIndex none
    | .completed response =>
      w.complete response (if w.sawToolCall then .toolCalls else .stop)
    | .incomplete response => w.complete response .maxTokens
    | .failed response => w.flushFinish (.error (failureOf response.error))
    | .error error => w.flushFinish (.error (failureOf (some error)))
    | .unknown => w

end Wire

/-- A parsed frame of the event stream. -/
inductive Message
  /-- The data of a keep-alive frame is blank. -/
  | blank
  | malformed
  /-- Neither the payload nor the frame names a type. -/
  | untyped
  | event (event : ResponsesStreamEvent)
  deriving DecidableEq, Repr

def malformedPayload : Failure :=
  ⟨"GLM Responses stream carried a malformed event payload","MALFORMED_RESPONSE"⟩

namespace Wire

/-- The messages of one piece of the body, up to a malformed one. -/
def consume (w : Wire) : List Message → Option Failure × Wire
  | [] => (none,w)
  | message :: rest =>
    if w.finished then (none,w)
    else
      match message with
      | .blank => w.consume rest
      | .malformed => (some malformedPayload,w)
      | .untyped => w.consume rest
      | .event event => (w.mapEvent event).consume rest

/-- The chunks of one piece of the body; after a failure they stay pending. -/
def feed (w : Wire) (messages : List Message) : Except Failure (List StreamChunk) × Wire :=
  match w.consume messages with
  | (some failure,w) => (.error failure,w)
  | (none,w) => (.ok w.pendingChunks,{ w with pendingChunks := [] })

end Wire

end Dominion.Llm.Glm
