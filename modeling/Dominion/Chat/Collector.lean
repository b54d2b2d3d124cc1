import Dominion.Chat.History
import Dominion.Framework.Lts
import Mathlib.Logic.Function.Basic

/-! # The member collector

It turns the events of one member into frames.  A turn is opened by whichever event needs one
first and closed by the idle status. -/
namespace Dominion.Chat

open Dominion.Framework

structure StreamChunk where
  type : String
  index : Option Int := none
  text : Option String := none
  blockType : Option String := none
  id : Option String := none
  name : Option String := none
  argumentsDelta : Option String := none
  block : Option ContentBlockView := none
  usage : Option TokenUsage := none
  deriving DecidableEq, Repr

structure AssistantStreamFrame where
  type : String
  attemptId : Option String := none
  step : Option Int := none
  chunk : Option StreamChunk := none
  deriving DecidableEq, Repr

/-- A failure whose fields may be missing. -/
structure LlmFailureView where
  code : Option String
  message : Option String
  deriving DecidableEq, Repr

inductive SessionEvent
  | userMessage (content : List ContentBlockView) (kind : String) (role : Option String)
  | assistantMessage (content : List ContentBlockView) (usage : Option TokenUsage)
    (interrupted : Bool)
  | toolCall
  | toolResult (toolCallId : Option String) (isError : Bool) (content : List ContentBlockView)
  | turnEnd (kind : Option String) (error : Option LlmFailureView)
  | other
  deriving DecidableEq, Repr

/-- A thrown value. -/
inductive Thrown
  | nullish
  | object (view : LlmFailureView)
  | primitive (text : String)
  deriving DecidableEq, Repr

def toFailure : Thrown → Option LlmFailureView
  | .nullish => none
  | .object view => some view
  | .primitive text => some ⟨some "UNKNOWN",some text⟩

inductive LiveEvent
  | assistantStream (frame : Option AssistantStreamFrame)
  | status (status : String)
  | error (error : Thrown)
  deriving DecidableEq, Repr

structure TeamMemberEvent where
  memberId : String
  event : SessionEvent ⊕ LiveEvent
  deriving DecidableEq, Repr

structure TurnOutcome where
  status : TurnStatus
  error : Option LlmFailure
  deriving DecidableEq, Repr

structure PendingBlock where
  index : Int
  view : ContentBlockView
  deriving DecidableEq, Repr

structure ActiveMemberTurn where
  turnId : String
  usage : Option TokenUsage := none
  failure : Option LlmFailure := none
  /-- The step that was declared last. -/
  step : Option Int := none
  /-- The block indexes of the turn by those of the provider. -/
  localIndexes : Int → Option Nat := fun _ => none
  nextIndex : Nat := 0
  /-- The blocks of the current step that have been streamed only. -/
  pending : List PendingBlock := []

structure MemberCollector where
  active : Option ActiveMemberTurn := none
  pendingOutcome : Option TurnOutcome := none
  /-- The step of each live attempt. -/
  attempts : String → Option Int := fun _ => none

/-- What a collector is built with; `mint` hands out the turn identities. -/
structure CollectorConfig where
  memberId : String
  role : String
  recordView : Bool
  mint : Nat → String

structure World where
  collector : MemberCollector := {}
  history : TeamHistory := {}
  /-- The number of identities that were handed out. -/
  minted : Nat := 0
  frames : List ChatEvent := []

/-- The names that a lookup in an object literal finds without an entry of its own. -/
def inheritedNames : List String :=
  ["constructor","__defineGetter__","__defineSetter__","hasOwnProperty","__lookupGetter__",
    "__lookupSetter__","isPrototypeOf","propertyIsEnumerable","toString","valueOf","__proto__",
    "toLocaleString"]

def blockTypes (name : String) : Option BlockType :=
  if name = "text" then some .text
  else if name = "reasoning" then some .think
  else if name = "tool-call" then some .toolCall
  else if name ∈ inheritedNames then some (.inherited name)
  else none

/-- The frame of a chunk, up to the index of its block: the index is assigned exactly if there is a
frame. -/
def chunkToChatEvent (chunk : StreamChunk) (turnId member : String) (step : Int) :
    Option (Nat → ChatEvent) :=
  if chunk.type = "block-start" then
    (blockTypes (chunk.blockType.getD "")).map fun type index =>
      .blockStart turnId member index type step
        (if chunk.blockType = some "tool-call" then some (chunk.id.getD "",chunk.name.getD "")
        else none)
  else if chunk.type = "text-delta" ∨ chunk.type = "reasoning-delta" then
    some fun index => .delta turnId member index (chunk.text.getD "") step
  else if chunk.type = "tool-call-delta" then
    some fun index => .delta turnId member index (chunk.argumentsDelta.getD "") step
  else if chunk.type = "block-end" then
    (chunk.block.bind blockToContentBlock).map fun block index =>
      .blockEnd turnId member index block step
  else none

/-- Adding a text to a missing one spells the missing one out. -/
def appendText (view : ContentBlockView) (text : String) : ContentBlockView :=
  { view with text := some (view.text.getD "undefined" ++ text) }

/-- The streamed blocks after a chunk. -/
def notePending (pending : List PendingBlock) (chunk : StreamChunk) : List PendingBlock :=
  let index := chunk.index.getD 0
  if chunk.type = "reasoning-delta" ∨ chunk.type = "text-delta" then
    let pending := if pending.any fun entry => entry.index = index then pending
      else pending ++ [⟨index,⟨if chunk.type = "reasoning-delta" then "reasoning" else "text",
        some "",none,none,none⟩⟩]
    match pending.findIdx? fun entry => entry.index = index with
    | none => pending
    | some i => pending.modify i fun entry =>
        { entry with view := appendText entry.view (chunk.text.getD "") }
  else if chunk.type = "block-end" then
    match chunk.block with
    | none => pending
    | some block => pending.filter (fun entry => entry.index ≠ index) ++ [⟨index,block⟩]
  else pending

/-- The index of a block in the turn; a block seen first gets the next one. -/
def remapIndex (active : ActiveMemberTurn) (localIndex : Int) : Nat × ActiveMemberTurn :=
  match active.localIndexes localIndex with
  | some assigned => (assigned,active)
  | none =>
    (active.nextIndex,
      { active with
        nextIndex := active.nextIndex + 1
        localIndexes := Function.update active.localIndexes localIndex (some active.nextIndex) })

namespace World

variable (cfg : CollectorConfig) (w : World)

def sink (events : List ChatEvent) : World :=
  { w with frames := w.frames ++ events }

def setActive (active : Option ActiveMemberTurn) : World :=
  { w with collector := { w.collector with active := active } }

def setHistory (written : TeamHistory × List ChatEvent) : World :=
  { w with history := written.1 }.sink written.2

/-- The open turn, after opening one if there is none. -/
def ensureActive : ActiveMemberTurn × World :=
  match w.collector.active with
  | some active => (active,w)
  | none =>
    let active : ActiveMemberTurn := { turnId := cfg.mint w.minted }
    (active,({ w with minted := w.minted + 1 }.setActive (some active)).sink
      [.turnStart active.turnId cfg.role])

def enterStep (step : Int) : World :=
  let (active,w) := w.ensureActive cfg
  if active.step = some step then w
  else w.setActive (some { active with
    step := some step
    localIndexes := fun _ => none
    pending := [] })

def onChunk (chunk : StreamChunk) (step : Int) : World :=
  let (active,w) := w.ensureActive cfg
  if chunk.type = "usage" then w.setActive (some { active with usage := chunk.usage })
  else
    let active := { active with pending := notePending active.pending chunk }
    match chunkToChatEvent chunk active.turnId cfg.role step with
    | none => w.setActive (some active)
    | some event =>
      let remapped := remapIndex active (chunk.index.getD 0)
      (w.setActive (some remapped.2)).sink [event remapped.1]

def setAttempt (attemptId : String) (step : Option Int) : World :=
  { w with collector := { w.collector with
    attempts := Function.update w.collector.attempts attemptId step } }

def onAssistantStream (frame : Option AssistantStreamFrame) : World :=
  match frame with
  | none => w
  | some frame =>
    match frame.attemptId with
    | none => w
    | some attemptId =>
      if frame.type = "start" then
        match frame.step with
        | none => w
        | some step => (w.setAttempt attemptId (some step)).enterStep cfg step
      else if frame.type = "chunk" then
        match w.collector.attempts attemptId,frame.chunk with
        | some step,some chunk => w.onChunk cfg chunk step
        | _,_ => w
      else w.setAttempt attemptId none

/-- The first failure of a turn counts. -/
def recordFailure (failure : Option LlmFailureView) : World :=
  match w.collector.active,failure with
  | some active,some failure =>
    w.setActive (some { active with
      failure := active.failure.or
        (some ⟨failure.code.getD "UNKNOWN",failure.message.getD ""⟩) })
  | _,_ => w

def turnOutcome (active : ActiveMemberTurn) : TurnOutcome :=
  w.collector.pendingOutcome.getD
    (match active.failure with
    | none => ⟨.completed,none⟩
    | some failure => ⟨.error,some failure⟩)

/-- A failed turn leaves the blocks that were streamed only as an interrupted output. -/
def onStatus (status : String) : World :=
  if status = "running" then (w.ensureActive cfg).2
  else if status ≠ "idle" then w
  else
    match w.collector.active with
    | none => w
    | some active =>
      let outcome := w.turnOutcome active
      let pendingBlocks := active.pending.map PendingBlock.view
      let w := { w with collector := { w.collector with active := none, pendingOutcome := none } }
      let w := if active.failure.isSome ∧ outcome.status = .error ∧ pendingBlocks ≠ [] then
          w.setHistory (w.history.appendMemberOutput cfg.role pendingBlocks true cfg.recordView)
        else w
      let usage := if outcome.status = .completed then active.usage.map usageToProto else none
      w.sink [.turnEnd active.turnId cfg.role outcome.status outcome.error usage]

def onToolResult (toolCallId : Option String) (isError : Bool) (content : List ContentBlockView) :
    World :=
  let toolId := toolCallId.getD ""
  let status : ToolStatus := if isError then .failed else .succeeded
  let result := String.join (content.map fun candidate =>
    if candidate.type = "text" then candidate.text.getD "" else "")
  let w := { w with history := (w.history.settleToolResult cfg.role toolId status result).2 }
  let (active,w) := w.ensureActive cfg
  w.sink [.toolResult active.turnId cfg.role toolId status result]

def onSessionEvent : SessionEvent → World
  | .userMessage content kind role =>
    w.setHistory (w.history.appendMemberViewUser cfg.role content kind role cfg.recordView)
  | .assistantMessage content usage interrupted =>
    let (active,w) := w.ensureActive cfg
    let w := w.setActive (some { active with usage := usage.or active.usage, pending := [] })
    w.setHistory (w.history.appendMemberOutput cfg.role content interrupted cfg.recordView)
  | .toolCall => w
  | .toolResult toolCallId isError content => w.onToolResult cfg toolCallId isError content
  | .turnEnd kind error => if kind = some "error" then w.recordFailure error else w
  | .other => w

def onLiveEvent : LiveEvent → World
  | .assistantStream frame => w.onAssistantStream cfg frame
  | .status status => w.onStatus cfg status
  | .error error => w.recordFailure (toFailure error)

/-- An envelope of another member is ignored. -/
def applyEvent (envelope : TeamMemberEvent) : World :=
  if envelope.memberId ≠ cfg.memberId then w
  else
    match envelope.event with
    | .inl event => w.onSessionEvent cfg event
    | .inr event => w.onLiveEvent cfg event

def markOutcome (outcome : TurnOutcome) : World :=
  { w with collector := { w.collector with pendingOutcome := some outcome } }

end World

inductive Label
  | envelope (envelope : TeamMemberEvent)
  | markOutcome (outcome : TurnOutcome)
  deriving DecidableEq, Repr

/-- One collector with the history it writes. -/
def collectorSystem (cfg : CollectorConfig) : Lts World Label where
  init w := w = {}
  step w
    | .envelope envelope => some (w.applyEvent cfg envelope)
    | .markOutcome outcome => some (w.markOutcome outcome)

end Dominion.Chat
