import Dominion.Chat.History
import Mathlib.Logic.Function.Basic

/-! # The chat store of the web client

The reducer of the frames of a session, and the store that the streams of `send` feed.  A record
indexed by member is a function: an absent key is an empty list. -/
namespace Dominion.Web

open Dominion.Chat (ContentBlock HistoryMessage ToolStatus)

def USER_MEMBER : String := "user"

structure QueuedMsg where
  text : String
  position : Int
  deriving DecidableEq, Repr

/-- The block that a draft will become, with its index. -/
structure BlockDraft where
  index : Int
  content : ContentBlock
  deriving DecidableEq, Repr

/-- The draft of one output step of a member. -/
structure StepDraft where
  step : Int
  blocks : List BlockDraft
  settled : Bool
  deriving DecidableEq, Repr

/-- The step and the index of a block. -/
abbrev BlockKey := Int × Int

/-- What a live turn shows. -/
structure TurnDraft where
  member : String
  turnId : String
  steps : List StepDraft
  /-- The leading steps that the merged sequence already holds. -/
  fixedSteps : Nat
  deriving DecidableEq, Repr

/-- A live turn, with the stream whose deltas each block takes. -/
structure LiveMemberTurn extends TurnDraft where
  owners : BlockKey → Option Nat

structure TeamMessageEntry where
  member : String
  message : HistoryMessage
  seq : Int
  projected : Bool := false
  isOpen : Bool := false
  deriving DecidableEq, Repr

structure MemberViewEntry where
  message : HistoryMessage
  sender : String
  projected : Bool := false
  isOpen : Bool := false
  deriving DecidableEq, Repr

structure ChatState where
  history : List TeamMessageEntry := []
  memberHistory : String → List MemberViewEntry := fun _ => []
  live : List LiveMemberTurn := []
  queue : List QueuedMsg := []
  error : Option String := none
  canceled : Bool := false

def EMPTY_STATE : ChatState := {}

inductive BlockType
  | unspecified
  | text
  | think
  | toolCall
  deriving DecidableEq, Repr

inductive TurnStatus
  | unspecified
  | completed
  | error
  | aborted
  | canceled
  deriving DecidableEq, Repr

inductive EventBody
  | queued (position : Int)
  | teamMessage (member : String) (message : HistoryMessage) (seq : Int)
  | memberView (member sender : String) (message : HistoryMessage)
  | turnStart
  | blockStart (step : Option Int) (index : Int) (type : BlockType) (toolId name : Option String)
  | delta (step : Option Int) (index : Int) (text : String)
  | blockEnd (step : Option Int) (index : Int) (block : ContentBlock)
  | toolResult (toolId : String) (status : ToolStatus) (result : String)
  | turnEnd (status : TurnStatus) (error : Option String)
  /-- A branch of the protocol that this client does not know. -/
  | unknown
  deriving DecidableEq, Repr

/-- A frame; the member and the turn of a team-level frame are empty. -/
structure ChatEvent where
  member : String
  turnId : String
  body : EventBody
  deriving DecidableEq, Repr

/-- A frame without a step is of the group 0. -/
def eventStep (step : Option Int) : Int :=
  step.getD 0

def blockKey (step : Option Int) (index : Int) : BlockKey :=
  (eventStep step,index)

/-- A block without an owner is claimed by the stream. -/
def claimBlock (owners : BlockKey → Option Nat) (key : BlockKey) (streamId : Nat) :
    BlockKey → Option Nat :=
  if owners key = none then Function.update owners key (some streamId) else owners

def blockStartDraft (index : Int) (type : BlockType) (toolId name : Option String) : BlockDraft :=
  match type with
  | .toolCall => ⟨index,.toolCall (toolId.getD "") (name.getD "") "" .running none⟩
  | .think => ⟨index,.think ""⟩
  | .text => ⟨index,.text ""⟩
  | .unspecified => ⟨index,.text ""⟩

/-- The draft with the text of a delta. -/
def BlockDraft.append (draft : BlockDraft) (text : String) : BlockDraft :=
  match draft.content with
  | .text content => { draft with content := .text (content ++ text) }
  | .think content => { draft with content := .think (content ++ text) }
  | .toolCall toolId name args status result =>
    { draft with content := .toolCall toolId name (args ++ text) status result }

/-- The terminal text of a draft that is no tool call. -/
def overlayText (draft : BlockDraft) (text : String) : BlockDraft :=
  match draft.content with
  | .text _ => { draft with content := .text text }
  | .think _ => { draft with content := .think text }
  | .toolCall _ _ _ _ _ => draft

/-- The terminal block laid over the draft. -/
def blockEndTerminal (draft : BlockDraft) (block : ContentBlock) : BlockDraft :=
  match block with
  | .toolCall toolId name args status result =>
    { draft with content := .toolCall toolId name args status result }
  | .think content => overlayText draft content
  | .text content => overlayText draft content

/-- A running call of the tool id reaches its terminal status. -/
def settleBlock (toolId : String) (status : ToolStatus) (result : String) (block : ContentBlock) :
    ContentBlock :=
  match block with
  | .toolCall id name args state shown =>
    if id = toolId ∧ state = .running then .toolCall id name args status (some result)
    else .toolCall id name args state shown
  | .think content => .think content
  | .text content => .text content

def settleDraft (toolId : String) (status : ToolStatus) (result : String) (draft : BlockDraft) :
    BlockDraft :=
  { draft with content := settleBlock toolId status result draft.content }

/-- The first block of a new step settles the steps before it; a block that its step has stays. -/
def appendBlockStart (steps : List StepDraft) (step : Int) (draft : BlockDraft) : List StepDraft :=
  match steps.find? fun s => s.step = step with
  | some group =>
    if group.blocks.any fun b => b.index = draft.index then steps
    else steps.map fun s => if s.step = step then { s with blocks := s.blocks ++ [draft] } else s
  | none => (steps.map fun s => { s with settled := true }) ++ [⟨step,[draft],false⟩]

/-- One operation on the drafts of a block. -/
def mapStepBlocks (steps : List StepDraft) (step index : Int) (f : BlockDraft → BlockDraft) :
    List StepDraft :=
  steps.map fun s =>
    if s.step = step then { s with blocks := s.blocks.map fun b => if b.index = index then f b else b }
    else s

def settleSteps (toolId : String) (status : ToolStatus) (result : String)
    (steps : List StepDraft) : List StepDraft :=
  steps.map fun s => { s with blocks := s.blocks.map (settleDraft toolId status result) }

def settleMessage (toolId : String) (status : ToolStatus) (result : String)
    (message : HistoryMessage) : HistoryMessage :=
  { message with blocks := message.blocks.map (settleBlock toolId status result) }

/-- An entry without such a running call is unchanged. -/
def settleHistoryEntry (toolId : String) (status : ToolStatus) (result : String)
    (entry : TeamMessageEntry) : TeamMessageEntry :=
  { entry with message := settleMessage toolId status result entry.message }

def settleMemberHistory (toolId : String) (status : ToolStatus) (result : String)
    (memberHistory : String → List MemberViewEntry) : String → List MemberViewEntry :=
  fun member => (memberHistory member).map fun entry =>
    { entry with message := settleMessage toolId status result entry.message }

/-- One message for each step; only the last one is marked as interrupted. -/
def stepsToHistory (steps : List StepDraft) (interrupted : Bool) : List HistoryMessage :=
  steps.mapIdx fun i s =>
    { messageId := "", role := .agent, blocks := s.blocks.map BlockDraft.content
      interrupted := interrupted && i + 1 == steps.length }

/-- Before the first entry of a greater seq. -/
def insertBySeq (history : List TeamMessageEntry) (entry : TeamMessageEntry) :
    List TeamMessageEntry :=
  history.takeWhile (fun e => e.seq ≤ entry.seq) ++
    entry :: history.dropWhile fun e => e.seq ≤ entry.seq

/-- The member of a frame: its own, or that of the only live turn. -/
def eventMember (state : ChatState) (event : ChatEvent) : Option String :=
  if event.member ≠ "" then some event.member
  else
    match state.live with
    | [turn] => some turn.member
    | _ => none

def TurnDraft.key (turn : TurnDraft) : String × String :=
  (turn.member,turn.turnId)

def findLiveTurn (state : ChatState) (member : Option String) (turnId : String) : Option Nat :=
  match member with
  | none => none
  | some member => state.live.findIdx? fun t => t.key = (member,turnId)

/-- Placeholders for the unconsolidated steps, at negative places below every seq. -/
def projectTail (history : List TeamMessageEntry) (member : String)
    (messages : List HistoryMessage) : List TeamMessageEntry :=
  let seq := history.foldl (fun least e => min least e.seq) 0
  messages.mapIdx fun i message => ⟨member,message,seq - (i + 1),true,false⟩

def appendMemberInputView (memberHistory : String → List MemberViewEntry) (member : String)
    (message : HistoryMessage) (sender : String) : String → List MemberViewEntry :=
  let view := memberHistory member
  if message.messageId ≠ "" ∧ view.any (fun e => e.message.messageId = message.messageId) then
    memberHistory
  else Function.update memberHistory member (view ++ [⟨message,sender,false,false⟩])

/-- One output of a member in its own view, in the place of its first placeholder if there is one. -/
def appendMemberView (memberHistory : String → List MemberViewEntry) (member : String)
    (message : HistoryMessage) (isOpen : Bool) : String → List MemberViewEntry :=
  let view := memberHistory member
  if message.messageId ≠ "" ∧ view.any (fun e => e.message.messageId = message.messageId) then
    memberHistory
  else
    match view.findIdx? fun e => e.projected with
    | some i => Function.update memberHistory member (view.set i ⟨message,member,false,false⟩)
    | none => Function.update memberHistory member (view ++ [⟨message,member,false,isOpen⟩])

def projectMemberTail (memberHistory : String → List MemberViewEntry) (member : String)
    (messages : List HistoryMessage) : String → List MemberViewEntry :=
  Function.update memberHistory member
    (memberHistory member ++ messages.map fun message => ⟨message,member,true,false⟩)

def clearMemberOpen (state : ChatState) (member : String) : ChatState :=
  { state with
    history := state.history.map fun e => if e.member = member then { e with isOpen := false } else e
    memberHistory := Function.update state.memberHistory member
      ((state.memberHistory member).map fun e => { e with isOpen := false }) }

/-- A closed turn leaves its unconsolidated steps as placeholders. -/
def closeLiveTurn (state : ChatState) (index : Nat) (interrupted : Bool) : ChatState :=
  match state.live[index]? with
  | none => state
  | some turn =>
    let live := state.live.eraseIdx index
    let closed := clearMemberOpen state turn.member
    let pending := turn.steps.drop turn.fixedSteps
    if pending = [] then { closed with live }
    else
      let messages := stepsToHistory pending interrupted
      { closed with
        live
        history := closed.history ++ projectTail closed.history turn.member messages
        memberHistory := projectMemberTail closed.memberHistory turn.member messages }

/-- A turn that is not found leaves the state. -/
def closeFound (state : ChatState) (index : Option Nat) (interrupted : Bool) : ChatState :=
  match index with
  | none => state
  | some index => closeLiveTurn state index interrupted

/-- The first turn of the member with an unconsolidated step has one less. -/
def consumeFixedStep (live : List LiveMemberTurn) (member : String) : List LiveMemberTurn :=
  match live.findIdx? fun t => t.member = member ∧ t.fixedSteps < t.steps.length with
  | none => live
  | some index =>
    live.modify index fun t => { t with fixedSteps := min (t.fixedSteps + 1) t.steps.length }

def ContentBlock.text? : ContentBlock → Option String
  | .text content => some content
  | .think _ => none
  | .toolCall _ _ _ _ _ => none

/-- Without the first chip of the same text. -/
def consumeQueueText (queue : List QueuedMsg) (message : HistoryMessage) : List QueuedMsg :=
  let text := (message.blocks.findSome? ContentBlock.text?).getD ""
  match queue.findIdx? fun q => q.text = text with
  | none => queue
  | some index => queue.eraseIdx index

def reduceTeamMessage (state : ChatState) (member : String) (message : HistoryMessage)
    (seq : Int) : ChatState :=
  if member = "" then state
  else if state.history.any (fun e => !e.projected && e.seq == seq) then state
  else
    let isOpen := member != USER_MEMBER && state.live.any fun t => t.member == member
    { state with
      history :=
        match state.history.findIdx? fun e => e.projected && e.member == member with
        | some i => state.history.set i ⟨member,message,seq,false,false⟩
        | none => insertBySeq state.history ⟨member,message,seq,false,isOpen⟩
      memberHistory :=
        if member = USER_MEMBER then state.memberHistory
        else appendMemberView state.memberHistory member message isOpen
      live := consumeFixedStep state.live member }

def reduceMemberView (state : ChatState) (member sender : String) (message : HistoryMessage) :
    ChatState :=
  if member = "" ∨ member = USER_MEMBER then state
  else
    { state with
      memberHistory := appendMemberInputView state.memberHistory member message sender
      queue := if sender = "user" then consumeQueueText state.queue message else state.queue }

def reduceTurnStart (state : ChatState) (event : ChatEvent) : ChatState :=
  match eventMember state event with
  | none => state
  | some member =>
    if (findLiveTurn state (some member) event.turnId).isSome then state
    else
      { state with
        live := state.live ++ [⟨⟨member,event.turnId,[],0⟩,fun _ => none⟩]
        error := none
        canceled := false }

/-- The frames of a block change the turn that they name. -/
def onTurn (state : ChatState) (event : ChatEvent) (f : LiveMemberTurn → LiveMemberTurn) :
    ChatState :=
  match findLiveTurn state (eventMember state event) event.turnId with
  | none => state
  | some index => { state with live := state.live.modify index f }

def LiveMemberTurn.start (key : BlockKey) (draft : BlockDraft) (streamId : Nat)
    (t : LiveMemberTurn) : LiveMemberTurn :=
  { t with
    steps := appendBlockStart t.steps key.1 draft
    owners := claimBlock t.owners key streamId }

/-- The drafts of the block changed, and the block claimed. -/
def LiveMemberTurn.onBlock (key : BlockKey) (f : BlockDraft → BlockDraft) (streamId : Nat)
    (t : LiveMemberTurn) : LiveMemberTurn :=
  { t with
    steps := mapStepBlocks t.steps key.1 key.2 f
    owners := claimBlock t.owners key streamId }

/-- The delta of a block that another stream owns is a duplicate. -/
def LiveMemberTurn.delta (key : BlockKey) (text : String) (streamId : Nat) (t : LiveMemberTurn) :
    LiveMemberTurn :=
  if t.owners key ≠ none ∧ t.owners key ≠ some streamId then t
  else t.onBlock key (fun b => b.append text) streamId

def LiveMemberTurn.settle (toolId : String) (status : ToolStatus) (result : String)
    (t : LiveMemberTurn) : LiveMemberTurn :=
  { t with steps := settleSteps toolId status result t.steps }

def reduceToolResult (state : ChatState) (toolId : String) (status : ToolStatus)
    (result : String) : ChatState :=
  { state with
    live := state.live.map (LiveMemberTurn.settle toolId status result)
    history := state.history.map (settleHistoryEntry toolId status result)
    memberHistory := settleMemberHistory toolId status result state.memberHistory }

def reduceTurnEnd (state : ChatState) (event : ChatEvent) (status : TurnStatus)
    (error : Option String) : ChatState :=
  let index := findLiveTurn state (eventMember state event) event.turnId
  match status with
  | .completed => closeFound state index false
  | .error => { closeFound state index true with error := some (error.getD "对话回合失败") }
  | .canceled => { closeFound state index true with queue := [], canceled := true }
  | .aborted => EMPTY_STATE
  | .unspecified => state

/-- The reducer of one team stream; `streamId` is the stream that feeds the frame. -/
def reduceEvent (state : ChatState) (event : ChatEvent) (queuedText : String) (streamId : Nat) :
    ChatState :=
  match event.body with
  | .queued position => { state with queue := state.queue ++ [⟨queuedText,position⟩] }
  | .teamMessage member message seq => reduceTeamMessage state member message seq
  | .memberView member sender message => reduceMemberView state member sender message
  | .turnStart => reduceTurnStart state event
  | .blockStart step index type toolId name =>
    onTurn state event
      (.start (blockKey step index) (blockStartDraft index type toolId name) streamId)
  | .delta step index text => onTurn state event (.delta (blockKey step index) text streamId)
  | .blockEnd step index block =>
    onTurn state event
      (.onBlock (blockKey step index) (fun b => blockEndTerminal b block) streamId)
  | .toolResult toolId status result => reduceToolResult state toolId status result
  | .turnEnd status error => reduceTurnEnd state event status error
  | .unknown => state

def closeTurn (interrupted : Bool) (state : ChatState) (turn : LiveMemberTurn) : ChatState :=
  closeFound state (findLiveTurn state (some turn.member) turn.turnId) interrupted

/-- Every live turn is projected. -/
def ChatState.closePendingTurns (state : ChatState) (interrupted : Bool) : ChatState :=
  state.live.foldl (closeTurn interrupted) state

/-- The store of one session. -/
structure ChatStore where
  state : ChatState := EMPTY_STATE
  /-- The texts of the streams that have seen no frame yet. -/
  sendTexts : List String := []
  nextStreamId : Nat := 0
  /-- The newest stream. -/
  activeStreamId : Nat := 0

namespace ChatStore

/-- The first part of `send`. -/
def send (store : ChatStore) (text : String) : ChatStore :=
  { store with
    sendTexts := store.sendTexts ++ [text]
    nextStreamId := store.nextStreamId + 1
    activeStreamId := store.nextStreamId + 1 }

def consumeSendText (store : ChatStore) : String × ChatStore :=
  (store.sendTexts.head?.getD "",{ store with sendTexts := store.sendTexts.tail })

/-- One frame of the stream; the first frame consumes the text of the stream, and a receipt always
takes one. -/
def receive (store : ChatStore) (streamId : Nat) (consumed : Bool) (event : ChatEvent) : ChatStore :=
  match event.body with
  | .queued _ =>
    let taken := store.consumeSendText
    { taken.2 with state := reduceEvent taken.2.state event taken.1 streamId }
  | _ =>
    let store := if consumed then store else store.consumeSendText.2
    { store with state := reduceEvent store.state event "" streamId }

def releaseStreamOwnership (store : ChatStore) (streamId : Nat) : ChatStore :=
  { store with
    state := { store.state with
      live := store.state.live.map fun t =>
        { t with owners := fun key => if t.owners key = some streamId then none else t.owners key } } }

/-- The last part of `send`: the stream has ended, with an error or without. -/
def finish (store : ChatStore) (streamId : Nat) (consumed : Bool) (error : Option String) :
    ChatStore :=
  let store := if consumed then store else store.consumeSendText.2
  if store.activeStreamId = streamId then
    let closed := store.state.closePendingTurns true
    match error with
    | none => { store with state := closed }
    | some message => { store with state := { closed with error := some message } }
  else store.releaseStreamOwnership streamId

/-- The parts of a backfill of the team. -/
structure TeamMessage where
  member : String
  message : HistoryMessage
  seq : Int
  deriving DecidableEq, Repr

/-- The merged sequence from the server; entries without a member are ignored. -/
def loadHistory (store : ChatStore) (messages : List TeamMessage) : ChatStore :=
  { store with
    state :=
      { history := ((messages.filter fun m => m.member ≠ "").map fun m =>
          (⟨m.member,m.message,m.seq,false,false⟩ : TeamMessageEntry)).mergeSort
            fun a b => a.seq ≤ b.seq
        memberHistory := fun member => (store.state.memberHistory member).map fun e =>
          { e with isOpen := false } } }

/-- The view of a member from the server; real entries that it does not have are kept. -/
def loadMemberHistory (store : ChatStore) (member : String)
    (messages : List (HistoryMessage × String)) : ChatStore :=
  let server := messages.map fun m => (⟨m.1,m.2,false,false⟩ : MemberViewEntry)
  let kept := (store.state.memberHistory member).filter fun e =>
    !e.projected && (e.message.messageId = "" ||
      !(server.any fun s => s.message.messageId = e.message.messageId))
  { store with
    state := { store.state with
      memberHistory := Function.update store.state.memberHistory member (server ++ kept) } }

def clearMemberHistory (store : ChatStore) : ChatStore :=
  { store with state := { store.state with memberHistory := fun _ => [] } }

end ChatStore

end Dominion.Web
