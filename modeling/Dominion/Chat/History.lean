import Mathlib.Data.List.Basic

/-! # The team history

The merged sequence of a session and the views of its members.  Messages are shared objects: the
entries and the frames refer to them by their place in `messages`. -/
namespace Dominion.Chat

/-- A content block as the agent runtime shows it. -/
structure ContentBlockView where
  type : String
  text : Option String := none
  id : Option String := none
  name : Option String := none
  arguments : Option String := none
  deriving DecidableEq, Repr

structure TokenUsage where
  inputTokens : Nat
  outputTokens : Nat
  reasoningTokens : Option Nat := none
  deriving DecidableEq, Repr

inductive ToolStatus
  | running
  | succeeded
  | failed
  deriving DecidableEq, Repr

inductive ContentBlock
  | text (content : String)
  | think (content : String)
  | toolCall (toolId name argsJson : String) (status : ToolStatus) (result : Option String)
  deriving DecidableEq, Repr

/-- Any other block has no projection. -/
def blockToContentBlock (block : ContentBlockView) : Option ContentBlock :=
  if block.type = "text" then some (.text (block.text.getD ""))
  else if block.type = "reasoning" then some (.think (block.text.getD ""))
  else if block.type = "tool-call" then
    some (.toolCall (block.id.getD "") (block.name.getD "") (block.arguments.getD "") .running none)
  else none

inductive MessageRole
  | user
  | agent
  deriving DecidableEq, Repr

structure HistoryMessage where
  messageId : String
  role : MessageRole
  blocks : List ContentBlock
  interrupted : Bool
  deriving DecidableEq, Repr

/-- One entry of the merged sequence. -/
structure TeamMergeEntry where
  member : String
  message : Nat
  seq : Nat
  deriving DecidableEq, Repr

structure MemberViewEntry where
  message : Nat
  sender : String
  deriving DecidableEq, Repr

inductive BlockType
  | text
  | think
  | toolCall
  /-- What the lookup table inherits under the name of a property of every object. -/
  | inherited (name : String)
  deriving DecidableEq, Repr

inductive TurnStatus
  | completed
  | error
  | aborted
  | canceled
  deriving DecidableEq, Repr

structure LlmFailure where
  code : String
  message : String
  deriving DecidableEq, Repr

structure TurnUsage where
  inputTokens : String
  outputTokens : String
  reasoningTokens : Option String
  deriving DecidableEq, Repr

def usageToProto (usage : TokenUsage) : TurnUsage :=
  ⟨toString usage.inputTokens,toString usage.outputTokens,usage.reasoningTokens.map toString⟩

/-- The frames of one session. -/
inductive ChatEvent
  | turnStart (turnId member : String)
  | blockStart (turnId member : String) (index : Nat) (type : BlockType) (step : Int)
    (tool : Option (String × String))
  | delta (turnId member : String) (index : Nat) (text : String) (step : Int)
  | blockEnd (turnId member : String) (index : Nat) (block : ContentBlock) (step : Int)
  | toolResult (turnId member toolId : String) (status : ToolStatus) (result : String)
  | turnEnd (turnId member : String) (status : TurnStatus) (error : Option LlmFailure)
    (usage : Option TurnUsage)
  | teamMessage (member : String) (message : Nat) (seq : String)
  | memberView (member sender : String) (message : Nat)
  deriving DecidableEq, Repr

structure TeamHistory where
  messages : List HistoryMessage := []
  merge : List TeamMergeEntry := []
  views : List (String × List MemberViewEntry) := []
  nextSeq : Nat := 1
  nextMessageId : Nat := 1
  deriving DecidableEq, Repr

/-- The sender of a relayed broadcast. -/
def broadcastSender (role : Option String) : String :=
  if role.getD "" = "" then "user" else role.getD ""

/-- The last running call of the tool is settled; none if there is no such call. -/
def settleBlocks (toolId : String) (status : ToolStatus) (result : String) :
    List ContentBlock → Option (List ContentBlock)
  | [] => none
  | block :: rest =>
    match settleBlocks toolId status result rest with
    | some settled => some (block :: settled)
    | none =>
      match block with
      | .toolCall id name argsJson .running _ =>
        if id = toolId then some (.toolCall id name argsJson status (some result) :: rest) else none
      | _ => none

namespace TeamHistory

/-- A new message, and the place where it is. -/
def newMessage (h : TeamHistory) (role : MessageRole) (blocks : List ContentBlock)
    (interrupted : Bool) : Nat × TeamHistory :=
  (h.messages.length,
    { h with
      messages := h.messages ++ [⟨"m" ++ toString h.nextMessageId,role,blocks,interrupted⟩]
      nextMessageId := h.nextMessageId + 1 })

/-- The appended entry goes out as a frame. -/
def appendMerge (h : TeamHistory) (member : String) (message : Nat) : TeamHistory × ChatEvent :=
  ({ h with
      merge := h.merge ++ [⟨member,message,h.nextSeq⟩]
      nextSeq := h.nextSeq + 1 },
    .teamMessage member message (toString h.nextSeq))

def viewOf (h : TeamHistory) (role : String) : List MemberViewEntry :=
  ((h.views.find? fun v => v.1 = role).map Prod.snd).getD []

def pushView (h : TeamHistory) (role : String) (entry : MemberViewEntry) : TeamHistory :=
  { h with
    views := if h.views.any fun v => v.1 = role then
      h.views.map fun v => if v.1 = role then (v.1,v.2 ++ [entry]) else v
    else h.views ++ [(role,[entry])] }

/-- An output without a displayed block makes no entry. -/
def appendMemberOutput (h : TeamHistory) (role : String) (content : List ContentBlockView)
    (interrupted recordView : Bool) : TeamHistory × List ChatEvent :=
  let blocks := content.filterMap blockToContentBlock
  if blocks = [] then (h,[])
  else
    let created := h.newMessage .agent blocks interrupted
    let merged := created.2.appendMerge role created.1
    (if recordView then merged.1.pushView role ⟨created.1,role⟩ else merged.1,[merged.2])

/-- Only the user's messages and the relayed broadcasts have a view. -/
def appendMemberViewUser (h : TeamHistory) (member : String) (content : List ContentBlockView)
    (kind : String) (role : Option String) (recordView : Bool) : TeamHistory × List ChatEvent :=
  let blocks := (content.filter fun block => block.type = "text").map fun block =>
    ContentBlock.text (block.text.getD "")
  if recordView = false then (h,[])
  else if kind ≠ "user" ∧ kind ≠ "team-broadcast" then (h,[])
  else if blocks = [] then (h,[])
  else
    let created := h.newMessage .user blocks false
    let sender := if kind = "team-broadcast" then broadcastSender role else "user"
    (created.2.pushView member ⟨created.1,sender⟩,[.memberView member sender created.1])

/-- The search goes from the last entry of the member to the first. -/
def settleEntries (messages : List HistoryMessage) (role toolId : String) (status : ToolStatus)
    (result : String) : List TeamMergeEntry → Option (List HistoryMessage)
  | [] => none
  | entry :: earlier =>
    let settled := if entry.member = role then
      (messages[entry.message]?).bind fun message =>
        (settleBlocks toolId status result message.blocks).map fun blocks =>
          messages.set entry.message { message with blocks := blocks }
    else none
    match settled with
    | some messages => some messages
    | none => settleEntries messages role toolId status result earlier

def settleToolResult (h : TeamHistory) (role toolId : String) (status : ToolStatus)
    (result : String) : Bool × TeamHistory :=
  match settleEntries h.messages role toolId status result h.merge.reverse with
  | none => (false,h)
  | some messages => (true,{ h with messages := messages })

def listTeamMessages (h : TeamHistory) : List TeamMergeEntry :=
  h.merge

end TeamHistory

end Dominion.Chat
