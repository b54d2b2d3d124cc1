import Dominion.Framework.Fallible
import Dominion.Llm.Chunks

/-! # The requests of a model call

A call's options become the body that an adapter posts: items of the Responses API for GLM, messages
of the chat completions API for OpenCode Go.  Numbers and the schemas of parameters are passed on as
they are. -/
namespace Dominion.Llm

open Dominion.Framework

/-! ## Options -/

inductive MessageBlock
  | plain (block : ContentBlock)
  /-- Of another type, such as an image. -/
  | other (type : String)
  deriving DecidableEq, Repr

def MessageBlock.type : MessageBlock → String
  | .plain (.reasoning _) => "reasoning"
  | .plain (.text _) => "text"
  | .plain (.toolCall _ _ _) => "tool-call"
  | .other type => type

inductive ChatMessage
  | system (content : List MessageBlock)
  | user (content : List MessageBlock)
  | tool (toolCallId : String) (content : List MessageBlock)
  | assistant (content : List MessageBlock)
  | other (role : String)
  deriving DecidableEq, Repr

structure ToolDefinition (σ : Type) where
  name : String
  description : String
  parameters : σ
  deriving DecidableEq, Repr

structure GenerateOptions (ν σ : Type) where
  model : String
  system : Option String := none
  messages : List ChatMessage
  tools : Option (List (ToolDefinition σ)) := none
  temperature : Option ν := none
  maxTokens : Option ν := none
  stop : Option (List String) := none
  reasoningEffort : Option String := none
  deriving DecidableEq, Repr

/-! ## Blocks -/

def unsupportedContent (adapter message : String) : Failure :=
  ⟨adapter ++ " adapter " ++ message,"UNSUPPORTED_CONTENT"⟩

def unsupported (adapter message : String) : Failure :=
  ⟨adapter ++ " adapter does not support " ++ message,"UNSUPPORTED"⟩

def MessageBlock.text? : MessageBlock → Option String
  | .plain (.text text) => some text
  | _ => none

def MessageBlock.call? : MessageBlock → Option (String × String × String)
  | .plain (.toolCall id name arguments) => some (id,name,arguments)
  | _ => none

/-- The texts of blocks that must be text. -/
def textBlocks (adapter what : String) : List MessageBlock → Except Failure (List String)
  | [] => .ok []
  | block :: rest =>
    match block.text? with
    | some text => (textBlocks adapter what rest).map (text :: ·)
    | none =>
      .error (unsupportedContent adapter ("supports text-only " ++ what ++ "; got " ++ block.type))

/-- The texts and the calls of an assistant message; its reasoning is not replayed. -/
def assistantBlocks (adapter : String) :
    List MessageBlock → Except Failure (List String × List (String × String × String))
  | [] => .ok ([],[])
  | block :: rest =>
    match block with
    | .plain (.text text) =>
      (assistantBlocks adapter rest).map fun p => (text :: p.1,p.2)
    | .plain (.reasoning _) => assistantBlocks adapter rest
    | .plain (.toolCall id name arguments) =>
      (assistantBlocks adapter rest).map fun p => (p.1,(id,name,arguments) :: p.2)
    | .other type =>
      .error (unsupportedContent adapter ("supports text-only assistant history; got " ++ type))

/-! ## The Responses API -/

inductive ResponsesInputItem
  /-- With content of type `input_text`. -/
  | userMessage (content : List String)
  /-- With content of type `output_text`. -/
  | assistantMessage (content : List String)
  | functionCall (callId name arguments : String)
  | functionCallOutput (callId output : String)
  deriving DecidableEq, Repr

structure ResponsesRequest (ν σ : Type) where
  model : String
  instructions : Option String
  input : List ResponsesInputItem
  tools : Option (List (ToolDefinition σ))
  temperature : Option ν
  maxOutputTokens : Option ν
  deriving DecidableEq, Repr

namespace Glm

def adapter : String := "GLM Responses"

/-- What the loop of `serializeRequest` has gathered. -/
structure Gathered where
  input : List ResponsesInputItem := []
  systemTexts : List String := []

def renderToolResultContent (content : List MessageBlock) : Except Failure String :=
  (textBlocks adapter "tool result content" content).map "\n".intercalate

def renderSystemText (content : List MessageBlock) : Except Failure String :=
  (textBlocks adapter "system content" content).map "".intercalate

def serializeMessage (g : Gathered) : ChatMessage → Except Failure Gathered
  | .system content =>
    -- The one prompt cannot be continued after the conversation has begun.
    if g.input ≠ [] then
      .error (unsupportedContent adapter "does not support mid-conversation system messages")
    else do
      let text ← renderSystemText content
      return { g with
        systemTexts := g.systemTexts ++ if text = "" then [] else [text] }
  | .user content => do
    let texts ← textBlocks adapter "user content" content
    return { g with
      input := g.input ++ if texts = [] then [] else [.userMessage texts] }
  | .tool toolCallId content => do
    let output ← renderToolResultContent content
    return { g with input := g.input ++ [.functionCallOutput toolCallId output] }
  | .assistant content => do
    let (texts,calls) ← assistantBlocks adapter content
    return { g with
      input := g.input ++ (if texts = [] then [] else [.assistantMessage texts]) ++
        calls.map fun c => .functionCall c.1 c.2.1 c.2.2 }
  | .other role =>
    .error (unsupportedContent adapter
      ("does not accept " ++ role ++ " messages in the input array"))

variable {ν σ : Type}

def serializeRequest (options : GenerateOptions ν σ) : Except Failure (ResponsesRequest ν σ) := do
  if options.stop.getD [] ≠ [] then throw (unsupported adapter "stop sequences")
  if options.reasoningEffort.isSome then
    throw (unsupported adapter "reasoning effort selection")
  let gathered ← options.messages.foldlM serializeMessage {}
  let instructions := "\n\n".intercalate
    ((options.system.toList ++ gathered.systemTexts).filter (· ≠ ""))
  return {
    model := options.model
    instructions := if instructions = "" then none else some instructions
    input := gathered.input
    tools := options.tools.filter fun tools => !tools.isEmpty
    temperature := options.temperature
    maxOutputTokens := options.maxTokens }

end Glm

/-! ## The chat completions API -/

structure ChatToolCall where
  id : String
  name : String
  arguments : String
  deriving DecidableEq, Repr

inductive ChatRequestMessage
  | system (content : String)
  | user (content : String)
  | assistant (content : String) (toolCalls : Option (List ChatToolCall))
  | tool (toolCallId content : String)
  deriving DecidableEq, Repr

structure ChatCompletionsRequest (ν σ : Type) where
  model : String
  messages : List ChatRequestMessage
  tools : Option (List (ToolDefinition σ))
  temperature : Option ν
  maxTokens : Option ν
  stop : Option (List String)
  deriving DecidableEq, Repr

namespace Opencode

def adapter : String := "OpenCode Go"

def flattenText (blocks : List MessageBlock) : String :=
  "".intercalate (blocks.filterMap MessageBlock.text?)

def renderSystemText (content : List MessageBlock) : Except Failure String :=
  (textBlocks adapter "system content" content).map "".intercalate

def renderToolResultContent (content : List MessageBlock) : Except Failure String :=
  (textBlocks adapter "tool result content" content).map fun parts =>
    let rendered := "".intercalate parts
    if rendered = "" then "(no output)" else rendered

def serializeMessage (messages : List ChatRequestMessage) :
    ChatMessage → Except Failure (List ChatRequestMessage)
  | .system content => do
    let text ← renderSystemText content
    return messages ++ [.system text]
  | .user content => do
    let parts ← textBlocks adapter "user content" content
    return messages ++ [.user ("".intercalate parts)]
  | .tool toolCallId content => do
    let text ← renderToolResultContent content
    return messages ++ [.tool toolCallId text]
  | .assistant content => do
    let (_,calls) ← assistantBlocks adapter content
    let toolCalls := calls.map fun c => ⟨c.1,c.2.1,c.2.2⟩
    return messages ++
      [.assistant (flattenText content) (if toolCalls = [] then none else some toolCalls)]
  | .other role =>
    .error (unsupportedContent adapter
      ("does not accept " ++ role ++ " messages in the messages array"))

variable {ν σ : Type}

def serializeRequest (options : GenerateOptions ν σ) :
    Except Failure (ChatCompletionsRequest ν σ) := do
  if options.reasoningEffort.isSome then
    throw (unsupported adapter "reasoning effort selection")
  let messages ← options.messages.foldlM serializeMessage
    (options.system.toList.map ChatRequestMessage.system)
  return {
    model := options.model
    messages := messages
    tools := options.tools.filter fun tools => !tools.isEmpty
    temperature := options.temperature
    maxTokens := options.maxTokens
    stop := options.stop }

end Opencode

end Dominion.Llm
