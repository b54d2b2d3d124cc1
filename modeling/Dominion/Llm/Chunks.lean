import Mathlib.Data.List.Basic

/-! # The chunks of a model stream

What an adapter may send for one model call, and in which order. -/
namespace Dominion.Llm

inductive BlockKind
  | reasoning
  | text
  | toolCall
  deriving DecidableEq, Repr

inductive ContentBlock
  | reasoning (content : String)
  | text (content : String)
  | toolCall (id name arguments : String)
  deriving DecidableEq, Repr

def ContentBlock.kind : ContentBlock → BlockKind
  | .reasoning _ => .reasoning
  | .text _ => .text
  | .toolCall _ _ _ => .toolCall

/-- The text, or the arguments. -/
def ContentBlock.payload : ContentBlock → String
  | .reasoning content => content
  | .text content => content
  | .toolCall _ _ arguments => arguments

structure TokenUsage where
  inputTokens : Nat
  outputTokens : Nat
  reasoningTokens : Option Nat
  deriving DecidableEq, Repr

structure Failure where
  message : String
  code : String
  deriving DecidableEq, Repr

inductive FinishReason
  | stop
  | toolCalls
  | maxTokens
  | error (failure : Failure)
  | aborted (failure : Failure)
  deriving DecidableEq, Repr

/-- The finish of a complete response. -/
def FinishReason.complete : FinishReason → Bool
  | .stop => true
  | .toolCalls => true
  | .maxTokens => true
  | _ => false

inductive StreamChunk
  | blockStart (index : Nat) (blockType : BlockKind)
  | reasoningDelta (index : Nat) (text : String)
  | textDelta (index : Nat) (text : String)
  | toolCallDelta (index : Nat) (id : String) (name : Option String) (argumentsDelta : String)
  | blockEnd (index : Nat) (block : ContentBlock)
  | usage (usage : TokenUsage)
  | finish (reason : FinishReason)
  deriving DecidableEq, Repr

namespace StreamChunk

/-- The index, the kind and the fragment of a delta. -/
def delta : StreamChunk → Option (Nat × BlockKind × String)
  | .reasoningDelta index text => some (index,.reasoning,text)
  | .textDelta index text => some (index,.text,text)
  | .toolCallDelta index _ _ argumentsDelta => some (index,.toolCall,argumentsDelta)
  | _ => none

def ended : StreamChunk → Option (Nat × ContentBlock)
  | .blockEnd index block => some (index,block)
  | _ => none

def finished : StreamChunk → Option FinishReason
  | .finish reason => some reason
  | _ => none

end StreamChunk

/-- How far a stream has got. -/
structure Progress where
  /-- The kind of each started block, and whether it has ended. -/
  blocks : List (BlockKind × Bool) := []
  /-- The usage was sent: only the finish may follow. -/
  accounted : Bool := false
  finished : Bool := false
  deriving DecidableEq, Repr

/-- The protocol: blocks are numbered in the order of their starts, a delta belongs to an open block
of its kind, a block ends once, the usage comes right before the finish, and nothing after it. -/
def accept (p : Progress) (chunk : StreamChunk) : Option Progress :=
  if p.finished then none
  else
    match chunk with
    | .finish _ => some { p with finished := true }
    | .usage _ => if p.accounted then none else some { p with accounted := true }
    | .blockStart index kind =>
      if p.accounted = false ∧ index = p.blocks.length then
        some { p with blocks := p.blocks ++ [(kind,false)] }
      else none
    | .blockEnd index block =>
      if p.accounted = false ∧ p.blocks[index]? = some (block.kind,false) then
        some { p with blocks := p.blocks.set index (block.kind,true) }
      else none
    | .reasoningDelta index _ =>
      if p.accounted = false ∧ p.blocks[index]? = some (.reasoning,false) then some p else none
    | .textDelta index _ =>
      if p.accounted = false ∧ p.blocks[index]? = some (.text,false) then some p else none
    | .toolCallDelta index _ _ _ =>
      if p.accounted = false ∧ p.blocks[index]? = some (.toolCall,false) then some p else none

end Dominion.Llm
