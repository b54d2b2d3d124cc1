import Dominion.Llm.Requests
import Mathlib.Data.List.Induction

/-! # What a request replays

The two wires lay a conversation out differently.  Read back, they say the same: the texts in their
order, the calls that the model made and their results. -/
namespace Dominion.Llm

open Dominion.Framework

inductive Utterance
  | user (text : String)
  | assistant (text : String)
  | call (id name arguments : String)
  | result (id text : String)
  deriving DecidableEq, Repr

/-- An empty text says nothing. -/
def spoken (speaker : String → Utterance) (text : String) : List Utterance :=
  if text = "" then [] else [speaker text]

def textsOf (content : List MessageBlock) : List String :=
  content.filterMap MessageBlock.text?

def callsOf (content : List MessageBlock) : List (String × String × String) :=
  content.filterMap MessageBlock.call?

/-- What a message says; the texts of a result are rendered as one. -/
def ChatMessage.said (render : List String → String) : ChatMessage → List Utterance
  | .user content => spoken .user ("".intercalate (textsOf content))
  | .tool id content => [.result id (render (textsOf content))]
  | .assistant content =>
    spoken .assistant ("".intercalate (textsOf content)) ++
      (callsOf content).map fun c => .call c.1 c.2.1 c.2.2
  | _ => []

def ResponsesInputItem.said : ResponsesInputItem → List Utterance
  | .userMessage content => spoken .user ("".intercalate content)
  | .assistantMessage content => spoken .assistant ("".intercalate content)
  | .functionCall callId name arguments => [.call callId name arguments]
  | .functionCallOutput callId output => [.result callId output]

def ChatRequestMessage.said : ChatRequestMessage → List Utterance
  | .system _ => []
  | .user content => spoken .user content
  | .assistant content toolCalls =>
    spoken .assistant content ++ (toolCalls.getD []).map fun c => .call c.id c.name c.arguments
  | .tool toolCallId content => [.result toolCallId content]

def ChatRequestMessage.prompt? : ChatRequestMessage → Option String
  | .system content => some content
  | _ => none

namespace Glm

def renderResult (texts : List String) : String :=
  "\n".intercalate texts

end Glm

namespace Opencode

def renderResult (texts : List String) : String :=
  if "".intercalate texts = "" then "(no output)" else "".intercalate texts

end Opencode

/-- A result of one text that is not empty is the same on both wires. -/
theorem renderResult_singleton {text : String} (h : text ≠ "") :
    Glm.renderResult [text] = text ∧ Opencode.renderResult [text] = text := by
  have hjoin : "".intercalate [text] = text := String.toList_inj.mp (by simp)
  have hlines : "\n".intercalate [text] = text := String.toList_inj.mp (by simp)
  exact ⟨hlines,by rw [Opencode.renderResult,hjoin,if_neg h]⟩

def noteCall (waiting : List String) : Utterance → Option (List String)
  | .call id _ _ => if id ∈ waiting then none else some (id :: waiting)
  | .result id _ => if id ∈ waiting then some (waiting.erase id) else none
  | _ => some waiting

/-- The calls that wait for their results, the last one first; there are none once a call is made
twice or a result comes without its call. -/
def openCalls (said : List Utterance) : Option (List String) :=
  said.foldlM noteCall []

/-! ## What is accepted -/

def MessageBlock.isPlain : MessageBlock → Bool
  | .plain _ => true
  | .other _ => false

/-- The blocks are of the types that the role may have. -/
def ChatMessage.supported : ChatMessage → Bool
  | .system content => content.all fun block => block.text?.isSome
  | .user content => content.all fun block => block.text?.isSome
  | .tool _ content => content.all fun block => block.text?.isSome
  | .assistant content => content.all MessageBlock.isPlain
  | .other _ => false

def ChatMessage.isSystem : ChatMessage → Bool
  | .system _ => true
  | _ => false

private theorem textBlocks_eq_ok {adapter what : String} {content : List MessageBlock}
    {texts : List String} : textBlocks adapter what content = .ok texts ↔
      (content.all fun block => block.text?.isSome) = true ∧ texts = textsOf content := by
  induction content generalizing texts with
  | nil => simp [textBlocks,textsOf,eq_comm]
  | cons block rest ih =>
    cases htext : block.text? with
    | none => simp [textBlocks,htext]
    | some text =>
      simp only [textBlocks,htext,List.all_cons,Option.isSome_some,Bool.true_and,textsOf,
        List.filterMap_cons_some htext]
      cases hrest : textBlocks adapter what rest with
      | error e =>
        have hno := (@ih (textsOf rest)).not.mp (by rw [hrest]; simp)
        simp only [and_true] at hno
        simp [Except.map,hno]
      | ok texts' =>
        obtain ⟨hall,rfl⟩ := ih.mp hrest
        simp [Except.map,hall,textsOf,eq_comm]

private theorem assistantBlocks_eq_ok {adapter : String} {content : List MessageBlock}
    {p : List String × List (String × String × String)} :
    assistantBlocks adapter content = .ok p ↔
      content.all MessageBlock.isPlain = true ∧ p = (textsOf content,callsOf content) := by
  induction content generalizing p with
  | nil => simp [assistantBlocks,textsOf,callsOf,eq_comm]
  | cons block rest ih =>
    cases block with
    | other type => simp [assistantBlocks,MessageBlock.isPlain]
    | plain block =>
      cases block with
      | reasoning text =>
        simp only [assistantBlocks,ih]
        rfl
      | text text =>
        rw [assistantBlocks,map_eq_ok]
        constructor
        · rintro ⟨q,hq,rfl⟩
          obtain ⟨hplain,rfl⟩ := ih.mp hq
          exact ⟨hplain,rfl⟩
        · rintro ⟨hplain,rfl⟩
          exact ⟨_,ih.mpr ⟨hplain,rfl⟩,rfl⟩
      | toolCall id name arguments =>
        rw [assistantBlocks,map_eq_ok]
        constructor
        · rintro ⟨q,hq,rfl⟩
          obtain ⟨hplain,rfl⟩ := ih.mp hq
          exact ⟨hplain,rfl⟩
        · rintro ⟨hplain,rfl⟩
          exact ⟨_,ih.mpr ⟨hplain,rfl⟩,rfl⟩

/-! ## The loops -/

namespace Glm

/-- The items of a message. -/
def items : ChatMessage → List ResponsesInputItem
  | .user content => if textsOf content = [] then [] else [.userMessage (textsOf content)]
  | .tool toolCallId content => [.functionCallOutput toolCallId (renderResult (textsOf content))]
  | .assistant content =>
    (if textsOf content = [] then [] else [.assistantMessage (textsOf content)]) ++
      (callsOf content).map fun c => .functionCall c.1 c.2.1 c.2.2
  | _ => []

def prompts : ChatMessage → List String
  | .system content =>
    if "".intercalate (textsOf content) = "" then [] else ["".intercalate (textsOf content)]
  | _ => []

private theorem serializeMessage_eq_ok {g g' : Gathered} {m : ChatMessage} :
    serializeMessage g m = .ok g' ↔ m.supported = true ∧ (m.isSystem = true → g.input = []) ∧
      g' = ⟨g.input ++ items m,g.systemTexts ++ prompts m⟩ := by
  cases m with
  | system content =>
    rw [serializeMessage]
    by_cases hinput : g.input = []
    · rw [if_neg (not_not.mpr hinput),bind_eq_ok]
      simp only [renderSystemText,map_eq_ok,textBlocks_eq_ok]
      constructor
      · rintro ⟨_,⟨_,⟨hall,rfl⟩,rfl⟩,h⟩
        cases h
        exact ⟨hall,fun _ => hinput,by simp [items,prompts]⟩
      · rintro ⟨hall,_,rfl⟩
        exact ⟨_,⟨_,⟨hall,rfl⟩,rfl⟩,by simp [items,prompts]; rfl⟩
    · rw [if_pos hinput]
      exact ⟨nofun,fun h => (hinput (h.2.1 rfl)).elim⟩
  | user content =>
    rw [serializeMessage]
    rw [bind_eq_ok]
    simp only [textBlocks_eq_ok]
    constructor
    · rintro ⟨_,⟨hall,rfl⟩,h⟩
      cases h
      exact ⟨hall,nofun,by simp [items,prompts]⟩
    · rintro ⟨hall,_,rfl⟩
      exact ⟨_,⟨hall,rfl⟩,by simp [items,prompts]; rfl⟩
  | tool id content =>
    rw [serializeMessage]
    rw [bind_eq_ok]
    simp only [renderToolResultContent,map_eq_ok,textBlocks_eq_ok]
    constructor
    · rintro ⟨_,⟨_,⟨hall,rfl⟩,rfl⟩,h⟩
      cases h
      exact ⟨hall,nofun,by simp [items,prompts,renderResult]⟩
    · rintro ⟨hall,_,rfl⟩
      exact ⟨_,⟨_,⟨hall,rfl⟩,rfl⟩,by simp [items,prompts,renderResult]; rfl⟩
  | assistant content =>
    rw [serializeMessage]
    rw [bind_eq_ok]
    simp only [assistantBlocks_eq_ok]
    constructor
    · rintro ⟨_,⟨hplain,rfl⟩,h⟩
      cases h
      exact ⟨hplain,nofun,by simp [items,prompts]⟩
    · rintro ⟨hplain,_,rfl⟩
      exact ⟨_,⟨hplain,rfl⟩,by simp [items,prompts]; rfl⟩
  | other role => exact ⟨nofun,nofun⟩

/-- Prompts come before all items. -/
def SystemFirst (messages : List ChatMessage) : Prop :=
  ∀ before m after, messages = before ++ m :: after → m.isSystem = true →
    before.flatMap items = []

private theorem systemFirst_snoc {messages : List ChatMessage} {m : ChatMessage} :
    SystemFirst (messages ++ [m]) ↔
      SystemFirst messages ∧ (m.isSystem = true → messages.flatMap items = []) := by
  constructor
  · intro h
    refine ⟨?_,h messages m [] rfl⟩
    rintro before m' after rfl hm'
    exact h before m' (after ++ [m]) (by simp) hm'
  · rintro ⟨hmessages,hm⟩ before m' after heq hm'
    rcases List.eq_nil_or_concat after with rfl | ⟨rest,last,rfl⟩
    · obtain ⟨rfl,hlast⟩ := List.append_inj' heq rfl
      cases hlast
      exact hm hm'
    · have hcut : messages ++ [m] = (before ++ m' :: rest) ++ [last] := by
        rw [heq]
        simp
      exact hmessages before m' rest (List.append_inj' hcut rfl).1 hm'

private theorem gathered_eq_ok {messages : List ChatMessage} {g : Gathered} :
    messages.foldlM serializeMessage {} = .ok g ↔
      (∀ m ∈ messages, m.supported = true) ∧ SystemFirst messages ∧
        g = ⟨messages.flatMap items,messages.flatMap prompts⟩ := by
  induction messages using List.reverseRecOn generalizing g with
  | nil =>
    constructor
    · intro h
      cases h
      refine ⟨by simp,?_,rfl⟩
      intro before m after h
      cases before <;> cases h
    · rintro ⟨_,_,rfl⟩
      rfl
  | append_singleton messages m ih =>
    rw [List.foldlM_append,bind_eq_ok]
    simp only [List.foldlM_cons,List.foldlM_nil,bind_pure,serializeMessage_eq_ok,ih,
      systemFirst_snoc]
    constructor
    · rintro ⟨_,⟨hall,hfirst,rfl⟩,hm,hsystem,rfl⟩
      refine ⟨?_,⟨hfirst,hsystem⟩,by simp⟩
      intro m' hm'
      rcases List.mem_append.mp hm' with hm' | hm'
      · exact hall m' hm'
      · rwa [List.mem_singleton.mp hm']
    · rintro ⟨hall,⟨hfirst,hsystem⟩,rfl⟩
      refine ⟨_,⟨fun m' hm' => hall m' (List.mem_append_left _ hm'),hfirst,rfl⟩,
        hall m (by simp),hsystem,by simp⟩

end Glm

namespace Opencode

/-- The message on the wire; there is none for a message of another role. -/
def wire : ChatMessage → List ChatRequestMessage
  | .system content => [.system ("".intercalate (textsOf content))]
  | .user content => [.user ("".intercalate (textsOf content))]
  | .tool toolCallId content => [.tool toolCallId (renderResult (textsOf content))]
  | .assistant content =>
    let toolCalls := (callsOf content).map fun c => (⟨c.1,c.2.1,c.2.2⟩ : ChatToolCall)
    [.assistant ("".intercalate (textsOf content))
      (if toolCalls = [] then none else some toolCalls)]
  | .other _ => []

private theorem serializeMessage_eq_ok {messages out : List ChatRequestMessage} {m : ChatMessage} :
    serializeMessage messages m = .ok out ↔ m.supported = true ∧ out = messages ++ wire m := by
  cases m with
  | system content =>
    rw [serializeMessage,bind_eq_ok]
    simp only [renderSystemText,map_eq_ok,textBlocks_eq_ok]
    constructor
    · rintro ⟨_,⟨_,⟨hall,rfl⟩,rfl⟩,h⟩
      cases h
      exact ⟨hall,rfl⟩
    · rintro ⟨hall,rfl⟩
      exact ⟨_,⟨_,⟨hall,rfl⟩,rfl⟩,rfl⟩
  | user content =>
    rw [serializeMessage,bind_eq_ok]
    simp only [textBlocks_eq_ok]
    constructor
    · rintro ⟨_,⟨hall,rfl⟩,h⟩
      cases h
      exact ⟨hall,rfl⟩
    · rintro ⟨hall,rfl⟩
      exact ⟨_,⟨hall,rfl⟩,rfl⟩
  | tool id content =>
    rw [serializeMessage,bind_eq_ok]
    simp only [renderToolResultContent,map_eq_ok,textBlocks_eq_ok]
    constructor
    · rintro ⟨_,⟨_,⟨hall,rfl⟩,rfl⟩,h⟩
      cases h
      exact ⟨hall,rfl⟩
    · rintro ⟨hall,rfl⟩
      exact ⟨_,⟨_,⟨hall,rfl⟩,rfl⟩,rfl⟩
  | assistant content =>
    rw [serializeMessage,bind_eq_ok]
    simp only [assistantBlocks_eq_ok]
    constructor
    · rintro ⟨_,⟨hplain,rfl⟩,h⟩
      cases h
      exact ⟨hplain,rfl⟩
    · rintro ⟨hplain,rfl⟩
      exact ⟨_,⟨hplain,rfl⟩,rfl⟩
  | other role => exact ⟨nofun,nofun⟩

private theorem messages_eq_ok {messages : List ChatMessage} {start out : List ChatRequestMessage} :
    messages.foldlM serializeMessage start = .ok out ↔
      (∀ m ∈ messages, m.supported = true) ∧ out = start ++ messages.flatMap wire := by
  induction messages generalizing start with
  | nil =>
    constructor
    · intro h
      cases h
      exact ⟨by simp,by simp⟩
    · rintro ⟨_,rfl⟩
      simp
      rfl
  | cons m rest ih =>
    rw [List.foldlM_cons,bind_eq_ok]
    simp only [serializeMessage_eq_ok,ih]
    constructor
    · rintro ⟨_,⟨hm,rfl⟩,hrest,rfl⟩
      exact ⟨by simpa using ⟨hm,hrest⟩,by simp⟩
    · rintro ⟨hall,rfl⟩
      exact ⟨_,⟨hall m List.mem_cons_self,rfl⟩,fun m' hm' => hall m' (List.mem_cons_of_mem _ hm'),
        by simp⟩

end Opencode

/-! ## What is said -/

section said

variable {ν σ : Type}

private theorem said_items {m : ChatMessage} :
    (Glm.items m).flatMap ResponsesInputItem.said = m.said Glm.renderResult := by
  cases m with
  | user content =>
    by_cases htexts : textsOf content = []
    · simp [Glm.items,htexts,ChatMessage.said,spoken]
    · simp [Glm.items,htexts,ChatMessage.said,ResponsesInputItem.said]
  | assistant content =>
    have hcalls : ((callsOf content).map fun c =>
        ResponsesInputItem.functionCall c.1 c.2.1 c.2.2).flatMap ResponsesInputItem.said =
          (callsOf content).map fun c => .call c.1 c.2.1 c.2.2 := by
      rw [List.flatMap_map,List.map_eq_flatMap]
      rfl
    rw [Glm.items,List.flatMap_append,hcalls]
    by_cases htexts : textsOf content = []
    · simp [htexts,ChatMessage.said,spoken]
    · simp [htexts,ChatMessage.said,ResponsesInputItem.said]
  | tool id content => rfl
  | system content => rfl
  | other role => rfl

private theorem said_wire {m : ChatMessage} :
    (Opencode.wire m).flatMap ChatRequestMessage.said = m.said Opencode.renderResult := by
  cases m with
  | assistant content =>
    by_cases hcalls : callsOf content = []
    · simp [Opencode.wire,hcalls,ChatMessage.said,ChatRequestMessage.said]
    · simp [Opencode.wire,hcalls,ChatMessage.said,ChatRequestMessage.said]
  | user content => simp [Opencode.wire,ChatMessage.said,ChatRequestMessage.said]
  | tool id content => rfl
  | system content => rfl
  | other role => rfl

private theorem prompts_wire {m : ChatMessage} :
    ((Opencode.wire m).filterMap ChatRequestMessage.prompt?).filter (· ≠ "") = Glm.prompts m := by
  cases m with
  | system content =>
    by_cases htext : "".intercalate (textsOf content) = ""
    · simp [Opencode.wire,Glm.prompts,ChatRequestMessage.prompt?,htext]
    · simp [Opencode.wire,Glm.prompts,ChatRequestMessage.prompt?,htext]
  | _ => rfl

/-- The calls that wait do not depend on how results are rendered. -/
theorem openCalls_render (messages : List ChatMessage) (render render' : List String → String) :
    openCalls (messages.flatMap fun m => m.said render) =
      openCalls (messages.flatMap fun m => m.said render') := by
  have hfrom : ∀ waiting : List String,
      (messages.flatMap fun m => m.said render).foldlM noteCall waiting =
        (messages.flatMap fun m => m.said render').foldlM noteCall waiting := by
    induction messages with
    | nil => exact fun _ => rfl
    | cons m rest ih =>
      intro waiting
      rw [List.flatMap_cons,List.flatMap_cons,List.foldlM_append,List.foldlM_append]
      have hm : (m.said render).foldlM noteCall waiting = (m.said render').foldlM noteCall waiting := by
        cases m <;> rfl
      rw [hm]
      exact congrArg _ (funext ih)
  exact hfrom []

/-- The request of GLM for supported messages. -/
theorem glm_eq_ok {options : GenerateOptions ν σ} {r : ResponsesRequest ν σ} :
    Glm.serializeRequest options = .ok r ↔
      options.stop.getD [] = [] ∧ options.reasoningEffort = none ∧
      (∀ m ∈ options.messages, m.supported = true) ∧ Glm.SystemFirst options.messages ∧
      r =
        let instructions := "\n\n".intercalate
          ((options.system.toList ++ options.messages.flatMap Glm.prompts).filter (· ≠ ""))
        { model := options.model
          instructions := if instructions = "" then none else some instructions
          input := options.messages.flatMap Glm.items
          tools := options.tools.filter fun tools => !tools.isEmpty
          temperature := options.temperature
          maxOutputTokens := options.maxTokens } := by
  unfold Glm.serializeRequest
  by_cases hstop : options.stop.getD [] = []
  · cases options.reasoningEffort with
    | some effort => simp [hstop,bind_eq_ok]
    | none =>
      simp only [hstop,ne_eq,not_true_eq_false,if_false,Option.isSome_none,Bool.false_eq_true,
        bind_eq_ok,Glm.gathered_eq_ok]
      constructor
      · rintro ⟨_,⟨hall,hfirst,rfl⟩,h⟩
        cases h
        exact ⟨trivial,trivial,hall,hfirst,rfl⟩
      · rintro ⟨_,_,hall,hfirst,rfl⟩
        exact ⟨_,⟨hall,hfirst,rfl⟩,rfl⟩
  · simp [hstop,bind_eq_ok]

private theorem opencode_eq_ok {options : GenerateOptions ν σ} {r : ChatCompletionsRequest ν σ} :
    Opencode.serializeRequest options = .ok r ↔
      options.reasoningEffort = none ∧ (∀ m ∈ options.messages, m.supported = true) ∧
      r =
        { model := options.model
          messages := options.system.toList.map .system ++ options.messages.flatMap Opencode.wire
          tools := options.tools.filter fun tools => !tools.isEmpty
          temperature := options.temperature
          maxTokens := options.maxTokens
          stop := options.stop } := by
  unfold Opencode.serializeRequest
  cases options.reasoningEffort with
  | some effort => exact ⟨nofun,nofun⟩
  | none =>
    simp only [Option.isSome_none,Bool.false_eq_true,if_false,bind_eq_ok,Opencode.messages_eq_ok]
    constructor
    · rintro ⟨_,⟨hall,rfl⟩,h⟩
      cases h
      exact ⟨trivial,hall,rfl⟩
    · rintro ⟨_,hall,rfl⟩
      exact ⟨_,⟨hall,rfl⟩,rfl⟩

/-! ## Both wires -/

/-- A result of one text that is not empty is rendered the same on both wires. -/
def ChatMessage.PlainResult : ChatMessage → Prop
  | .tool _ content => ∃ text, textsOf content = [text] ∧ text ≠ ""
  | _ => True

private theorem said_plain {m : ChatMessage} (h : m.PlainResult) :
    m.said Glm.renderResult = m.said Opencode.renderResult := by
  cases m with
  | tool id content =>
    obtain ⟨text,htexts,htext⟩ := h
    have hrender := renderResult_singleton htext
    rw [ChatMessage.said,ChatMessage.said,htexts,hrender.1,hrender.2]
  | _ => rfl

/-- The two requests ask the same of a model. -/
structure SameRequest (options : GenerateOptions ν σ) (r : ResponsesRequest ν σ)
    (r' : ChatCompletionsRequest ν σ) : Prop where
  model : r.model = r'.model
  tools : r.tools = r'.tools
  temperature : r.temperature = r'.temperature
  maxTokens : r.maxOutputTokens = r'.maxTokens
  prompt : r.instructions.getD "" =
    "\n\n".intercalate ((r'.messages.filterMap ChatRequestMessage.prompt?).filter (· ≠ ""))
  input : r.input.flatMap ResponsesInputItem.said =
    options.messages.flatMap fun m => m.said Glm.renderResult
  messages : r'.messages.flatMap ChatRequestMessage.said =
    options.messages.flatMap fun m => m.said Opencode.renderResult
  waiting : openCalls (r.input.flatMap ResponsesInputItem.said) =
    openCalls (r'.messages.flatMap ChatRequestMessage.said)
  plain : (∀ m ∈ options.messages, m.PlainResult) →
    r.input.flatMap ResponsesInputItem.said = r'.messages.flatMap ChatRequestMessage.said

private theorem prompts_messages (system : Option String) (messages : List ChatMessage) :
    ((system.toList.map ChatRequestMessage.system ++ messages.flatMap Opencode.wire).filterMap
      ChatRequestMessage.prompt?).filter (· ≠ "") =
      (system.toList ++ messages.flatMap Glm.prompts).filter (· ≠ "") := by
  have hsystem : (system.toList.map ChatRequestMessage.system).filterMap
      ChatRequestMessage.prompt? = system.toList := by
    cases system <;> rfl
  rw [List.filterMap_append,hsystem,List.filter_append,List.filter_append]
  congr 1
  induction messages with
  | nil => rfl
  | cons m rest ih =>
    rw [List.flatMap_cons,List.flatMap_cons,List.filterMap_append,List.filter_append,ih,
      List.filter_append,← prompts_wire,List.filter_filter]
    simp

private theorem flatMap_said_items (messages : List ChatMessage) :
    (messages.flatMap Glm.items).flatMap ResponsesInputItem.said =
      messages.flatMap fun m => m.said Glm.renderResult := by
  rw [List.flatMap_assoc]
  exact List.flatMap_congr fun m _ => said_items

private theorem flatMap_said_wire (system : Option String) (messages : List ChatMessage) :
    (system.toList.map ChatRequestMessage.system ++ messages.flatMap Opencode.wire).flatMap
      ChatRequestMessage.said = messages.flatMap fun m => m.said Opencode.renderResult := by
  have hsystem : (system.toList.map ChatRequestMessage.system).flatMap
      ChatRequestMessage.said = [] := by
    cases system <;> rfl
  rw [List.flatMap_append,hsystem,List.nil_append,List.flatMap_assoc]
  exact List.flatMap_congr fun m _ => said_wire

private theorem sameRequest {options : GenerateOptions ν σ} {r : ResponsesRequest ν σ}
    {r' : ChatCompletionsRequest ν σ} (h : Glm.serializeRequest options = .ok r)
    (h' : Opencode.serializeRequest options = .ok r') : SameRequest options r r' := by
  obtain ⟨_,_,_,_,rfl⟩ := glm_eq_ok.mp h
  obtain ⟨_,_,rfl⟩ := opencode_eq_ok.mp h'
  have hinput := flatMap_said_items options.messages
  have hmessages := flatMap_said_wire options.system options.messages
  exact
    { model := rfl
      tools := rfl
      temperature := rfl
      maxTokens := rfl
      prompt := by
        simp only [prompts_messages]
        split
        · rename_i hempty
          exact hempty.symm
        · rfl
      input := hinput
      messages := hmessages
      waiting := by
        rw [hinput,hmessages]
        exact openCalls_render options.messages Glm.renderResult Opencode.renderResult
      plain := by
        intro hplain
        rw [hinput,hmessages]
        exact List.flatMap_congr fun m hm => said_plain (hplain m hm) }

private theorem systemFirst_before {before messages : List ChatMessage} (h : before <+: messages)
    (hfirst : Glm.SystemFirst messages) : Glm.SystemFirst before := by
  obtain ⟨after,rfl⟩ := h
  rintro start m rest rfl hm
  exact hfirst start m (rest ++ after) (by simp) hm

private theorem isPrefix_flatMap {α β : Type} {before all : List α} (h : before <+: all)
    (f : α → List β) :
    before.flatMap f <+: all.flatMap f := by
  obtain ⟨after,rfl⟩ := h
  exact ⟨after.flatMap f,List.flatMap_append.symm⟩

/-- GLM takes the options that OpenCode Go takes, but for stop sequences and late prompts.  Both
requests then say the same, and what a longer conversation says extends what was said. -/
theorem wires_agree (options : GenerateOptions ν σ) :
    ((∃ r, Glm.serializeRequest options = .ok r) ↔
      (∃ r', Opencode.serializeRequest options = .ok r') ∧ options.stop.getD [] = [] ∧
        Glm.SystemFirst options.messages) ∧
    (∀ r r', Glm.serializeRequest options = .ok r → Opencode.serializeRequest options = .ok r' →
      SameRequest options r r') ∧
    (∀ before, before <+: options.messages →
      (∀ r, Glm.serializeRequest options = .ok r →
        ∃ r₀, Glm.serializeRequest { options with messages := before } = .ok r₀ ∧
          r₀.input <+: r.input) ∧
      ∀ r', Opencode.serializeRequest options = .ok r' →
        ∃ r₀, Opencode.serializeRequest { options with messages := before } = .ok r₀ ∧
          r₀.messages <+: r'.messages) := by
  refine ⟨⟨?_,?_⟩,fun r r' => sameRequest,?_⟩
  · rintro ⟨r,h⟩
    obtain ⟨hstop,heffort,hall,hfirst,_⟩ := glm_eq_ok.mp h
    exact ⟨⟨_,opencode_eq_ok.mpr ⟨heffort,hall,rfl⟩⟩,hstop,hfirst⟩
  · rintro ⟨⟨r',h'⟩,hstop,hfirst⟩
    obtain ⟨heffort,hall,_⟩ := opencode_eq_ok.mp h'
    exact ⟨_,glm_eq_ok.mpr ⟨hstop,heffort,hall,hfirst,rfl⟩⟩
  · intro before hbefore
    have hsub : ∀ m ∈ before, m ∈ options.messages := fun m hm => hbefore.subset hm
    constructor
    · intro r h
      obtain ⟨hstop,heffort,hall,hfirst,rfl⟩ := glm_eq_ok.mp h
      refine ⟨_,glm_eq_ok.mpr ⟨hstop,heffort,fun m hm => hall m (hsub m hm),
        systemFirst_before hbefore hfirst,rfl⟩,?_⟩
      exact isPrefix_flatMap hbefore Glm.items
    · intro r' h'
      obtain ⟨heffort,hall,rfl⟩ := opencode_eq_ok.mp h'
      refine ⟨_,opencode_eq_ok.mpr ⟨heffort,fun m hm => hall m (hsub m hm),rfl⟩,?_⟩
      exact List.prefix_append_right_inj _ |>.mpr (isPrefix_flatMap hbefore Opencode.wire)

end said

/-- A prompt, a question, a call and its result. -/
def demoOptions : GenerateOptions Nat Unit where
  model := "glm-4.6"
  system := some "Play."
  messages := [.system [.plain (.text "Be brief.")],.user [.plain (.text "Which cell?")],
    .assistant [.plain (.reasoning "hm"),.plain (.text "I look."),
      .plain (.toolCall "c1" "read" "")],
    .tool "c1" [.plain (.text "3 mines")]]

theorem wires_agree_demo :
    ∃ r r', Glm.serializeRequest demoOptions = .ok r ∧
      Opencode.serializeRequest demoOptions = .ok r' ∧ SameRequest demoOptions r r' :=
  ⟨_,_,rfl,rfl,(wires_agree demoOptions).2.1 _ _ rfl rfl⟩

end Dominion.Llm
