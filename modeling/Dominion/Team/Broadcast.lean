import Dominion.Framework.Ecma
import Mathlib.Logic.Function.Basic
import Mathlib.Data.List.Nodup

/-! # Broadcast units and their rendered form

A unit is the anchor of a logged production with its order key; every render reads the content
back from the sender's log. -/
namespace Dominion.Team

open Dominion.Framework

inductive ContentBlock
  | text (text : String)
  /-- Any other block, by its JSON form. -/
  | other (json : String)
  deriving DecidableEq, Repr

structure AssistantMessage where
  id : String
  content : List ContentBlock
  deriving DecidableEq, Repr

structure ToolResultMessage where
  toolCallId : String
  content : List ContentBlock
  deriving DecidableEq, Repr

/-- Durable provenance of an injected broadcast. -/
structure TeamBroadcastSource where
  role : String
  senderSessionId : String
  messageId : String
  context : Option String
  deriving DecidableEq, Repr

inductive MessageSource
  | teamBroadcast (source : TeamBroadcastSource)
  | other (kind : String)
  deriving DecidableEq, Repr

structure UserMessage where
  content : List ContentBlock
  source : MessageSource
  deriving DecidableEq, Repr

inductive EventData
  | assistantMessage (message : AssistantMessage)
  | toolCall (callId name arguments : String)
  | toolResult (message : ToolResultMessage)
  | userMessage (source : MessageSource)
  | other (type : String)
  deriving DecidableEq, Repr

structure SessionEvent where
  time : Int
  seq : Nat
  data : EventData
  deriving DecidableEq, Repr

inductive UnitKind
  | message
  | tool
  deriving DecidableEq, Repr

/-- A speech, or a completed tool unit. -/
structure BroadcastUnit where
  kind : UnitKind
  anchor : String
  time : Int
  seq : Nat
  deriving DecidableEq, Repr

def isTagChar (c : Char) : Bool :=
  ('a' ≤ c && c ≤ 'z') || ('0' ≤ c && c ≤ '9') || c == '_' || c == '-'

/-- The wrapper tag stem of a role. -/
def tagName (role : String) : String :=
  let lowered := (Ecma.toLowerCase (Ecma.trim role)).toList
  let normalized := Text.trim (String.ofList (Text.replaceRuns isTagChar '-' false lowered)) '-'
  if normalized = "" then "member" else normalized

def messageBody (message : AssistantMessage) : String :=
  "\n\n".intercalate (message.content.filterMap fun block =>
    match block with
    | .text text => some text
    | .other _ => none)

def toolResultBody (message : ToolResultMessage) : String :=
  "\n".intercalate (message.content.map fun block =>
    match block with
    | .text text => text
    | .other json => json)

/-- The state of the loop of `deriveUnits`. -/
structure Derivation where
  units : List BroadcastUnit := []
  calls : String → Option (Int × Nat) := fun _ => none

def Derivation.visit (d : Derivation) (event : SessionEvent) : Derivation :=
  match event.data with
  | .assistantMessage message =>
    if messageBody message = "" then d
    else { d with units := d.units ++ [⟨.message,message.id,event.time,event.seq⟩] }
  | .toolCall callId _ _ =>
    { d with calls := Function.update d.calls callId (some (event.time,event.seq)) }
  | .toolResult message =>
    match d.calls message.toolCallId with
    | none => d
    | some call =>
      { units := d.units ++ [⟨.tool,message.toolCallId,call.1,call.2⟩]
        calls := Function.update d.calls message.toolCallId none }
  | _ => d

def deriveUnits (events : List SessionEvent) : List BroadcastUnit :=
  (events.foldl Derivation.visit {}).units

/-- The anchor that a team broadcast carries. -/
def MessageSource.anchor? : MessageSource → Option String
  | .teamBroadcast source => some source.messageId
  | .other _ => none

def consumedAnchors (events : List SessionEvent) : List String :=
  events.filterMap fun event =>
    match event.data with
    | .userMessage source => source.anchor?
    | _ => none

/-- Cross-member unit order. -/
def compareUnits (a b : BroadcastUnit) : Int :=
  if a.time - b.time ≠ 0 then a.time - b.time else (a.seq : Int) - b.seq

def findAssistantMessage (events : List SessionEvent) (anchor : String) : Option AssistantMessage :=
  events.findSome? fun event =>
    match event.data with
    | .assistantMessage message => if message.id = anchor then some message else none
    | _ => none

def findToolCall (events : List SessionEvent) (anchor : String) : Option (String × String) :=
  events.findSome? fun event =>
    match event.data with
    | .toolCall callId name arguments => if callId = anchor then some (name,arguments) else none
    | _ => none

def findToolResult (events : List SessionEvent) (anchor : String) : Option ToolResultMessage :=
  events.findSome? fun event =>
    match event.data with
    | .toolResult message => if message.toolCallId = anchor then some message else none
    | _ => none

/-- Render one unit into the group-chat wire form. -/
def renderBroadcast (role : String) (unit : BroadcastUnit) (senderEvents : List SessionEvent)
    (context : Option String) : Except String String :=
  let tag := tagName role
  match unit.kind with
  | .message =>
    match findAssistantMessage senderEvents unit.anchor with
    | none =>
      .error ("team broadcast: sender log has no assistant/message for anchor \"" ++ unit.anchor ++
        "\"")
    | some message =>
      .ok ("<" ++ tag ++ "-message>\n" ++ messageBody message ++ "\n</" ++ tag ++ "-message>")
  | .tool =>
    match findToolCall senderEvents unit.anchor,findToolResult senderEvents unit.anchor with
    | some (name,arguments),some result =>
      let lines := (context.map fun context => "context: " ++ context).toList ++
        ["tool: " ++ name,"args: " ++ arguments,"result: " ++ toolResultBody result]
      .ok ("<" ++ tag ++ "-tool-call>\n" ++ "\n".intercalate lines ++ "\n</" ++ tag ++ "-tool-call>")
    | _,_ =>
      .error ("team broadcast: sender log has no complete tool unit for anchor \"" ++ unit.anchor ++
        "\"")

/-- The broadcast of one unit. -/
def buildBroadcastMessage (role : String) (unit : BroadcastUnit) (senderSessionId : String)
    (senderEvents : List SessionEvent) (context : Option String) : Except String UserMessage :=
  (renderBroadcast role unit senderEvents context).map fun text =>
    { content := [.text text]
      source := .teamBroadcast ⟨role,senderSessionId,unit.anchor,context⟩ }

example : tagName "  Team Lead! " = "team-lead" := by decide

/-- The id of the speech or of the tool call that an event logs. -/
def SessionEvent.production (event : SessionEvent) : Option String :=
  match event.data with
  | .assistantMessage message => some message.id
  | .toolCall callId _ _ => some callId
  | _ => none

def productions (events : List SessionEvent) : List String :=
  events.filterMap SessionEvent.production

/-- The units of a log: its speeches that are not empty, and its calls that a result follows. -/
inductive Derivable (log : List SessionEvent) : BroadcastUnit → Prop
  | speech {event : SessionEvent} {message : AssistantMessage} :
    event ∈ log → event.data = .assistantMessage message → messageBody message ≠ "" →
    Derivable log ⟨.message,message.id,event.time,event.seq⟩
  | tool {call result : SessionEvent} {callId name arguments : String} {message : ToolResultMessage} :
    [call,result].Sublist log → call.data = .toolCall callId name arguments →
    result.data = .toolResult message → message.toolCallId = callId →
    Derivable log ⟨.tool,callId,call.time,call.seq⟩

section derivation

variable {log : List SessionEvent} {event a b : SessionEvent} {u : BroadcastUnit} {d : Derivation}

private theorem eq_of_filterMap_nodup {α β : Type} {f : α → Option β} {l : List α} {x y : α} {p : β}
    (hl : (l.filterMap f).Nodup) (hx : x ∈ l) (hy : y ∈ l) (hfx : f x = some p)
    (hfy : f y = some p) : x = y := by
  induction l with
  | nil => cases hx
  | cons z l ih =>
    have hp : ∀ w ∈ l, f w = some p → p ∈ l.filterMap f := fun w hw hfw =>
      List.mem_filterMap.mpr ⟨w,hw,hfw⟩
    cases hz : f z with
    | none =>
      rw [List.filterMap_cons_none hz] at hl
      have hx' : x ∈ l := (List.mem_cons.mp hx).resolve_left fun he => by simp [← he,hfx] at hz
      have hy' : y ∈ l := (List.mem_cons.mp hy).resolve_left fun he => by simp [← he,hfy] at hz
      exact ih hl hx' hy'
    | some q =>
      rw [List.filterMap_cons_some hz,List.nodup_cons] at hl
      rcases List.mem_cons.mp hx with rfl | hx' <;> rcases List.mem_cons.mp hy with rfl | hy'
      · rfl
      · have hq : q = p := by simpa [hfx] using hz.symm
        exact absurd (hp y hy' hfy) (hq ▸ hl.1)
      · have hq : q = p := by simpa [hfy] using hz.symm
        exact absurd (hp x hx' hfx) (hq ▸ hl.1)
      · exact ih hl.2 hx' hy'

private theorem sublist_concat {α : Type} {l : List α} {x y z : α} :
    [x,y].Sublist (l ++ [z]) ↔ [x,y].Sublist l ∨ (x ∈ l ∧ y = z) := by
  constructor
  · intro h
    obtain ⟨l₁,l₂,he,h₁,h₂⟩ := List.sublist_append_iff.mp h
    match l₁,he with
    | [],he =>
      have hlen : [x,y].length ≤ [z].length := by
        rw [he]
        exact h₂.length_le
      simp at hlen
    | [_],he =>
      obtain ⟨rfl,rfl⟩ : x = _ ∧ [y] = l₂ := by simpa using he
      exact Or.inr ⟨by simpa using h₁,by simpa using h₂⟩
    | [_,_],he =>
      obtain ⟨rfl,rfl,-⟩ : x = _ ∧ y = _ ∧ l₂ = [] := by simpa using he
      exact Or.inl h₁
    | _ :: _ :: _ :: _,he => simp at he
  · rintro (h | ⟨hx,rfl⟩)
    · exact h.trans (List.sublist_append_left l _)
    · exact (List.singleton_sublist.mpr hx).append (List.Sublist.refl [y])

/-- A unit takes its anchor and its order key from one event. -/
theorem Derivable.production (h : Derivable log u) :
    ∃ e ∈ log, e.production = some u.anchor ∧ e.time = u.time ∧ e.seq = u.seq := by
  cases h with
  | speech hmem hdata _ => exact ⟨_,hmem,by simp [SessionEvent.production,hdata],rfl,rfl⟩
  | tool hsub hcall _ _ =>
    have hmem := hsub.subset (List.mem_cons_self (a := _))
    exact ⟨_,hmem,by simp [SessionEvent.production,hcall],rfl,rfl⟩

theorem Derivable.anchor_mem (h : Derivable log u) : u.anchor ∈ productions log := by
  obtain ⟨e,hmem,hp,-⟩ := h.production
  exact List.mem_filterMap.mpr ⟨e,hmem,hp⟩

private theorem derivable_concat : Derivable (log ++ [event]) u ↔
    Derivable log u ∨
    (∃ message, event.data = .assistantMessage message ∧ messageBody message ≠ "" ∧
      u = ⟨.message,message.id,event.time,event.seq⟩) ∨
    ∃ message, event.data = .toolResult message ∧ ∃ call ∈ log, ∃ name arguments,
      call.data = .toolCall message.toolCallId name arguments ∧
      u = ⟨.tool,message.toolCallId,call.time,call.seq⟩ := by
  constructor
  · intro h
    cases h with
    | speech hmem hdata hbody =>
      rcases List.mem_append.mp hmem with hmem | hmem
      · exact Or.inl (.speech hmem hdata hbody)
      · obtain rfl := List.mem_singleton.mp hmem
        exact Or.inr (Or.inl ⟨_,hdata,hbody,rfl⟩)
    | tool hsub hcall hresult hid =>
      rcases sublist_concat.mp hsub with hsub | ⟨hmem,rfl⟩
      · exact Or.inl (.tool hsub hcall hresult hid)
      · subst hid
        exact Or.inr (Or.inr ⟨_,hresult,_,hmem,_,_,hcall,rfl⟩)
  · rintro (h | ⟨message,hdata,hbody,rfl⟩ | ⟨message,hdata,call,hmem,name,arguments,hcall,rfl⟩)
    · cases h with
      | speech hmem hdata hbody => exact .speech (List.mem_append_left _ hmem) hdata hbody
      | tool hsub hcall hresult hid =>
        exact .tool (sublist_concat.mpr (Or.inl hsub)) hcall hresult hid
    · exact .speech (by simp) hdata hbody
    · exact .tool (sublist_concat.mpr (Or.inr ⟨hmem,rfl⟩)) hcall hdata rfl

/-- A logged call whose result is outstanding. -/
def Open (log : List SessionEvent) (callId : String) (key : Int × Nat) : Prop :=
  (∃ call ∈ log, ∃ name arguments, call.data = .toolCall callId name arguments ∧
    key = (call.time,call.seq)) ∧
  ∀ time seq, ¬Derivable log ⟨.tool,callId,time,seq⟩

/-- What the loop of `deriveUnits` has after a log. -/
structure Derives (log : List SessionEvent) (d : Derivation) : Prop where
  units : ∀ u, u ∈ d.units ↔ Derivable log u
  once : (d.units.map BroadcastUnit.anchor).Nodup
  calls : ∀ callId key, d.calls callId = some key ↔ Open log callId key

private theorem Derives.anchor_mem (h : Derives log d) {anchor : String}
    (ha : anchor ∈ d.units.map BroadcastUnit.anchor) : anchor ∈ productions log := by
  obtain ⟨u,hu,rfl⟩ := List.mem_map.mp ha
  exact ((h.units u).mp hu).anchor_mem

private theorem productions_concat (log : List SessionEvent) (event : SessionEvent) :
    productions (log ++ [event]) = productions log ++ event.production.toList := by
  cases h : event.production <;> simp [productions,h]

/-- An event that changes neither the units nor the calls. -/
theorem Derives.skip (h : Derives log d)
    (hunits : ∀ u, Derivable (log ++ [event]) u ↔ Derivable log u)
    (hcall : ∀ callId name arguments, event.data ≠ .toolCall callId name arguments) :
    Derives (log ++ [event]) d where
  units u := (h.units u).trans (hunits u).symm
  once := h.once
  calls callId key := by
    rw [h.calls]
    simp [Open,hunits,or_and_right,exists_or,hcall]

private theorem Derives.visit_speech (h : Derives log d) {message : AssistantMessage}
    (hdata : event.data = .assistantMessage message)
    (hfresh : message.id ∉ productions log) :
    Derives (log ++ [event]) (d.visit event) := by
  have hcall : ∀ callId name arguments, event.data ≠ .toolCall callId name arguments := by
    simp [hdata]
  by_cases hbody : messageBody message = ""
  · have hvisit : d.visit event = d := by simp [Derivation.visit,hdata,hbody]
    rw [hvisit]
    exact h.skip (fun u => by rw [derivable_concat]; simp [hdata,hbody]) hcall
  · have hvisit : d.visit event =
        { d with units := d.units ++ [⟨.message,message.id,event.time,event.seq⟩] } := by
      simp [Derivation.visit,hdata,hbody]
    rw [hvisit]
    have hunits : ∀ u, Derivable (log ++ [event]) u ↔
        Derivable log u ∨ u = ⟨.message,message.id,event.time,event.seq⟩ := fun u => by
      rw [derivable_concat]
      simp [hdata,hbody]
    constructor
    · intro u
      rw [hunits,← h.units u]
      simp
    · have hnew : message.id ∉ d.units.map BroadcastUnit.anchor := fun ha =>
        hfresh (h.anchor_mem ha)
      simpa [List.nodup_append] using ⟨h.once,fun u hu he => hnew (List.mem_map.mpr ⟨u,hu,he⟩)⟩
    · intro callId key
      rw [h.calls]
      simp [Open,hunits,or_and_right,exists_or,hcall]

private theorem Derives.visit_call (h : Derives log d) {callId name arguments : String}
    (hdata : event.data = .toolCall callId name arguments)
    (hfresh : callId ∉ productions log) :
    Derives (log ++ [event]) (d.visit event) := by
  have hvisit : d.visit event =
      { d with calls := Function.update d.calls callId (some (event.time,event.seq)) } := by
    simp [Derivation.visit,hdata]
  rw [hvisit]
  have hunits : ∀ u, Derivable (log ++ [event]) u ↔ Derivable log u := fun u => by
    rw [derivable_concat]
    simp [hdata]
  refine ⟨fun u => (h.units u).trans (hunits u).symm,h.once,fun other key => ?_⟩
  by_cases ho : other = callId
  · subst ho
    have hold : ∀ call ∈ log, ∀ name arguments, call.data ≠ .toolCall other name arguments := by
      intro call hmem name arguments hcall
      exact hfresh (List.mem_filterMap.mpr ⟨call,hmem,by simp [SessionEvent.production,hcall]⟩)
    have hnone : ∀ time seq, ¬Derivable log ⟨.tool,other,time,seq⟩ := fun time seq hu =>
      hfresh hu.anchor_mem
    constructor
    · intro hkey
      have hkey : key = (event.time,event.seq) := by simpa using hkey.symm
      exact ⟨⟨event,by simp,name,arguments,hdata,hkey⟩,fun time seq hu => hnone _ _ ((hunits _).mp hu)⟩
    · rintro ⟨⟨call,hmem,name',arguments',hcall,hkey⟩,-⟩
      rcases List.mem_append.mp hmem with hmem | hmem
      · exact absurd hcall (hold call hmem _ _)
      · obtain rfl := List.mem_singleton.mp hmem
        simp [hkey]
  · show Function.update d.calls callId _ other = some key ↔ _
    rw [Function.update_of_ne ho,h.calls]
    simp [Open,hunits,or_and_right,exists_or,hdata,Ne.symm ho]

private theorem Derives.visit_result (h : Derives log d) (hlog : (productions log).Nodup)
    {message : ToolResultMessage} (hdata : event.data = .toolResult message) :
    Derives (log ++ [event]) (d.visit event) := by
  have hcall : ∀ callId name arguments, event.data ≠ .toolCall callId name arguments := by
    simp [hdata]
  -- the log has one call of each id
  have hone : ∀ callId, ∀ call ∈ log, ∀ e ∈ log, ∀ name arguments,
      call.data = .toolCall callId name arguments → e.production = some callId → call = e := by
    intro callId call hmem e he name arguments hc hp
    exact eq_of_filterMap_nodup hlog hmem he (by simp [SessionEvent.production,hc]) hp
  cases hopen : d.calls message.toolCallId with
  | none =>
    have hvisit : d.visit event = d := by simp [Derivation.visit,hdata,hopen]
    rw [hvisit]
    refine h.skip (fun u => ?_) hcall
    rw [derivable_concat]
    refine ⟨?_,Or.inl⟩
    rintro (hu | ⟨m,hm,-⟩ | ⟨m,hm,call,hmem,name,arguments,hc,rfl⟩)
    · exact hu
    · simp [hdata] at hm
    · obtain rfl : message = m := by simpa [hdata] using hm
      have hclosed : ¬Open log message.toolCallId (call.time,call.seq) := fun ho => by
        rw [(h.calls _ _).mpr ho] at hopen
        cases hopen
      have hdone : ∃ time seq, Derivable log ⟨.tool,message.toolCallId,time,seq⟩ := by
        by_contra hnone
        exact hclosed ⟨⟨call,hmem,name,arguments,hc,rfl⟩,fun time seq hu => hnone ⟨time,seq,hu⟩⟩
      obtain ⟨time,seq,hu⟩ := hdone
      obtain ⟨e,he,hp,rfl,rfl⟩ := hu.production
      obtain rfl := hone _ call hmem e he _ _ hc hp
      exact hu
  | some key =>
    obtain ⟨⟨call,hmem,name,arguments,hc,rfl⟩,hnone⟩ := (h.calls _ _).mp hopen
    have hvisit : d.visit event =
        { units := d.units ++ [⟨.tool,message.toolCallId,call.time,call.seq⟩]
          calls := Function.update d.calls message.toolCallId none } := by
      simp [Derivation.visit,hdata,hopen]
    rw [hvisit]
    have hunits : ∀ u, Derivable (log ++ [event]) u ↔
        Derivable log u ∨ u = ⟨.tool,message.toolCallId,call.time,call.seq⟩ := by
      intro u
      rw [derivable_concat]
      constructor
      · rintro (hu | ⟨m,hm,-⟩ | ⟨m,hm,call',hmem',name',arguments',hc',rfl⟩)
        · exact Or.inl hu
        · simp [hdata] at hm
        · obtain rfl : message = m := by simpa [hdata] using hm
          obtain rfl := hone _ call hmem call' hmem' _ _ hc (by simp [SessionEvent.production,hc'])
          exact Or.inr rfl
      · rintro (hu | rfl)
        · exact Or.inl hu
        · exact Or.inr (Or.inr ⟨message,hdata,call,hmem,name,arguments,hc,rfl⟩)
    refine ⟨fun u => ?_,?_,fun callId key => ?_⟩
    · rw [hunits,← h.units u]
      simp
    · have hnew : message.toolCallId ∉ d.units.map BroadcastUnit.anchor := by
        intro ha
        obtain ⟨u,hu,hanchor⟩ := List.mem_map.mp ha
        cases (h.units u).mp hu with
        | @speech e speech hmem' hdata' _ =>
          have hp : e.production = some message.toolCallId := by
            rw [← hanchor,SessionEvent.production,hdata']
          obtain rfl := hone _ call hmem e hmem' _ _ hc hp
          rw [hc] at hdata'
          cases hdata'
        | @tool c r id n args m hsub hcall' hresult hid =>
          obtain rfl : id = message.toolCallId := hanchor
          exact hnone _ _ (.tool hsub hcall' hresult hid)
      simpa [List.nodup_append] using ⟨h.once,fun u hu he => hnew (List.mem_map.mpr ⟨u,hu,he⟩)⟩
    · by_cases ho : callId = message.toolCallId
      · subst ho
        have hdone := (hunits ⟨.tool,message.toolCallId,call.time,call.seq⟩).mpr (Or.inr rfl)
        constructor
        · intro hkey
          simp at hkey
        · intro hopen'
          exact absurd hdone (hopen'.2 _ _)
      · show Function.update d.calls message.toolCallId none callId = some key ↔ _
        rw [Function.update_of_ne ho,h.calls]
        simp [Open,hunits,or_and_right,exists_or,hdata,ho]

private theorem derives_deriveUnits (hlog : (productions log).Nodup) :
    Derives log (log.foldl Derivation.visit {}) := by
  induction log using List.reverseRecOn with
  | nil =>
    have hnone : ∀ u, ¬Derivable [] u := fun u hu => by simpa [productions] using hu.anchor_mem
    exact ⟨fun u => by simp [hnone],by simp,fun callId key => by simp [Open]⟩
  | append_singleton log event ih =>
    rw [productions_concat,List.nodup_append] at hlog
    obtain ⟨hold,-,hfresh⟩ := hlog
    have hd := ih hold
    rw [List.foldl_concat]
    have hnew : ∀ id, event.production = some id → id ∉ productions log := fun id hid hmem =>
      hfresh id hmem id (by simp [hid]) rfl
    cases hdata : event.data with
    | assistantMessage message =>
      exact hd.visit_speech hdata (hnew _ (by simp [SessionEvent.production,hdata]))
    | toolCall callId name arguments =>
      exact hd.visit_call hdata (hnew _ (by simp [SessionEvent.production,hdata]))
    | toolResult message => exact hd.visit_result hold hdata
    | userMessage source =>
      have hvisit : (log.foldl Derivation.visit {}).visit event = log.foldl Derivation.visit {} := by
        simp [Derivation.visit,hdata]
      rw [hvisit]
      exact hd.skip (fun u => by rw [derivable_concat]; simp [hdata]) (by simp [hdata])
    | other type =>
      have hvisit : (log.foldl Derivation.visit {}).visit event = log.foldl Derivation.visit {} := by
        simp [Derivation.visit,hdata]
      rw [hvisit]
      exact hd.skip (fun u => by rw [derivable_concat]; simp [hdata]) (by simp [hdata])

/-- The loop finds exactly the units of the log. -/
theorem mem_deriveUnits (hlog : (productions log).Nodup) :
    u ∈ deriveUnits log ↔ Derivable log u :=
  (derives_deriveUnits hlog).units u

theorem nodup_deriveUnits (hlog : (productions log).Nodup) :
    ((deriveUnits log).map BroadcastUnit.anchor).Nodup :=
  (derives_deriveUnits hlog).once

/-- A derivable unit can be rendered from its log. -/
theorem Derivable.render (h : Derivable log u) (role : String) (context : Option String) :
    ∃ text, renderBroadcast role u log context = .ok text := by
  cases h with
  | @speech e message hmem hdata _ =>
    have hfound : ∃ m, findAssistantMessage log message.id = some m := by
      refine Option.isSome_iff_exists.mp (List.findSome?_isSome_iff.mpr ⟨e,hmem,?_⟩)
      simp [hdata]
    obtain ⟨m,hm⟩ := hfound
    exact ⟨_,by simp [renderBroadcast,hm]; rfl⟩
  | @tool call result callId name arguments message hsub hcall hresult hid =>
    have hcallmem : call ∈ log := hsub.subset (by simp)
    have hresultmem : result ∈ log := hsub.subset (by simp)
    have hfound : ∃ c, findToolCall log callId = some c := by
      refine Option.isSome_iff_exists.mp (List.findSome?_isSome_iff.mpr ⟨call,hcallmem,?_⟩)
      simp [hcall]
    have hpaired : ∃ r, findToolResult log callId = some r := by
      refine Option.isSome_iff_exists.mp (List.findSome?_isSome_iff.mpr ⟨result,hresultmem,?_⟩)
      simp [hresult,hid]
    obtain ⟨⟨n,args⟩,hc⟩ := hfound
    obtain ⟨r,hr⟩ := hpaired
    exact ⟨_,by simp [renderBroadcast,hc,hr]; rfl⟩

end derivation

end Dominion.Team
