import Dominion.Web.Frames
import Mathlib.Data.List.Induction

/-! # What a single stream shows

The state of a client with one stream, and the anchors that each frame leaves in it. -/
namespace Dominion.Web

open Dominion.Framework
open Dominion.Chat (ContentBlock HistoryMessage ToolStatus)

/-! ### Kinds of frames -/

namespace ChatEvent

variable {e : ChatEvent} {key : BlockKey}

theorem startOf_index {draft : BlockDraft} (h : e.startOf = some (key,draft)) :
    draft.index = key.2 := by
  rw [startOf] at h
  split at h
  · rename_i type _ _ _
    obtain ⟨rfl,rfl⟩ := Prod.mk.inj (Option.some.inj h)
    cases type <;> rfl
  · cases h

theorem blockOf_of_startOf {draft : BlockDraft} (h : e.startOf = some (key,draft)) :
    e.blockOf = some key ∧ e.deltaOf = none ∧ e.endOf = none := by
  rcases e with ⟨member,turnId,body⟩
  cases body <;> simp_all [startOf,blockOf,deltaOf,endOf]

theorem blockOf_of_deltaOf {text : String} (h : e.deltaOf = some (key,text)) :
    e.blockOf = some key ∧ e.startOf = none ∧ e.endOf = none := by
  rcases e with ⟨member,turnId,body⟩
  cases body <;> simp_all [startOf,blockOf,deltaOf,endOf]

theorem blockOf_of_endOf {block : ContentBlock} (h : e.endOf = some (key,block)) :
    e.blockOf = some key ∧ e.startOf = none ∧ e.deltaOf = none := by
  rcases e with ⟨member,turnId,body⟩
  cases body <;> simp_all [startOf,blockOf,deltaOf,endOf]

private theorem startOf_of_blockOf (h : e.blockOf = none) :
    e.startOf = none ∧ e.deltaOf = none ∧ e.endOf = none := by
  rcases e with ⟨member,turnId,body⟩
  cases body <;> simp_all [startOf,blockOf,deltaOf,endOf]

end ChatEvent

/-! ### One turn -/

/-- What a live turn shows of the frames `P`, all of them from the stream 1. -/
structure TurnAnchored (P : List ChatEvent) (t : LiveMemberTurn) : Prop where
  /-- The blocks that have started are there. -/
  started : ∀ e ∈ P, e.turn = t.key → ∀ key draft, e.startOf = some (key,draft) →
    Started t.steps key
  /-- A tool call has started or ended as one. -/
  calls : ∀ key b, BlockAt t.steps key b → isToolCall b.content = true →
    ∃ e ∈ P, e.turn = t.key ∧
      ((∃ draft, e.startOf = some (key,draft) ∧ isToolCall draft.content = true) ∨
        ∃ block, e.endOf = some (key,block) ∧ isToolCall block = true)
  own : ∀ key, t.owners key = none ∨ t.owners key = some 1

namespace TurnAnchored

variable {P : List ChatEvent} {t : LiveMemberTurn} {e : ChatEvent} {key : BlockKey}

/-- A frame about something else. -/
theorem other (h : TurnAnchored P t) (he : e.turn ≠ t.key ∨ e.blockOf = none) :
    TurnAnchored (P ++ [e]) t where
  started e' he' hturn key draft hstart := by
    rcases List.mem_append.mp he' with he' | he'
    · exact h.started e' he' hturn key draft hstart
    · have hsame : e' = e := by simpa using he'
      subst hsame
      rcases he with he | he
      · exact absurd hturn he
      · rw [(ChatEvent.startOf_of_blockOf he).1] at hstart
        cases hstart
  calls key b hb hcall := by
    obtain ⟨e',he',hrest⟩ := h.calls key b hb hcall
    exact ⟨e',List.mem_append_left _ he',hrest⟩
  own := h.own

private theorem claimBlock_own {owners : BlockKey → Option Nat}
    (h : ∀ key, owners key = none ∨ owners key = some 1) (key' : BlockKey) :
    claimBlock owners key 1 key' = none ∨ claimBlock owners key 1 key' = some 1 := by
  rw [claimBlock]
  split
  · by_cases hk : key' = key
    · subst hk
      simp
    · simpa [hk] using h key'
  · exact h key'

private theorem start (h : TurnAnchored P t) (hturn : e.turn = t.key) {draft : BlockDraft}
    (hstart : e.startOf = some (key,draft)) : TurnAnchored (P ++ [e]) (t.start key draft 1) where
  started e' he' hturn' key' draft' hstart' := by
    rcases List.mem_append.mp he' with he' | he'
    · exact (h.started e' he' hturn' key' draft' hstart').appendBlockStart _ _
    · have hsame : e' = e := by simpa using he'
      subst hsame
      obtain ⟨rfl,rfl⟩ := Prod.mk.inj (Option.some.inj (hstart.symm.trans hstart'))
      have hthere := started_appendBlockStart t.steps key.1 draft
      rwa [ChatEvent.startOf_index hstart] at hthere
  calls key' b hb hcall := by
    rcases blockAt_appendBlockStart hb with hb | ⟨hkey,rfl⟩
    · obtain ⟨e',he',hrest⟩ := h.calls key' b hb hcall
      exact ⟨e',List.mem_append_left _ he',hrest⟩
    · rw [ChatEvent.startOf_index hstart] at hkey
      subst hkey
      exact ⟨e,by simp,hturn,.inl ⟨b,hstart,hcall⟩⟩
  own := claimBlock_own h.own

/-- The single stream owns the blocks, so none of its deltas is a duplicate. -/
theorem delta_eq (h : TurnAnchored P t) (text : String) :
    t.delta key text 1 = t.onBlock key (fun b => b.append text) 1 := by
  rcases h.own key with hown | hown <;> simp [LiveMemberTurn.delta,hown]

/-- A block changes; it becomes a tool call only at its end. -/
theorem onBlock (h : TurnAnchored P t) (hstart : e.startOf = none) {f : BlockDraft → BlockDraft}
    (hf : ∀ b, (f b).index = b.index)
    (hcall : ∀ b, isToolCall (f b).content = true → isToolCall b.content = true ∨
      e.turn = t.key ∧ ∃ block, e.endOf = some (key,block) ∧ isToolCall block = true) :
    TurnAnchored (P ++ [e]) (t.onBlock key f 1) where
  started e' he' hturn' key' draft' hstart' := by
    simp only [LiveMemberTurn.onBlock,mapStepBlocks_eq]
    rcases List.mem_append.mp he' with he' | he'
    · exact (h.started e' he' hturn' key' draft' hstart').mapBlocks (placed_atBlock hf key)
    · have hsame : e' = e := by simpa using he'
      rw [hsame,hstart] at hstart'
      cases hstart'
  calls key' b hb hcall' := by
    simp only [LiveMemberTurn.onBlock,mapStepBlocks_eq] at hb
    obtain ⟨b₀,hb₀,rfl⟩ := blockAt_mapBlocks (placed_atBlock hf key) hb
    have hold (hcall₀ : isToolCall b₀.content = true) := h.calls key' b₀ hb₀ hcall₀
    by_cases hk : key' = key
    · subst hk
      rcases hcall b₀ (by simpa [atBlock] using hcall') with hcall₀ | ⟨hturn,block,hend⟩
      · obtain ⟨e',he',hrest⟩ := hold hcall₀
        exact ⟨e',List.mem_append_left _ he',hrest⟩
      · exact ⟨e,by simp,hturn,.inr ⟨block,hend⟩⟩
    · obtain ⟨e',he',hrest⟩ := hold (by simpa [atBlock,hk] using hcall')
      exact ⟨e',List.mem_append_left _ he',hrest⟩
  own := claimBlock_own h.own

private theorem settle (h : TurnAnchored P t) (toolId : String) (status : ToolStatus)
    (result : String) :
    TurnAnchored P (t.settle toolId status result) where
  started e he hturn key draft hstart :=
    (h.started e he hturn key draft hstart).mapBlocks fun _ b => settleDraft_index _ _ _ b
  calls key b hb hcall := by
    obtain ⟨b₀,hb₀,rfl⟩ := blockAt_mapBlocks (fun _ b => settleDraft_index _ _ _ b) hb
    exact h.calls key b₀ hb₀ (by simpa using hcall)
  own := h.own

private theorem fixed (h : TurnAnchored P t) (n : Nat) :
    TurnAnchored P { t with fixedSteps := n } :=
  ⟨h.started,h.calls,h.own⟩

end TurnAnchored

/-! ### The whole state -/

/-- What a state shows of the frames `P`. -/
structure Anchored (P : List ChatEvent) (s : ChatState) : Prop where
  distinct : s.Distinct
  seqs : ∀ e ∈ current P, ∀ member message seq, e.body = .teamMessage member message seq →
    member ≠ "" → HasSeq s.history seq
  ids : ∀ e ∈ current P, ∀ member sender message, e.body = .memberView member sender message →
    member ≠ "" → member ≠ USER_MEMBER → HasId (s.memberHistory member) message.messageId
  nameless : ∀ member, Nameless (s.memberHistory member)
  closed : ∀ e ∈ P, e.closes = true → ∀ t ∈ s.live, t.key ≠ e.turn
  turns : ∀ t ∈ s.live, TurnAnchored P t

namespace Anchored

variable {P : List ChatEvent} {s s' : ChatState} {e : ChatEvent}

/-- A frame that keeps the messages, shows its own, and leaves turns that are anchored. -/
theorem extend (h : Anchored P s) (hlive : e.aborts = false)
    (hkeep : Keeps s.history s'.history s.memberHistory s'.memberHistory) (hn : s'.Distinct)
    (hseq : ∀ member message seq, e.body = .teamMessage member message seq → member ≠ "" →
      HasSeq s'.history seq)
    (hid : ∀ member sender message, e.body = .memberView member sender message → member ≠ "" →
      member ≠ USER_MEMBER → HasId (s'.memberHistory member) message.messageId)
    (hclose : e.closes = true → ∀ t ∈ s'.live, t.key ≠ e.turn)
    (hturns : ∀ t' ∈ s'.live, TurnAnchored (P ++ [e]) t' ∧
      ((∃ t ∈ s.live, t.key = t'.key) ∨ ∀ e' ∈ P, e'.turn ≠ t'.key)) :
    Anchored (P ++ [e]) s' where
  distinct := hn
  seqs e' he' member message seq hbody hm := by
    rw [current_concat,hlive] at he'
    rcases List.mem_append.mp he' with he' | he'
    · exact hkeep.seqs seq (h.seqs e' he' member message seq hbody hm)
    · have hsame : e' = e := by simpa using he'
      exact hseq member message seq (hsame ▸ hbody) hm
  ids e' he' member sender message hbody hm hu := by
    rw [current_concat,hlive] at he'
    rcases List.mem_append.mp he' with he' | he'
    · exact hkeep.ids member _ (h.ids e' he' member sender message hbody hm hu)
    · have hsame : e' = e := by simpa using he'
      exact hid member sender message (hsame ▸ hbody) hm hu
  nameless := hkeep.nameless h.nameless
  closed e' he' hcloses t' ht' := by
    rcases List.mem_append.mp he' with he' | he'
    · rcases (hturns t' ht').2 with ⟨t,ht,hk⟩ | hfresh
      · exact hk ▸ h.closed e' he' hcloses t ht
      · exact (hfresh e' he').symm
    · have hsame : e' = e := by simpa using he'
      subst hsame
      exact hclose hcloses t' ht'
  turns t' ht' := (hturns t' ht').1

/-- A frame about one live turn. -/
theorem edit (h : Anchored P s) {f : LiveMemberTurn → LiveMemberTurn} {step : BlockKey}
    (hblock : e.blockOf = some step) (hf : ∀ t, (f t).key = t.key)
    (hturn : ∀ t, TurnAnchored P t → e.turn = t.key → TurnAnchored (P ++ [e]) (f t)) :
    Anchored (P ++ [e]) { s with live := editTurn e.turn f s.live } := by
  have hkind : e.aborts = false ∧ e.closes = false ∧
      (∀ member message seq, e.body ≠ .teamMessage member message seq) ∧
      ∀ member sender message, e.body ≠ .memberView member sender message := by
    rcases e with ⟨member,turnId,body⟩
    cases body <;> simp_all [ChatEvent.blockOf,ChatEvent.aborts,ChatEvent.closes]
  refine h.extend hkind.1 (.refl _ _) ?_ ?_ ?_ ?_ ?_
  · simpa [ChatState.Distinct,keys_editTurn hf] using h.distinct
  · exact fun member message seq hbody => absurd hbody (hkind.2.2.1 member message seq)
  · exact fun member sender message hbody => absurd hbody (hkind.2.2.2 member sender message)
  · simp [hkind.2.1]
  · intro t' ht'
    obtain ⟨t,ht,⟨hk,rfl⟩ | ⟨hk,rfl⟩⟩ := mem_editTurn ht'
    · exact ⟨hturn t (h.turns t ht) hk.symm,.inl ⟨t,ht,(hf t).symm⟩⟩
    · exact ⟨(h.turns _ ht).other (.inl fun he => hk he.symm),.inl ⟨_,ht,rfl⟩⟩

private theorem mem_consumeFixedStep {live : List LiveMemberTurn} {member : String}
    {t' : LiveMemberTurn} (h : t' ∈ consumeFixedStep live member) :
    ∃ t ∈ live, ∃ n, t' = { t with fixedSteps := n } := by
  rw [consumeFixedStep] at h
  split at h
  · exact ⟨t',h,_,rfl⟩
  · obtain ⟨t,ht,rfl | rfl⟩ := mem_modify h
    · exact ⟨t',ht,_,rfl⟩
    · exact ⟨t,ht,_,rfl⟩

private theorem keys_consumeFixedStep (live : List LiveMemberTurn) (member : String) :
    (consumeFixedStep live member).map LiveMemberTurn.key = live.map LiveMemberTurn.key := by
  rw [consumeFixedStep]
  split
  · rfl
  · rename_i i _
    refine List.ext_getElem? fun j => ?_
    simp only [List.getElem?_map,List.getElem?_modify]
    cases live[j]? with
    | none => rfl
    | some t =>
      simp only [Option.map_some]
      split <;> rfl

private theorem teamMessage (h : Anchored P s) {member : String} {message : HistoryMessage}
    {seq : Int} (hbody : e.body = .teamMessage member message seq) :
    Anchored (P ++ [e]) (reduceTeamMessage s member message seq) := by
  have hblock : e.blockOf = none := by simp [ChatEvent.blockOf,hbody]
  have hlive : (reduceTeamMessage s member message seq).live = s.live ∨
      (reduceTeamMessage s member message seq).live = consumeFixedStep s.live member := by
    simp only [reduceTeamMessage]
    split
    · exact .inl rfl
    · split
      · exact .inl rfl
      · exact .inr rfl
  refine h.extend (by simp [ChatEvent.aborts,hbody]) (keeps_reduceTeamMessage s member message seq)
    ?_ ?_ ?_ ?_ ?_
  · rcases hlive with hlive | hlive
    · simpa [ChatState.Distinct,hlive] using h.distinct
    · simpa [ChatState.Distinct,hlive,keys_consumeFixedStep] using h.distinct
  · intro member' message' seq' hbody' hm
    obtain ⟨rfl,rfl,rfl⟩ : member = member' ∧ message = message' ∧ seq = seq' := by
      simpa [hbody] using hbody'
    exact hasSeq_reduceTeamMessage s hm message seq
  · simp [hbody]
  · simp [ChatEvent.closes,hbody]
  · intro t' ht'
    rcases hlive with hlive | hlive
    · rw [hlive] at ht'
      exact ⟨(h.turns t' ht').other (.inr hblock),.inl ⟨t',ht',rfl⟩⟩
    · rw [hlive] at ht'
      obtain ⟨t,ht,n,rfl⟩ := mem_consumeFixedStep ht'
      exact ⟨((h.turns t ht).fixed n).other (.inr hblock),.inl ⟨t,ht,rfl⟩⟩

/-- A frame that leaves the live turns as they are. -/
theorem idle (h : Anchored P s) (hlive : s'.live = s.live)
    (hkeep : Keeps s.history s'.history s.memberHistory s'.memberHistory)
    (hblock : e.blockOf = none) (haborts : e.aborts = false) (hcloses : e.closes = false)
    (hseq : ∀ member message seq, e.body ≠ .teamMessage member message seq)
    (hid : ∀ member sender message, e.body = .memberView member sender message → member ≠ "" →
      member ≠ USER_MEMBER → HasId (s'.memberHistory member) message.messageId) :
    Anchored (P ++ [e]) s' := by
  refine h.extend haborts hkeep ?_ ?_ hid ?_ ?_
  · simpa [ChatState.Distinct,hlive] using h.distinct
  · exact fun member message seq hbody => absurd hbody (hseq member message seq)
  · simp [hcloses]
  · intro t ht
    rw [hlive] at ht
    exact ⟨(h.turns t ht).other (.inr hblock),.inl ⟨t,ht,rfl⟩⟩

private theorem memberView (h : Anchored P s) {member sender : String} {message : HistoryMessage}
    (hbody : e.body = .memberView member sender message) (hnamed : message.messageId ≠ "") :
    Anchored (P ++ [e]) (reduceMemberView s member sender message) := by
  have hkeep : Keeps s.history (reduceMemberView s member sender message).history s.memberHistory
      (reduceMemberView s member sender message).memberHistory := by
    rw [reduceMemberView]
    split
    · exact .refl _ _
    · exact keeps_appendMemberInputView _ _ _ _ _
  refine h.idle ?_ hkeep (by simp [ChatEvent.blockOf,hbody]) (by simp [ChatEvent.aborts,hbody])
    (by simp [ChatEvent.closes,hbody]) (by simp [hbody]) ?_
  · rw [reduceMemberView]
    split <;> rfl
  · intro member' sender' message' hbody' hm hu
    obtain ⟨rfl,rfl,rfl⟩ : member = member' ∧ sender = sender' ∧ message = message' := by
      simpa [hbody] using hbody'
    simp only [reduceMemberView,hm,hu,or_self,if_false]
    exact hasId_appendMemberInputView (h.nameless member) hnamed sender

private theorem turnStart (h : Anchored P s) (hP : ∀ e' ∈ P, ChatEvent.Follows e' e)
    (hbody : e.body = .turnStart) (hm : e.member ≠ "") :
    Anchored (P ++ [e]) (reduceTurnStart s e) := by
  have hblock : e.blockOf = none := by simp [ChatEvent.blockOf,hbody]
  have hidle : Anchored (P ++ [e]) s :=
    h.idle rfl (.refl _ _) hblock (by simp [ChatEvent.aborts,hbody])
      (by simp [ChatEvent.closes,hbody]) (by simp [hbody]) (by simp [hbody])
  simp only [reduceTurnStart,eventMember_of_member hm]
  split
  · exact hidle
  · rename_i hnone
    have hfresh : ∀ t ∈ s.live, t.key ≠ e.turn := by
      rw [findLiveTurn_some] at hnone
      have hplace : placeOf LiveMemberTurn.key (e.member,e.turnId) s.live = none := by
        simpa using hnone
      exact placeOf_eq_none.mp hplace
    refine h.extend (by simp [ChatEvent.aborts,hbody]) (.refl _ _) ?_ (by simp [hbody])
      (by simp [hbody]) (by simp [ChatEvent.closes,hbody]) ?_
    · simp only [ChatState.Distinct,List.map_append,List.map_cons,List.map_nil]
      refine List.nodup_append.mpr ⟨h.distinct,List.nodup_singleton _,?_⟩
      intro k hk k' hk'
      obtain ⟨t,ht,rfl⟩ := List.mem_map.mp hk
      have hk'' : k' = e.turn := by
        simpa [LiveMemberTurn.key,TurnDraft.key,ChatEvent.turn] using hk'
      exact hk'' ▸ hfresh t ht
    · intro t' ht'
      rcases List.mem_append.mp ht' with ht' | ht'
      · exact ⟨(h.turns t' ht').other (.inr hblock),.inl ⟨t',ht',rfl⟩⟩
      · have hnew : t' = ⟨⟨e.member,e.turnId,[],0⟩,fun _ => none⟩ := by simpa using ht'
        subst hnew
        have hbefore : ∀ e' ∈ P, e'.turn ≠ (e.member,e.turnId) := fun e' he' =>
          (hP e' he').turnStart hbody
        have hempty (key : BlockKey) (b : BlockDraft) : ¬ BlockAt [] key b := by
          rintro ⟨s,hs,_⟩
          cases hs
        have hanchored : TurnAnchored P ⟨⟨e.member,e.turnId,[],0⟩,fun _ => none⟩ :=
          ⟨fun e' he' hturn => absurd hturn (hbefore e' he'),fun key b hb => absurd hb (hempty key b),fun _ => .inl rfl⟩
        exact ⟨hanchored.other (.inr hblock),.inr hbefore⟩

private theorem toolResult (h : Anchored P s) {toolId result : String} {status : ToolStatus}
    (hbody : e.body = .toolResult toolId status result) :
    Anchored (P ++ [e]) (reduceToolResult s toolId status result) := by
  refine h.extend (by simp [ChatEvent.aborts,hbody]) (keeps_reduceToolResult s toolId status result)
    ?_ (by simp [hbody]) (by simp [hbody]) (by simp [ChatEvent.closes,hbody]) ?_
  · have hkeys : (reduceToolResult s toolId status result).live.map LiveMemberTurn.key =
        s.live.map LiveMemberTurn.key := by
      simp only [reduceToolResult,List.map_map]
      exact List.map_congr_left fun t _ => rfl
    simpa [ChatState.Distinct,hkeys] using h.distinct
  · intro t' ht'
    obtain ⟨t,ht,rfl⟩ := List.mem_map.mp ht'
    exact ⟨((h.turns t ht).settle toolId status result).other
      (.inr (by simp [ChatEvent.blockOf,hbody])),.inl ⟨t,ht,rfl⟩⟩

private theorem closes (h : Anchored P s) (hcloses : e.closes = true) {interrupted : Bool}
    (hs : s'.shown = (closeKey s e.turn interrupted).shown) : Anchored (P ++ [e]) s' := by
  have hhist : s'.history = (closeKey s e.turn interrupted).history := congrArg Prod.fst hs
  have hviews : s'.memberHistory = (closeKey s e.turn interrupted).memberHistory :=
    congrArg (fun x => x.2.1) hs
  have hlive : s'.live = (closeKey s e.turn interrupted).live := congrArg (fun x => x.2.2) hs
  have hkind : e.aborts = false ∧ e.blockOf = none ∧
      (∀ member message seq, e.body ≠ .teamMessage member message seq) ∧
      ∀ member sender message, e.body ≠ .memberView member sender message := by
    rcases e with ⟨member,turnId,body⟩
    cases body <;> simp_all [ChatEvent.blockOf,ChatEvent.aborts,ChatEvent.closes]
    split at hcloses <;> simp_all
  refine h.extend hkind.1 ?_ ?_ ?_ ?_ ?_ ?_
  · rw [hhist,hviews]
    exact keeps_closeKey s e.turn interrupted
  · simpa [ChatState.Distinct,hlive] using closeKey_distinct h.distinct e.turn interrupted
  · exact fun member message seq hbody => absurd hbody (hkind.2.2.1 member message seq)
  · exact fun member sender message hbody => absurd hbody (hkind.2.2.2 member sender message)
  · intro _ t ht
    rw [hlive] at ht
    exact (mem_closeKey ht).2
  · intro t ht
    rw [hlive] at ht
    have hmem := (mem_closeKey ht).1
    exact ⟨(h.turns t hmem).other (.inr hkind.2.1),.inl ⟨t,hmem,rfl⟩⟩

private theorem cleared (P : List ChatEvent) (haborts : e.aborts = true) :
    Anchored (P ++ [e]) EMPTY_STATE where
  distinct := List.nodup_nil
  seqs e' he' := by
    rw [current_concat,haborts] at he'
    cases he'
  ids e' he' := by
    rw [current_concat,haborts] at he'
    cases he'
  nameless _ e he := by cases he
  closed _ _ _ t ht := by cases ht
  turns t ht := by cases ht

/-- One more frame of the single stream. -/
theorem frame (h : Anchored P s) (hP : ∀ e' ∈ P, ChatEvent.Follows e' e) (he : e.Addressed)
    (text : String) : Anchored (P ++ [e]) (reduceEvent s e text 1) := by
  simp only [reduceEvent]
  have hidle (hbody : e.blockOf = none ∧ e.aborts = false ∧ e.closes = false ∧
      (∀ member message seq, e.body ≠ .teamMessage member message seq) ∧
      ∀ member sender message, e.body ≠ .memberView member sender message) {s' : ChatState}
      (hs : s'.shown = s.shown) : Anchored (P ++ [e]) s' := by
    obtain ⟨hblock,haborts,hcloses,hteam,hview⟩ := hbody
    have hhist : s'.history = s.history := congrArg Prod.fst hs
    have hviews : s'.memberHistory = s.memberHistory := congrArg (fun x => x.2.1) hs
    refine h.idle (congrArg (fun x => x.2.2) hs) (by rw [hhist,hviews]; exact .refl _ _) hblock
      haborts hcloses hteam fun member sender message hbody => absurd hbody (hview _ _ _)
  cases hbody : e.body with
  | queued position =>
    exact hidle (by simp [ChatEvent.blockOf,ChatEvent.aborts,ChatEvent.closes,hbody]) rfl
  | teamMessage member message seq => exact h.teamMessage hbody
  | memberView member sender message =>
    exact h.memberView hbody (by simpa [ChatEvent.Addressed,hbody] using he)
  | turnStart => exact h.turnStart hP hbody (by simpa [ChatEvent.Addressed,hbody] using he)
  | blockStart step index type toolId name =>
    have hm : e.member ≠ "" := by simpa [ChatEvent.Addressed,hbody] using he
    have hstart : e.startOf = some (blockKey step index,blockStartDraft index type toolId name) := by
      simp [ChatEvent.startOf,hbody]
    simp only
    rw [onTurn_eq h.distinct hm]
    exact h.edit (ChatEvent.blockOf_of_startOf hstart).1 (fun _ => rfl)
      fun t ht hturn => ht.start hturn hstart
  | delta step index text =>
    have hm : e.member ≠ "" := by simpa [ChatEvent.Addressed,hbody] using he
    have hdelta : e.deltaOf = some (blockKey step index,text) := by simp [ChatEvent.deltaOf,hbody]
    simp only
    rw [onTurn_eq h.distinct hm]
    refine h.edit (ChatEvent.blockOf_of_deltaOf hdelta).1 (fun t => ?_) fun t ht hturn => ?_
    · rw [LiveMemberTurn.delta]
      split <;> rfl
    · rw [ht.delta_eq]
      exact ht.onBlock (ChatEvent.blockOf_of_deltaOf hdelta).2.1 (fun b => by simp) fun b hcall =>
        .inl (by simpa using hcall)
  | blockEnd step index block =>
    have hm : e.member ≠ "" := by simpa [ChatEvent.Addressed,hbody] using he
    have hend : e.endOf = some (blockKey step index,block) := by simp [ChatEvent.endOf,hbody]
    simp only
    rw [onTurn_eq h.distinct hm]
    exact h.edit (ChatEvent.blockOf_of_endOf hend).1 (fun _ => rfl)
      fun t ht hturn => ht.onBlock (ChatEvent.blockOf_of_endOf hend).2.1 (fun b => by simp)
        fun b hcall => (isToolCall_blockEndTerminal hcall).imp_right fun h => ⟨hturn,block,hend,h⟩
  | toolResult toolId status result => exact h.toolResult hbody
  | turnEnd status error =>
    have hm : e.member ≠ "" := by simpa [ChatEvent.Addressed,hbody] using he
    by_cases hcloses : e.closes = true
    · exact h.closes hcloses (reduceTurnEnd_shown h.distinct hm hbody hcloses)
    · cases status with
      | aborted => exact cleared P (by simp [ChatEvent.aborts,hbody])
      | unspecified =>
        exact hidle (by simp [ChatEvent.blockOf,ChatEvent.aborts,ChatEvent.closes,hbody]) rfl
      | completed => simp [ChatEvent.closes,hbody] at hcloses
      | error => simp [ChatEvent.closes,hbody] at hcloses
      | canceled => simp [ChatEvent.closes,hbody] at hcloses
  | unknown =>
    exact hidle (by simp [ChatEvent.blockOf,ChatEvent.aborts,ChatEvent.closes,hbody]) rfl

private theorem empty : Anchored [] EMPTY_STATE where
  distinct := List.nodup_nil
  seqs := by simp [current]
  ids := by simp [current]
  nameless _ e he := by cases he
  closed := by simp
  turns t ht := by cases ht

/-- The end of the newest stream. -/
theorem closePending (h : Anchored P s) (interrupted : Bool) :
    Anchored P (s.closePendingTurns interrupted) := by
  have hkeep := keeps_foldl_closed interrupted (s.live.map (·.toTurnDraft)) s.history s.memberHistory
  rw [closePendingTurns_eq h.distinct]
  exact {
    distinct := List.nodup_nil
    seqs := fun e he member message seq hbody hm =>
      hkeep.seqs seq (h.seqs e he member message seq hbody hm)
    ids := fun e he member sender message hbody hm hu =>
      hkeep.ids member _ (h.ids e he member sender message hbody hm hu)
    nameless := hkeep.nameless h.nameless
    closed := by simp
    turns := by simp }

end Anchored

/-- What a single stream lives through: the frames in order, and an end at which it projects the
turns that are still live. -/
inductive Shown
  | frame (event : ChatEvent)
  | ended
  deriving DecidableEq, Repr

def Shown.frame? : Shown → Option ChatEvent
  | .frame event => some event
  | .ended => none

def Shown.show (s : ChatState) : Shown → ChatState
  | .frame event => reduceEvent s event "" 1
  | .ended => s.closePendingTurns true

/-- The state of a client whose single stream lives through the script. -/
def single (script : List Shown) : ChatState :=
  script.foldl Shown.show EMPTY_STATE

theorem single_concat (script : List Shown) (x : Shown) :
    single (script ++ [x]) = Shown.show (single script) x := by
  simp [single]

/-- A single stream leaves the anchors of all its frames. -/
theorem anchored_single {script : List Shown} (h : Fanned (script.filterMap Shown.frame?)) :
    Anchored (script.filterMap Shown.frame?) (single script) := by
  induction script using List.reverseRecOn with
  | nil => exact Anchored.empty
  | append_singleton script x ih =>
    rw [single_concat]
    cases x with
    | frame event =>
      have hframes : (script ++ [Shown.frame event]).filterMap Shown.frame? =
          script.filterMap Shown.frame? ++ [event] := by simp [Shown.frame?]
      rw [hframes] at h ⊢
      have hparts := List.pairwise_append.mp h.ordered
      have hfirst := ih ⟨fun e he => h.addressed e (List.mem_append_left _ he),hparts.1⟩
      exact hfirst.frame (fun e he => hparts.2.2 e he event List.mem_cons_self)
        (h.addressed event (by simp)) ""
    | ended =>
      have hframes : (script ++ [Shown.ended]).filterMap Shown.frame? =
          script.filterMap Shown.frame? := by simp [Shown.frame?]
      rw [hframes] at h ⊢
      exact (ih h).closePending true

end Dominion.Web
