import Dominion.Web.SingleStream

/-! # What a client shows

The messages and the drafts of a session, without the streams that feed them: what each frame does
to them, and what they are without the texts of some blocks. -/
namespace Dominion.Web

open Dominion.Framework
open Dominion.Chat (ContentBlock HistoryMessage ToolStatus)

/-! ### Frames of a block -/

namespace ChatEvent

/-- What the frame of a block does to the steps of its turn. -/
def edit (e : ChatEvent) (steps : List StepDraft) : List StepDraft :=
  match e.body with
  | .blockStart step index type toolId name =>
    appendBlockStart steps (eventStep step) (blockStartDraft index type toolId name)
  | .delta step index text => mapStepBlocks steps (eventStep step) index fun b => b.append text
  | .blockEnd step index block =>
    mapStepBlocks steps (eventStep step) index fun b => blockEndTerminal b block
  | _ => steps

variable {e : ChatEvent} {key : BlockKey}

theorem edit_startOf {draft : BlockDraft} (h : e.startOf = some (key,draft))
    (steps : List StepDraft) : e.edit steps = appendBlockStart steps key.1 draft := by
  rcases e with ⟨member,turnId,body⟩
  cases body <;> simp only [startOf,reduceCtorEq] at h
  obtain ⟨rfl,rfl⟩ := Prod.mk.inj (Option.some.inj h)
  rfl

theorem edit_deltaOf {text : String} (h : e.deltaOf = some (key,text)) (steps : List StepDraft) :
    e.edit steps = mapBlocks (atBlock key fun b => b.append text) steps := by
  rcases e with ⟨member,turnId,body⟩
  cases body <;> simp only [deltaOf,reduceCtorEq] at h
  obtain ⟨rfl,rfl⟩ := Prod.mk.inj (Option.some.inj h)
  exact mapStepBlocks_eq steps (blockKey _ _) _

theorem edit_endOf {block : ContentBlock} (h : e.endOf = some (key,block))
    (steps : List StepDraft) :
    e.edit steps = mapBlocks (atBlock key fun b => blockEndTerminal b block) steps := by
  rcases e with ⟨member,turnId,body⟩
  cases body <;> simp only [endOf,reduceCtorEq] at h
  obtain ⟨rfl,rfl⟩ := Prod.mk.inj (Option.some.inj h)
  exact mapStepBlocks_eq steps (blockKey _ _) _

/-- A frame of a block starts it, adds to it or ends it. -/
theorem block_cases (h : e.blockOf = some key) : (∃ draft, e.startOf = some (key,draft)) ∨
    (∃ text, e.deltaOf = some (key,text)) ∨ ∃ block, e.endOf = some (key,block) := by
  rcases e with ⟨member,turnId,body⟩
  cases body <;> simp_all [blockOf,startOf,deltaOf,endOf]

/-- A frame that starts no block changes the one that it is about. -/
theorem edit_of_startless (h : e.blockOf = some key) (hstart : e.startOf = none) :
    ∃ f : BlockDraft → BlockDraft, (∀ b, (f b).index = b.index) ∧
      ∀ steps, e.edit steps = mapBlocks (atBlock key f) steps := by
  rcases block_cases h with ⟨draft,hd⟩ | ⟨text,hdelta⟩ | ⟨block,hend⟩
  · rw [hstart] at hd
    cases hd
  · exact ⟨_,fun b => by simp,edit_deltaOf hdelta⟩
  · exact ⟨_,fun b => by simp,edit_endOf hend⟩

end ChatEvent

/-! ### Views -/

/-- What a client shows. -/
structure View where
  history : List TeamMessageEntry := []
  memberHistory : String → List MemberViewEntry := fun _ => []
  live : List TurnDraft := []

def ChatState.view (s : ChatState) : View :=
  ⟨s.history,s.memberHistory,s.live.map (·.toTurnDraft)⟩

/-- The draft of the turn of the key, its steps changed. -/
def editDraft (k : String × String) (f : List StepDraft → List StepDraft) (t : TurnDraft) :
    TurnDraft :=
  if t.key = k then { t with steps := f t.steps } else t

def TurnDraft.settle (toolId : String) (status : ToolStatus) (result : String) (t : TurnDraft) :
    TurnDraft :=
  { t with steps := settleSteps toolId status result t.steps }

/-- A step of the member is no draft any more. -/
def consumeDrafts (member : String) (live : List TurnDraft) : List TurnDraft :=
  match live.findIdx? fun t => t.member = member ∧ t.fixedSteps < t.steps.length with
  | none => live
  | some index =>
    live.modify index fun t => { t with fixedSteps := min (t.fixedSteps + 1) t.steps.length }

namespace View

/-- A turn of the key is live. -/
def isLive (v : View) (k : String × String) : Bool :=
  v.live.any fun t => t.key = k

/-- All live drafts changed. -/
def mapLive (f : TurnDraft → TurnDraft) (v : View) : View :=
  { v with live := v.live.map f }

def teamMessage (v : View) (member : String) (message : HistoryMessage) (seq : Int) : View :=
  if member = "" then v
  else if v.history.any (fun e => !e.projected && e.seq == seq) then v
  else
    let isOpen := member != USER_MEMBER && v.live.any fun t => t.member == member
    { history :=
        match v.history.findIdx? fun e => e.projected && e.member == member with
        | some i => v.history.set i ⟨member,message,seq,false,false⟩
        | none => insertBySeq v.history ⟨member,message,seq,false,isOpen⟩
      memberHistory :=
        if member = USER_MEMBER then v.memberHistory
        else appendMemberView v.memberHistory member message isOpen
      live := consumeDrafts member v.live }

def memberView (v : View) (member sender : String) (message : HistoryMessage) : View :=
  if member = "" ∨ member = USER_MEMBER then v
  else { v with memberHistory := appendMemberInputView v.memberHistory member message sender }

def turnStart (v : View) (k : String × String) : View :=
  if v.live.any fun t => t.key = k then v
  else { v with live := v.live ++ [⟨k.1,k.2,[],0⟩] }

def settle (v : View) (toolId : String) (status : ToolStatus) (result : String) : View where
  history := v.history.map (settleHistoryEntry toolId status result)
  memberHistory := settleMemberHistory toolId status result v.memberHistory
  live := v.live.map (TurnDraft.settle toolId status result)

/-- The turn of the key closed, if it is live. -/
def close (v : View) (k : String × String) (interrupted : Bool) : View :=
  match v.live.find? fun t => t.key = k with
  | none => v
  | some t =>
    { history := closedHistory interrupted v.history t
      memberHistory := closedViews interrupted v.memberHistory t
      live := v.live.filter fun t => t.key ≠ k }

/-- All live turns closed. -/
def closeAll (v : View) (interrupted : Bool) : View where
  history := v.live.foldl (closedHistory interrupted) v.history
  memberHistory := v.live.foldl (closedViews interrupted) v.memberHistory
  live := []

/-- What a client shows after the frame. -/
def apply (v : View) (e : ChatEvent) : View :=
  match e.body with
  | .queued _ => v
  | .teamMessage member message seq => v.teamMessage member message seq
  | .memberView member sender message => v.memberView member sender message
  | .turnStart => v.turnStart e.turn
  | .blockStart _ _ _ _ _ => v.mapLive (editDraft e.turn e.edit)
  | .delta _ _ _ => v.mapLive (editDraft e.turn e.edit)
  | .blockEnd _ _ _ => v.mapLive (editDraft e.turn e.edit)
  | .toolResult toolId status result => v.settle toolId status result
  | .turnEnd .completed _ => v.close e.turn false
  | .turnEnd .error _ => v.close e.turn true
  | .turnEnd .canceled _ => v.close e.turn true
  | .turnEnd .aborted _ => {}
  | .turnEnd .unspecified _ => v
  | .unknown => v

/-- What a client shows after one more entry of its script. -/
def after (v : View) : Shown → View
  | .frame e => v.apply e
  | .ended => v.closeAll true

def run (script : List Shown) : View :=
  script.foldl View.after {}

theorem run_concat (script : List Shown) (y : Shown) : run (script ++ [y]) = (run script).after y := by
  simp [run]

theorem apply_block {v : View} {e : ChatEvent} {key : BlockKey} (h : e.blockOf = some key) :
    v.apply e = v.mapLive (editDraft e.turn e.edit) := by
  rcases e with ⟨member,turnId,body⟩
  cases body <;> first | rfl | cases h

theorem apply_closes {v : View} {e : ChatEvent} (h : e.closes = true) :
    v.apply e = v.close e.turn e.interrupts := by
  rcases e with ⟨member,turnId,body⟩
  cases body <;> simp only [ChatEvent.closes,Bool.false_eq_true] at h
  rename_i status error
  cases status <;> first | rfl | cases h

theorem apply_aborts {v : View} {e : ChatEvent} (h : e.aborts = true) : v.apply e = {} := by
  rcases e with ⟨member,turnId,body⟩
  cases body <;> simp only [ChatEvent.aborts,Bool.false_eq_true] at h
  rename_i status error
  cases status <;> first | rfl | cases h

end View

/-! ### The store and its view -/

namespace ChatState

/-- The turn of the key is live. -/
def isLive (s : ChatState) (k : String × String) : Bool :=
  s.live.any fun t => t.key = k

/-- The stream that owns the block of a live turn. -/
def owner (s : ChatState) (k : String × String) (key : BlockKey) : Option Nat :=
  (s.live.find? fun t => t.key = k).bind fun t => t.owners key

/-- The frame is a delta of a block that another stream owns. -/
def drops (s : ChatState) (i : Nat) (e : ChatEvent) : Bool :=
  match e.deltaOf with
  | none => false
  | some (key,_) => s.owner e.turn key ≠ none ∧ s.owner e.turn key ≠ some i

end ChatState

variable {s s' : ChatState} {e : ChatEvent} {k : String × String} {key : BlockKey} {i : Nat}

theorem isLive_iff : s.isLive k = true ↔ ∃ t ∈ s.live, t.key = k := by
  simp [ChatState.isLive]

theorem isLive_view : s.view.isLive k = s.isLive k := by
  simp only [ChatState.isLive,View.isLive,ChatState.view,List.any_map]
  rfl

/-- A live turn is the only one of its key. -/
theorem owner_of_mem (hn : s.Distinct) {t : LiveMemberTurn} (ht : t ∈ s.live) (key : BlockKey) :
    s.owner t.key key = t.owners key := by
  have hfind : (s.live.find? fun t' => t'.key = t.key) = some t := by
    unfold ChatState.Distinct at hn
    revert hn ht
    generalize s.live = live
    intro hn ht
    induction live with
    | nil => cases ht
    | cons t' live ih =>
      simp only [List.map_cons,List.nodup_cons] at hn
      rcases List.mem_cons.mp ht with rfl | ht
      · simp
      · have hne : t'.key ≠ t.key := fun he => hn.1 (he ▸ List.mem_map_of_mem ht)
        simp [hne,ih hn.2 ht]
  simp only [ChatState.owner,hfind,Option.bind_some]

theorem owner_of_not_live (h : s.isLive k = false) (key : BlockKey) : s.owner k key = none := by
  have hnone : (s.live.find? fun t => t.key = k) = none := by
    simpa [ChatState.isLive] using h
  simp [ChatState.owner,hnone]

theorem view_of_shown (h : s'.shown = s.shown) : s'.view = s.view := by
  have hhistory : s'.history = s.history := congrArg Prod.fst h
  have hviews : s'.memberHistory = s.memberHistory := congrArg (fun x => x.2.1) h
  have hlive : s'.live = s.live := congrArg (fun x => x.2.2) h
  simp only [ChatState.view,hhistory,hviews,hlive]

private theorem view_reduceTeamMessage (member : String) (message : HistoryMessage) (seq : Int) :
    (reduceTeamMessage s member message seq).view = s.view.teamMessage member message seq := by
  have hany : (s.live.any fun t => t.member == member) =
      s.view.live.any fun t => t.member == member := by
    simp only [ChatState.view,List.any_map]
    rfl
  have hconsume : (consumeFixedStep s.live member).map (·.toTurnDraft) =
      consumeDrafts member s.view.live := by
    have hfind : (s.view.live.findIdx? fun t => t.member = member ∧ t.fixedSteps < t.steps.length) =
        s.live.findIdx? fun t => t.member = member ∧ t.fixedSteps < t.steps.length := by
      simp [ChatState.view,Function.comp_def]
    rw [consumeFixedStep,consumeDrafts,hfind]
    cases s.live.findIdx? fun t => t.member = member ∧ t.fixedSteps < t.steps.length with
    | none => rfl
    | some j => exact map_modify s.live j fun _ _ => rfl
  simp only [reduceTeamMessage,View.teamMessage,hany]
  split
  · rfl
  · by_cases hseq : s.history.any (fun e => !e.projected && e.seq == seq) = true
    · have hseq' : s.view.history.any (fun e => !e.projected && e.seq == seq) = true := hseq
      rw [if_pos hseq,if_pos hseq']
    · have hseq' : ¬s.view.history.any (fun e => !e.projected && e.seq == seq) = true := hseq
      rw [if_neg hseq,if_neg hseq',← hconsume]
      rfl

private theorem view_reduceMemberView (member sender : String) (message : HistoryMessage) :
    (reduceMemberView s member sender message).view = s.view.memberView member sender message := by
  simp only [reduceMemberView,View.memberView]
  split <;> rfl

private theorem view_reduceTurnStart (hm : e.member ≠ "") :
    (reduceTurnStart s e).view = s.view.turnStart e.turn := by
  have hfind : (findLiveTurn s (some e.member) e.turnId).isSome =
      s.view.live.any fun t => t.key = e.turn := by
    refine Eq.trans ?_ isLive_view.symm
    rw [findLiveTurn_some,placeOf]
    simp only [ChatState.isLive,List.findIdx?_isSome,ChatEvent.turn]
    rfl
  simp only [reduceTurnStart,eventMember_of_member hm,hfind,View.turnStart]
  split
  · rfl
  · simp [ChatState.view,ChatEvent.turn]

private theorem view_reduceToolResult (toolId : String) (status : ToolStatus) (result : String) :
    (reduceToolResult s toolId status result).view = s.view.settle toolId status result := by
  simp only [reduceToolResult,ChatState.view,View.settle,List.map_map]
  rfl

private theorem view_closeKey (interrupted : Bool) :
    (closeKey s k interrupted).view = s.view.close k interrupted := by
  have hfind : (s.view.live.find? fun t => t.key = k) =
      (s.live.find? fun t => t.key = k).map (·.toTurnDraft) := by
    rw [ChatState.view,List.find?_map]
    rfl
  simp only [closeKey,View.close,hfind]
  cases s.live.find? fun t => t.key = k with
  | none => rfl
  | some t =>
    simp only [ChatState.view,Option.map_some,List.filter_map]
    rfl

theorem view_closePendingTurns (hn : s.Distinct) (interrupted : Bool) :
    (s.closePendingTurns interrupted).view = s.view.closeAll interrupted := by
  rw [closePendingTurns_eq hn]
  rfl

/-- A frame of a block that its turn takes. -/
theorem view_onTurn (hn : s.Distinct) (hm : e.member ≠ "") {f : LiveMemberTurn → LiveMemberTurn}
    (hf : ∀ t ∈ s.live, t.key = e.turn →
      (f t).toTurnDraft = { t.toTurnDraft with steps := e.edit t.steps }) :
    (onTurn s e f).view = s.view.mapLive (editDraft e.turn e.edit) := by
  rw [onTurn_eq hn hm]
  simp only [ChatState.view,View.mapLive,editTurn,List.map_map]
  congr 1
  refine List.map_congr_left fun t ht => ?_
  have hkey : t.toTurnDraft.key = t.key := rfl
  by_cases hk : t.key = e.turn
  · simp [editDraft,hkey,hk,hf t ht hk]
  · simp [editDraft,hkey,hk]

private theorem delta_of_taken {t : LiveMemberTurn} {text : String}
    (h : ¬(t.owners key ≠ none ∧ t.owners key ≠ some i)) :
    t.delta key text i = t.onBlock key (fun b => b.append text) i :=
  if_neg h

/-- A frame that the store takes shows what it shows by itself. -/
theorem view_reduceEvent (hn : s.Distinct) (he : e.Addressed) (htaken : s.drops i e = false)
    (text : String) : (reduceEvent s e text i).view = s.view.apply e := by
  obtain ⟨member,turnId,body⟩ := e
  cases body with
  | queued position => rfl
  | teamMessage member message seq => exact view_reduceTeamMessage member message seq
  | memberView member sender message => exact view_reduceMemberView member sender message
  | turnStart => exact view_reduceTurnStart he
  | blockStart step index type toolId name => exact view_onTurn hn he fun t _ _ => rfl
  | delta step index text' =>
    refine view_onTurn hn he fun t ht hk => ?_
    have hown := owner_of_mem hn ht (blockKey step index)
    rw [hk] at hown
    have hfree : ¬(t.owners (blockKey step index) ≠ none ∧
        t.owners (blockKey step index) ≠ some i) := by
      simpa [ChatState.drops,ChatEvent.deltaOf,hown] using htaken
    rw [delta_of_taken hfree]
    rfl
  | blockEnd step index block => exact view_onTurn hn he fun t _ _ => rfl
  | toolResult toolId status result => exact view_reduceToolResult toolId status result
  | turnEnd status error =>
    have hclose (hcloses : (⟨member,turnId,.turnEnd status error⟩ : ChatEvent).closes = true) :
        (reduceTurnEnd s ⟨member,turnId,.turnEnd status error⟩ status error).view =
          s.view.apply ⟨member,turnId,.turnEnd status error⟩ := by
      rw [View.apply_closes hcloses,← view_closeKey]
      exact view_of_shown (reduceTurnEnd_shown hn he rfl hcloses)
    cases status with
    | completed => exact hclose rfl
    | error => exact hclose rfl
    | canceled => exact hclose rfl
    | aborted => rfl
    | unspecified => rfl
  | unknown => rfl

/-- A delta of a block that another stream owns shows nothing. -/
theorem view_of_drops (hn : s.Distinct) (he : e.Addressed) (hdrops : s.drops i e = true)
    (text : String) : (reduceEvent s e text i).view = s.view := by
  obtain ⟨member,turnId,body⟩ := e
  cases body with
  | delta step index text' =>
    have hdrops : s.owner (member,turnId) (blockKey step index) ≠ none ∧
        s.owner (member,turnId) (blockKey step index) ≠ some i := of_decide_eq_true hdrops
    have hkeep : editTurn (member,turnId) (.delta (blockKey step index) text' i) s.live = s.live := by
      refine (List.map_congr_left fun t ht => ?_).trans (List.map_id' _)
      by_cases hk : t.key = (member,turnId)
      · have hown := owner_of_mem hn ht (blockKey step index)
        rw [hk] at hown
        rw [hown] at hdrops
        simp only [hk,if_true,LiveMemberTurn.delta,if_pos hdrops]
      · simp [hk]
    have hsame := onTurn_eq hn he (.delta (blockKey step index) text' i)
    rw [ChatEvent.turn,hkeep] at hsame
    exact congrArg ChatState.view hsame
  | _ => cases hdrops

/-- The view of a single stream follows its script. -/
theorem view_single {script : List Shown} (h : Fanned (script.filterMap Shown.frame?)) :
    (single script).view = View.run script := by
  induction script using List.reverseRecOn with
  | nil => rfl
  | append_singleton script y ih =>
    have hparts : (script ++ [y]).filterMap Shown.frame? =
        script.filterMap Shown.frame? ++ [y].filterMap Shown.frame? := List.filterMap_append
    rw [hparts] at h
    have hfirst : Fanned (script.filterMap Shown.frame?) :=
      ⟨fun e he => h.addressed e (List.mem_append_left _ he),(List.pairwise_append.mp h.ordered).1⟩
    have hanchored := anchored_single hfirst
    rw [single_concat,View.run_concat,← ih hfirst]
    cases y with
    | ended => exact view_closePendingTurns hanchored.distinct true
    | frame e =>
      refine view_reduceEvent hanchored.distinct (h.addressed e (by simp [Shown.frame?])) ?_ ""
      have hfree (k : String × String) (key : BlockKey) :
          (single script).owner k key = none ∨ (single script).owner k key = some 1 := by
        unfold ChatState.owner
        cases hfind : (single script).live.find? fun t => t.key = k with
        | none => exact .inl rfl
        | some t => exact (hanchored.turns t (List.mem_of_find?_eq_some hfind)).own key
      unfold ChatState.drops
      split
      · rfl
      · rename_i key text _
        rcases hfree e.turn key with hown | hown <;> simp [hown]

end Dominion.Web
