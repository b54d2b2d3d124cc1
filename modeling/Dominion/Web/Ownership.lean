import Dominion.Web.Scripts

/-! # Owners of blocks

How a frame changes the turns that are live, and which stream owns a block. -/
namespace Dominion.Web

open Dominion.Framework
open Dominion.Chat (ContentBlock HistoryMessage ToolStatus)

variable {s s' : ChatState} {e : ChatEvent} {k k' : String × String} {key key' : BlockKey}
  {i j p : Nat} {f : LiveMemberTurn → LiveMemberTurn}

/-! ### Turns -/

theorem isLive_of_owner (h : s.owner k key = some i) : s.isLive k = true := by
  by_contra hnot
  rw [owner_of_not_live (by simpa using hnot)] at h
  cases h

theorem isLive_reduceEvent (hn : s.Distinct) (he : e.Addressed) (text : String) (i p : Nat)
    (k : String × String) : (reduceEvent s e text i).isLive k =
      (s.isLive k && !Entry.stops k (.frame p e) || Entry.starts k (.frame p e)) := by
  rw [← isLive_view,← isLive_view]
  cases hdrops : s.drops i e with
  | false =>
    rw [view_reduceEvent hn he hdrops]
    exact View.isLive_after s.view (.frame p e) k
  | true =>
    rw [view_of_drops hn he hdrops]
    obtain ⟨member,turnId,body⟩ := e
    cases body with
    | delta step index text =>
      simp [Entry.stops,Entry.starts,Entry.shown,Shown.cuts,ChatEvent.closes,Entry.aborts,
        ChatEvent.aborts]
    | _ => cases hdrops

/-! ### Owners -/

private theorem claimBlock_apply (owners : BlockKey → Option Nat) (key : BlockKey) (i : Nat)
    (key' : BlockKey) : claimBlock owners key i key' =
      if key' = key then (owners key').or (some i) else owners key' := by
  rw [claimBlock]
  by_cases hkey : key' = key
  · subst hkey
    cases hown : owners key' <;> simp [hown]
  · split <;> simp [hkey]

private theorem owner_congr (h : s'.live.map (fun t => (t.key,t.owners)) =
    s.live.map fun t => (t.key,t.owners)) (k : String × String) (key : BlockKey) :
    s'.owner k key = s.owner k key := by
  have howner (s : ChatState) : s.owner k key =
      ((s.live.map fun t => (t.key,t.owners)).find? fun t => t.1 = k).bind fun t => t.2 key := by
    rw [ChatState.owner,List.find?_map]
    simp only [Function.comp_def]
    cases s.live.find? fun t => t.key = k <;> rfl
  rw [howner,howner,h]

/-- The turn of the key changed, and one of its blocks claimed. -/
theorem owner_editTurn (hf : ∀ t, (f t).key = t.key)
    (hown : ∀ t ∈ s.live, t.key = k' → (f t).owners = claimBlock t.owners key' i)
    (hlive : s'.live = editTurn k' f s.live) :
    s'.owner k key = if s.isLive k = true ∧ k' = k ∧ key' = key then (s.owner k key).or (some i)
      else s.owner k key := by
  have hfind : s'.live.find? (fun t => t.key = k) =
      (s.live.find? fun t => t.key = k).map fun t => if t.key = k' then f t else t := by
    rw [hlive,editTurn,List.find?_map]
    congr 2
    funext t
    simp only [Function.comp_apply]
    split
    · rw [hf]
    · rfl
  simp only [ChatState.owner,hfind]
  cases hturn : s.live.find? fun t => t.key = k with
  | none =>
    have hgone : s.isLive k = false := by simpa [ChatState.isLive] using hturn
    simp [hgone]
  | some t =>
    have hk : t.key = k := by simpa using List.find?_some hturn
    have hlive' : s.isLive k = true := isLive_iff.mpr ⟨t,List.mem_of_find?_eq_some hturn,hk⟩
    simp only [Option.map_some,Option.bind_some,hlive',true_and]
    by_cases hk' : k' = k
    · simp only [hk,hk'.symm,if_true,true_and]
      rw [hown t (List.mem_of_find?_eq_some hturn) (hk.trans hk'.symm),claimBlock_apply]
      by_cases hkey : key = key'
      · simp [hkey]
      · simp [hkey,Ne.symm hkey]
    · have hne : t.key ≠ k' := fun h => hk' (h.symm.trans hk)
      simp [hne,hk']

theorem owner_of_live (h : s'.live = s.live) (k : String × String) (key : BlockKey) :
    s'.owner k key = s.owner k key :=
  owner_congr (by rw [h]) k key

private theorem owner_consumeFixedStep (s : ChatState) (member : String) (k : String × String)
    (key : BlockKey) :
    ChatState.owner { s with live := consumeFixedStep s.live member } k key = s.owner k key := by
  refine owner_congr ?_ k key
  simp only [consumeFixedStep]
  split
  · rfl
  · rename_i n _
    refine List.ext_getElem? fun m => ?_
    simp only [List.getElem?_map,List.getElem?_modify]
    cases s.live[m]? with
    | none => rfl
    | some t =>
      simp only [Option.map_some]
      split <;> rfl

private theorem owner_concat (s : ChatState) (turn : TurnDraft) (k : String × String) (key : BlockKey) :
    ChatState.owner { s with live := s.live ++ [⟨turn,fun _ => none⟩] } k key = s.owner k key := by
  simp only [ChatState.owner,List.find?_append]
  cases hfind : s.live.find? fun t => t.key = k with
  | some t => rfl
  | none =>
    simp only [Option.none_or]
    cases hnew : List.find? (fun t => decide (t.key = k))
        [(⟨turn,fun _ => none⟩ : LiveMemberTurn)] with
    | none => rfl
    | some t =>
      have ht := List.mem_singleton.mp (List.mem_of_find?_eq_some hnew)
      rw [ht]
      rfl

private theorem owner_closeKey (hne : k ≠ k') (s : ChatState) (interrupted : Bool) :
    (closeKey s k' interrupted).owner k key = s.owner k key := by
  rw [closeKey]
  split
  · rfl
  · simp only [ChatState.owner,List.find?_filter]
    congr 2
    funext t
    by_cases hk : t.key = k
    · simp [hk,hne]
    · simp [hk]

/-- Only the stream that feeds a frame can become an owner by it. -/
theorem owner_reduceEvent (hn : s.Distinct) (he : e.Addressed) (text : String)
    (hlive : (reduceEvent s e text i).isLive k = true) :
    (reduceEvent s e text i).owner k key =
      if s.isLive k = true ∧ e.turn = k ∧ e.blockOf = some key then (s.owner k key).or (some i)
      else s.owner k key := by
  have hother (hblock : e.blockOf = none) (h : (reduceEvent s e text i).owner k key = s.owner k key) :
      (reduceEvent s e text i).owner k key =
        if s.isLive k = true ∧ e.turn = k ∧ e.blockOf = some key then (s.owner k key).or (some i)
        else s.owner k key := by
    rw [h]
    simp [hblock]
  have hturn (hm : e.member ≠ "") {key' : BlockKey} {f : LiveMemberTurn → LiveMemberTurn}
      (hevent : reduceEvent s e text i = onTurn s e f) (hblock : e.blockOf = some key')
      (hf : ∀ t, (f t).key = t.key)
      (hown : ∀ t ∈ s.live, t.key = e.turn → (f t).owners = claimBlock t.owners key' i) :
      (reduceEvent s e text i).owner k key =
        if s.isLive k = true ∧ e.turn = k ∧ e.blockOf = some key then (s.owner k key).or (some i)
        else s.owner k key := by
    rw [hevent,onTurn_eq hn hm,owner_editTurn (s := s) hf hown rfl,hblock]
    simp only [Option.some.injEq]
  obtain ⟨member,turnId,body⟩ := e
  cases body with
  | queued position => exact hother rfl rfl
  | teamMessage member' message seq =>
    refine hother rfl ?_
    simp only [reduceEvent,reduceTeamMessage]
    split
    · rfl
    · split
      · rfl
      · exact owner_consumeFixedStep s _ k key
  | memberView member' sender message =>
    refine hother rfl ?_
    simp only [reduceEvent,reduceMemberView]
    split <;> rfl
  | turnStart =>
    refine hother rfl ?_
    simp only [reduceEvent,reduceTurnStart,eventMember_of_member he]
    split
    · rfl
    · exact owner_concat s _ k key
  | blockStart step index type toolId name =>
    exact hturn he rfl rfl (fun _ => rfl) fun t _ _ => rfl
  | delta step index text' =>
    refine hturn he rfl rfl (fun t => ?_) fun t _ _ => ?_
    · simp only [LiveMemberTurn.delta]
      split <;> rfl
    · simp only [LiveMemberTurn.delta]
      split
      · rename_i hown
        rw [claimBlock,if_neg hown.1]
      · rfl
  | blockEnd step index block => exact hturn he rfl rfl (fun _ => rfl) fun t _ _ => rfl
  | toolResult toolId status result =>
    refine hother rfl (owner_congr ?_ k key)
    simp only [reduceEvent,reduceToolResult,List.map_map]
    rfl
  | turnEnd status error =>
    refine hother rfl ?_
    have hclose (hcloses : (⟨member,turnId,.turnEnd status error⟩ : ChatEvent).closes = true) :
        (reduceEvent s ⟨member,turnId,.turnEnd status error⟩ text i).owner k key =
          s.owner k key := by
      have hshown := congrArg (fun x => x.2.2) (reduceTurnEnd_shown hn he rfl hcloses)
      have hlive' : (reduceEvent s ⟨member,turnId,.turnEnd status error⟩ text i).live =
          (closeKey s (member,turnId)
            (ChatEvent.interrupts ⟨member,turnId,.turnEnd status error⟩)).live := hshown
      rw [owner_of_live hlive']
      have hne : k ≠ (member,turnId) := by
        rintro rfl
        obtain ⟨t,ht,hk⟩ := isLive_iff.mp hlive
        rw [hlive'] at ht
        exact (mem_closeKey ht).2 hk
      exact owner_closeKey hne s _
    cases status with
    | completed => exact hclose rfl
    | error => exact hclose rfl
    | canceled => exact hclose rfl
    | aborted => simp [reduceEvent,reduceTurnEnd,EMPTY_STATE,ChatState.isLive] at hlive
    | unspecified => rfl
  | unknown => exact hother rfl rfl

/-! ### The store -/

/-- A frame is fed to the reducer, with some text for the receipts. -/
theorem receive_state (store : ChatStore) (i : Nat) (consumed : Bool) (e : ChatEvent) :
    ∃ text, (store.receive i consumed e).state = reduceEvent store.state e text i := by
  rw [ChatStore.receive]
  split
  · exact ⟨_,rfl⟩
  · refine ⟨"",?_⟩
    cases consumed <;> rfl

theorem receive_nextStreamId (store : ChatStore) (i : Nat) (consumed : Bool) (e : ChatEvent) :
    (store.receive i consumed e).nextStreamId = store.nextStreamId := by
  rw [ChatStore.receive]
  split
  · rfl
  · cases consumed <;> rfl

theorem finish_nextStreamId (store : ChatStore) (i : Nat) (consumed : Bool)
    (error : Option String) : (store.finish i consumed error).nextStreamId = store.nextStreamId := by
  by_cases hactive : store.activeStreamId = i <;> cases consumed <;> cases error <;>
    simp [ChatStore.finish,ChatStore.consumeSendText,ChatStore.releaseStreamOwnership,hactive]

end Dominion.Web
