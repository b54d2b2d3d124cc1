import Dominion.Framework.Lts
import Dominion.Web.Ownership
import Mathlib.Data.List.InsertIdx
import Mathlib.Data.List.Perm.Basic

/-! # The chips of the queued messages

A receipt names no text: the store pairs it with the oldest text that no stream has taken yet. -/
namespace Dominion.Web

open Dominion.Framework
open Dominion.Chat (ContentBlock HistoryMessage ToolStatus)

/-! ### The queue of a state -/

namespace ChatEvent

def isReceipt (e : ChatEvent) : Bool :=
  match e.body with
  | .queued _ => true
  | _ => false

/-- A member takes up a message of the user. -/
def consumes (e : ChatEvent) : Bool :=
  match e.body with
  | .memberView _ sender _ => sender == "user"
  | _ => false

/-- The server drops the queue. -/
def clears (e : ChatEvent) : Bool :=
  match e.body with
  | .turnEnd .canceled _ => true
  | .turnEnd .aborted _ => true
  | _ => false

end ChatEvent

private theorem queue_closeLiveTurn (s : ChatState) (i : Nat) (interrupted : Bool) :
    (closeLiveTurn s i interrupted).queue = s.queue := by
  unfold closeLiveTurn
  cases s.live[i]? with
  | none => rfl
  | some turn =>
    dsimp only
    split_ifs <;> rfl

private theorem queue_closeFound (s : ChatState) (i : Option Nat) (interrupted : Bool) :
    (closeFound s i interrupted).queue = s.queue := by
  cases i with
  | none => rfl
  | some i => exact queue_closeLiveTurn s i interrupted

private theorem queue_closePending (s : ChatState) (interrupted : Bool) :
    (s.closePendingTurns interrupted).queue = s.queue := by
  unfold ChatState.closePendingTurns
  generalize s.live = turns
  induction turns generalizing s with
  | nil => rfl
  | cons turn turns ih =>
    rw [List.foldl_cons,ih]
    exact queue_closeFound s _ interrupted

private theorem queue_onTurn (s : ChatState) (e : ChatEvent) (f : LiveMemberTurn → LiveMemberTurn) :
    (onTurn s e f).queue = s.queue := by
  unfold onTurn
  cases findLiveTurn s (eventMember s e) e.turnId with
  | none => rfl
  | some i => rfl

/-- Most frames leave the queue alone. -/
theorem queue_reduceEvent (s : ChatState) {e : ChatEvent} (text : String) (streamId : Nat)
    (hreceipt : e.isReceipt = false) (hconsumes : e.consumes = false) :
    (reduceEvent s e text streamId).queue = if e.clears then [] else s.queue := by
  obtain ⟨member,turnId,body⟩ := e
  cases body with
  | queued position => cases hreceipt
  | teamMessage member message seq =>
    simp only [reduceEvent,reduceTeamMessage,ChatEvent.clears,Bool.false_eq_true,if_false]
    split_ifs <;> rfl
  | memberView member sender message =>
    have hsender : ¬sender = "user" := by simpa [ChatEvent.consumes] using hconsumes
    simp only [reduceEvent,reduceMemberView,ChatEvent.clears,if_neg hsender,Bool.false_eq_true,
      if_false]
    split_ifs <;> rfl
  | turnStart =>
    simp only [reduceEvent,reduceTurnStart,ChatEvent.clears,Bool.false_eq_true,if_false]
    split
    · rfl
    · split_ifs <;> rfl
  | blockStart step index type toolId name => exact queue_onTurn s _ _
  | delta step index text => exact queue_onTurn s _ _
  | blockEnd step index block => exact queue_onTurn s _ _
  | toolResult toolId status result => rfl
  | turnEnd status error =>
    cases status with
    | unspecified => rfl
    | completed => exact queue_closeFound s _ false
    | error => exact queue_closeFound s _ true
    | aborted => rfl
    | canceled => rfl
  | unknown => rfl

/-! ### The session -/

/-- The store, and what its streams are about. -/
structure QueueSession where
  store : ChatStore := {}
  /-- The text that each stream was opened with. -/
  sent : Nat → String := fun _ => ""
  /-- The streams that have not ended, and whether they have had their first frame. -/
  streams : Nat → Option Bool := fun _ => none
  /-- The streams without a first frame, in the order they were opened. -/
  waiting : List Nat := []
  /-- The stream whose receipt made each chip. -/
  origins : List Nat := []
  /-- The streams whose message is queued and not taken up. -/
  outstanding : List Nat := []
  /-- The streams whose message was taken up. -/
  done : List Nat := []

inductive QueueAction
  | send (text : String)
  /-- The first frame of the stream says that its message is queued. -/
  | receipt (streamId : Nat) (position : Int)
  /-- Another frame of the stream. -/
  | frame (streamId : Nat) (event : ChatEvent)
  /-- The stream `streamId` reports that a member has taken up the message of the stream `of`. -/
  | consume (streamId of : Nat) (event : ChatEvent)
  | finish (streamId : Nat) (error : Option String)

/-- The frame carries the text as the input of a member. -/
def Carries (event : ChatEvent) (text : String) : Prop :=
  match event.body with
  | .memberView member sender message => member ≠ "" ∧ member ≠ USER_MEMBER ∧ sender = "user" ∧
      (message.blocks.findSome? ContentBlock.text?).getD "" = text
  | _ => False

instance (event : ChatEvent) (text : String) : Decidable (Carries event text) := by
  unfold Carries
  split <;> infer_instance

namespace QueueSession

/-- The stream has had its first frame. -/
def answer (x : QueueSession) (i : Nat) : QueueSession :=
  { x with
    streams := Function.update x.streams i (some true)
    waiting := x.waiting.filter fun j => j ≠ i }

def step (x : QueueSession) : QueueAction → Option QueueSession
  | .send text =>
    let i := x.store.nextStreamId + 1
    some { x with
      store := x.store.send text
      sent := Function.update x.sent i text
      streams := Function.update x.streams i (some false)
      waiting := x.waiting ++ [i] }
  | .receipt i position =>
    if x.streams i = some false then
      some { x.answer i with
        store := x.store.receive i false ⟨"","",.queued position⟩
        origins := x.origins ++ [i]
        outstanding := if i ∈ x.done then x.outstanding else x.outstanding ++ [i] }
    else none
  | .frame i event =>
    match x.streams i with
    | none => none
    | some consumed =>
      if event.isReceipt ∨ event.consumes then none
      else
        some { x.answer i with
          store := x.store.receive i consumed event
          origins := if event.clears then [] else x.origins
          outstanding := if event.clears then [] else x.outstanding }
  | .consume i of event =>
    match x.streams i with
    | none => none
    | some consumed =>
      if Carries event (x.sent of) ∧ of ∉ x.done ∧ 0 < of ∧ of ≤ x.store.nextStreamId then
        some { x.answer i with
          store := x.store.receive i consumed event
          origins :=
            match x.store.state.queue.findIdx? fun q => q.text = x.sent of with
            | none => x.origins
            | some place => x.origins.eraseIdx place
          outstanding := x.outstanding.erase of
          done := of :: x.done }
      else none
  | .finish i error =>
    match x.streams i with
    | none => none
    | some consumed =>
      some { x.answer i with
        store := x.store.finish i consumed error
        streams := Function.update x.streams i none }

/-- Every chip carries the text of the stream whose receipt made it. -/
def Belong (x : QueueSession) : Prop :=
  x.store.state.queue.map QueuedMsg.text = x.origins.map x.sent

/-- When all queued messages were taken up, no chip is left. -/
def Settled (x : QueueSession) : Prop :=
  x.outstanding = [] → x.store.state.queue = []

/-- The streams get their first frame, or end, in the order they were opened, and a message is taken
up when its own stream has had its first frame: its receipt, if it was queued. -/
def Orderly (x : QueueSession) : QueueAction → Prop
  | .send _ => True
  | .receipt i _ => x.waiting.head? = some i
  | .frame i _ => x.streams i = some false → x.waiting.head? = some i
  | .consume i of _ => (x.streams i = some false → x.waiting.head? = some i) ∧
      (of = i ∨ of ∉ x.waiting)
  | .finish i _ => x.streams i = some false → x.waiting.head? = some i

end QueueSession

def queueSession : Lts QueueSession QueueAction where
  init x := x = {}
  step := QueueSession.step

/-! ### The store and its texts -/

private theorem sendTexts_receive (store : ChatStore) (i : Nat) (consumed : Bool) (e : ChatEvent)
    (hreceipt : e.isReceipt = true → consumed = false) :
    (store.receive i consumed e).sendTexts =
      if consumed then store.sendTexts else store.sendTexts.tail := by
  obtain ⟨member,turnId,body⟩ := e
  cases body with
  | queued position =>
    cases hreceipt rfl
    rfl
  | _ => cases consumed <;> rfl

private theorem state_receive (store : ChatStore) (i : Nat) (consumed : Bool) {e : ChatEvent}
    (hreceipt : e.isReceipt = false) :
    (store.receive i consumed e).state = reduceEvent store.state e "" i := by
  obtain ⟨member,turnId,body⟩ := e
  cases body with
  | queued position => cases hreceipt
  | _ => cases consumed <;> rfl

private theorem sendTexts_finish (store : ChatStore) (i : Nat) (consumed : Bool)
    (error : Option String) : (store.finish i consumed error).sendTexts =
      if consumed then store.sendTexts else store.sendTexts.tail := by
  by_cases hactive : store.activeStreamId = i <;> cases consumed <;> cases error <;>
    simp [ChatStore.finish,ChatStore.consumeSendText,ChatStore.releaseStreamOwnership,hactive]

private theorem queue_finish (store : ChatStore) (i : Nat) (consumed : Bool)
    (error : Option String) :
    (store.finish i consumed error).state.queue = store.state.queue := by
  by_cases hactive : store.activeStreamId = i <;> cases consumed <;> cases error <;>
    simp [ChatStore.finish,ChatStore.consumeSendText,ChatStore.releaseStreamOwnership,hactive,
      queue_closePending]

/-! ### Every run -/

/-- The store knows the texts of the waiting streams, in their order, and the chips are those of
outstanding messages: all of them, but for a text that was taken up twice. -/
structure Paired (x : QueueSession) : Prop where
  texts : x.store.sendTexts = x.waiting.map x.sent
  waits : ∀ i, i ∈ x.waiting ↔ x.streams i = some false
  once : x.waiting.Nodup
  opened : ∀ i, x.streams i ≠ none → i ≤ x.store.nextStreamId
  chips : x.store.state.queue.map QueuedMsg.text = x.origins.map x.sent
  made : ∀ i ∈ x.origins, i ≤ x.store.nextStreamId
  /-- A message that was queued or taken up is of a stream that has had its receipt. -/
  heard : ∀ i, i ∈ x.outstanding ∨ i ∈ x.done → i ≤ x.store.nextStreamId ∧ i ∉ x.waiting
  owed : (x.origins.map x.sent).Subperm (x.outstanding.map x.sent)

namespace Paired

variable {x y : QueueSession} {i : Nat} {consumed : Bool}

private theorem belong (h : Paired x) : x.Belong := h.chips

private theorem settled (h : Paired x) : x.Settled := by
  intro hnone
  have howed := h.owed
  rw [hnone,List.map_nil,List.subperm_nil] at howed
  have hchips := h.chips
  rw [howed,List.map_eq_nil_iff] at hchips
  exact hchips

private theorem map_update {ids : List Nat} {sent : Nat → String} {text : String} {n : Nat}
    (hids : ∀ j ∈ ids, j ≤ n) :
    ids.map (Function.update sent (n + 1) text) = ids.map sent := by
  apply List.map_congr_left
  intro j hj
  apply Function.update_of_ne
  have hle := hids j hj
  omega

private theorem waiting_le (h : Paired x) : ∀ j ∈ x.waiting, j ≤ x.store.nextStreamId := by
  intro j hj
  apply h.opened
  rw [(h.waits j).mp hj]
  simp

private theorem send (h : Paired x) (text : String) (hstep : x.step (.send text) = some y) :
    Paired y := by
  cases hstep
  have hfresh : x.store.nextStreamId + 1 ∉ x.waiting := by
    intro hmem
    have hle := h.waiting_le _ hmem
    omega
  constructor
  · change x.store.sendTexts ++ [text] = _
    rw [h.texts,List.map_append,map_update h.waiting_le]
    simp
  · intro j
    by_cases hj : j = x.store.nextStreamId + 1
    · simp [hj]
    · simp [hj,h.waits j]
  · exact List.nodup_append.mpr ⟨h.once,by simp,fun a ha b hb hab => by
      rw [List.mem_singleton.mp hb] at hab
      exact hfresh (hab ▸ ha)⟩
  · intro j hj
    by_cases hnew : j = x.store.nextStreamId + 1
    · exact Nat.le_of_eq hnew
    · simp only [Function.update_of_ne hnew] at hj
      exact Nat.le_succ_of_le (h.opened j hj)
  · change x.store.state.queue.map QueuedMsg.text = _
    rw [map_update h.made]
    exact h.chips
  · exact fun j hj => Nat.le_succ_of_le (h.made j hj)
  · intro j hj
    obtain ⟨hle,habsent⟩ := h.heard j hj
    refine ⟨Nat.le_succ_of_le hle,fun hmem => ?_⟩
    rcases List.mem_append.mp hmem with hmem | hmem
    · exact habsent hmem
    · have hnew : j = x.store.nextStreamId + 1 := List.mem_singleton.mp hmem
      omega
  · rw [map_update h.made,map_update fun j hj => (h.heard j (.inl hj)).1]
    exact h.owed

/-- A stream has had a frame or has ended, in its turn. -/
theorem answered (h : Paired x) (hi : x.streams i = some consumed)
    (horder : x.streams i = some false → x.waiting.head? = some i)
    (hwaiting : y.waiting = x.waiting.filter fun j => j ≠ i)
    (hsent : y.sent = x.sent)
    (htexts : y.store.sendTexts = if consumed then x.store.sendTexts else x.store.sendTexts.tail)
    (hothers : ∀ j, j ≠ i → y.streams j = x.streams j) (hself : y.streams i ≠ some false)
    (hnext : y.store.nextStreamId = x.store.nextStreamId)
    (hchips : y.store.state.queue.map QueuedMsg.text = y.origins.map x.sent)
    (hmade : ∀ j ∈ y.origins, j ≤ x.store.nextStreamId)
    (hheard : ∀ j, j ∈ y.outstanding ∨ j ∈ y.done →
      j = i ∨ (j ≤ x.store.nextStreamId ∧ j ∉ x.waiting))
    (howed : (y.origins.map x.sent).Subperm (y.outstanding.map x.sent)) : Paired y := by
  constructor
  · rw [htexts,hwaiting,hsent,h.texts]
    cases consumed with
    | true =>
      have habsent : i ∉ x.waiting := by
        rw [h.waits i,hi]
        simp
      rw [if_pos rfl,List.filter_eq_self.mpr]
      intro j hj
      simpa using fun he : j = i => habsent (he ▸ hj)
    | false =>
      obtain ⟨rest,hrest⟩ := List.head?_eq_some_iff.mp (horder hi)
      have honce := h.once
      rw [hrest,List.nodup_cons] at honce
      rw [hrest,if_neg Bool.false_ne_true]
      have hkept : (i :: rest).filter (fun j => j ≠ i) = rest := by
        rw [List.filter_cons_of_neg (by simp),List.filter_eq_self]
        intro j hj
        simpa using fun he : j = i => honce.1 (he ▸ hj)
      rw [hkept]
      rfl
  · intro j
    rw [hwaiting,List.mem_filter]
    by_cases hj : j = i
    · subst hj
      simp [hself]
    · simp [hj,hothers j hj,h.waits j]
  · rw [hwaiting]
    exact h.once.filter _
  · intro j hj
    rw [hnext]
    by_cases he : j = i
    · apply h.opened
      rw [he,hi]
      simp
    · rw [hothers j he] at hj
      exact h.opened j hj
  · rw [hsent]
    exact hchips
  · exact fun j hj => hnext ▸ hmade j hj
  · intro j hj
    rw [hnext,hwaiting,List.mem_filter]
    rcases hheard j hj with rfl | ⟨hle,habsent⟩
    · refine ⟨h.opened j ?_,by simp⟩
      rw [hi]
      simp
    · exact ⟨hle,fun hmem => habsent hmem.1⟩
  · rw [hsent]
    exact howed

private theorem receipt (h : Paired x) {position : Int} (horder : x.waiting.head? = some i)
    (hstep : x.step (.receipt i position) = some y) : Paired y := by
  rw [QueueSession.step] at hstep
  obtain ⟨hi,hy⟩ := of_guard hstep
  subst hy
  obtain ⟨rest,hrest⟩ := List.head?_eq_some_iff.mp horder
  have hmem : i ∈ x.waiting := (h.waits i).mpr hi
  have hnew : i ∉ x.done := fun hdone => (h.heard i (.inr hdone)).2 hmem
  apply h.answered hi fun _ => horder
  · rfl
  · rfl
  · exact sendTexts_receive x.store i false _ fun _ => rfl
  · exact fun j hj => Function.update_of_ne hj _ _
  · simp [QueueSession.answer]
  · exact receive_nextStreamId x.store i false _
  · -- the oldest text is that of the stream
    have htext : x.store.sendTexts.head?.getD "" = x.sent i := by
      rw [h.texts,hrest]
      rfl
    change (x.store.state.queue ++
      [(⟨x.store.sendTexts.head?.getD "",position⟩ : QueuedMsg)]).map QueuedMsg.text =
        (x.origins ++ [i]).map x.sent
    rw [List.map_append,List.map_append,h.chips,htext]
    rfl
  · intro j hj
    rcases List.mem_append.mp hj with hj | hj
    · exact h.made j hj
    · rw [List.mem_singleton.mp hj]
      exact h.waiting_le i hmem
  · intro j hj
    simp only [if_neg hnew,List.mem_append,List.mem_singleton] at hj
    rcases hj with (hj | hj) | hj
    · exact .inr (h.heard j (.inl hj))
    · exact .inl hj
    · exact .inr (h.heard j (.inr hj))
  · simp only [if_neg hnew,List.map_append]
    exact (List.subperm_append_right _).mpr h.owed

private theorem frame (h : Paired x) {event : ChatEvent}
    (horder : x.streams i = some false → x.waiting.head? = some i)
    (hstep : x.step (.frame i event) = some y) : Paired y := by
  rw [QueueSession.step] at hstep
  cases hi : x.streams i with
  | none => simp [hi] at hstep
  | some consumed =>
    simp only [hi] at hstep
    by_cases hkind : event.isReceipt = true ∨ event.consumes = true
    · rw [if_pos hkind] at hstep
      cases hstep
    rw [if_neg hkind] at hstep
    cases hstep
    obtain ⟨hreceipt,hconsumes⟩ : event.isReceipt = false ∧ event.consumes = false := by
      simpa using hkind
    have hqueue : (x.store.receive i consumed event).state.queue =
        if event.clears then [] else x.store.state.queue := by
      rw [state_receive x.store i consumed hreceipt]
      exact queue_reduceEvent x.store.state "" i hreceipt hconsumes
    apply h.answered hi horder
    · rfl
    · rfl
    · exact sendTexts_receive x.store i consumed event (by simp [hreceipt])
    · exact fun j hj => Function.update_of_ne hj _ _
    · simp [QueueSession.answer]
    · exact receive_nextStreamId x.store i consumed event
    · rw [hqueue]
      cases event.clears with
      | true => rfl
      | false => exact h.chips
    · cases event.clears with
      | true => simp
      | false => exact h.made
    · intro j hj
      cases hclears : event.clears with
      | true =>
        simp only [hclears,if_true,List.not_mem_nil,false_or] at hj
        exact .inr (h.heard j (.inr hj))
      | false =>
        simp only [hclears,Bool.false_eq_true,if_false] at hj
        exact .inr (h.heard j hj)
    · cases event.clears with
      | true => exact .refl _
      | false => exact h.owed

private theorem finish (h : Paired x) {error : Option String}
    (horder : x.streams i = some false → x.waiting.head? = some i)
    (hstep : x.step (.finish i error) = some y) : Paired y := by
  rw [QueueSession.step] at hstep
  cases hi : x.streams i with
  | none => simp [hi] at hstep
  | some consumed =>
    simp only [hi] at hstep
    cases hstep
    apply h.answered hi horder
    · rfl
    · rfl
    · exact sendTexts_finish x.store i consumed error
    · exact fun j hj => Function.update_of_ne hj _ _
    · simp
    · exact finish_nextStreamId x.store i consumed error
    · rw [queue_finish]
      exact h.chips
    · exact h.made
    · exact fun j hj => .inr (h.heard j hj)
    · exact h.owed

/-- Without a chip of the text, the message that is taken up leaves every chip outstanding. -/
theorem erase_missing (h : Paired x) {of : Nat} (hmissing : x.sent of ∉ x.origins.map x.sent) :
    (x.origins.map x.sent).Subperm ((x.outstanding.erase of).map x.sent) := by
  by_cases hof : of ∈ x.outstanding
  · rw [List.subperm_ext_iff]
    intro text htext
    have hne : ¬x.sent of = text := fun he => hmissing (he ▸ htext)
    have hcount := h.owed.count_le text
    rw [((List.perm_cons_erase hof).map x.sent).count_eq,List.map_cons,
      List.count_cons_of_ne hne] at hcount
    exact hcount
  · rw [List.erase_of_not_mem hof]
    exact h.owed

/-- Without its first chip of the text, the same. -/
theorem erase_found (h : Paired x) {of k : Nat}
    (hpick : (x.origins.map x.sent).Perm (x.sent of :: (x.origins.eraseIdx k).map x.sent)) :
    ((x.origins.eraseIdx k).map x.sent).Subperm ((x.outstanding.erase of).map x.sent) := by
  by_cases hof : of ∈ x.outstanding
  · have hrest : (x.outstanding.map x.sent).Perm
        (x.sent of :: (x.outstanding.erase of).map x.sent) :=
      (List.perm_cons_erase hof).map x.sent
    have howed := (hpick.symm.subperm.trans h.owed).trans hrest.subperm
    exact (List.subperm_cons _).mp howed
  · rw [List.erase_of_not_mem hof]
    exact ((x.origins.eraseIdx_sublist k).map x.sent).subperm.trans h.owed

/-- The chips after a message was taken up. -/
def erased (x : QueueSession) (of : Nat) : List Nat :=
  match x.store.state.queue.findIdx? fun q => q.text = x.sent of with
  | none => x.origins
  | some place => x.origins.eraseIdx place

private theorem erased_owed (h : Paired x) (of : Nat) {message : HistoryMessage}
    (htext : (message.blocks.findSome? ContentBlock.text?).getD "" = x.sent of) :
    ((consumeQueueText x.store.state.queue message).map QueuedMsg.text =
      (erased x of).map x.sent) ∧ (∀ j ∈ erased x of, j ∈ x.origins) ∧
    ((erased x of).map x.sent).Subperm ((x.outstanding.erase of).map x.sent) := by
  unfold erased consumeQueueText
  simp only [htext]
  cases hplace : x.store.state.queue.findIdx? fun q => q.text = x.sent of with
  | none =>
    refine ⟨h.chips,fun j hj => hj,h.erase_missing ?_⟩
    rw [← h.chips]
    intro hmem
    obtain ⟨q,hq,htext⟩ := List.mem_map.mp hmem
    have hnone := List.findIdx?_eq_none_iff.mp hplace q hq
    simp [htext] at hnone
  | some k =>
    obtain ⟨hk,hfound,-⟩ := List.findIdx?_eq_some_iff_getElem.mp hplace
    have hchips : (x.store.state.queue.eraseIdx k).map QueuedMsg.text =
        (x.origins.eraseIdx k).map x.sent := by
      rw [← List.eraseIdx_map,← List.eraseIdx_map,h.chips]
    refine ⟨hchips,fun j hj => List.mem_of_mem_eraseIdx hj,h.erase_found ?_⟩
    have hpicked := (List.getElem_cons_eraseIdx_perm hk).symm.map QueuedMsg.text
    have htaken : x.store.state.queue[k].text = x.sent of := by simpa using hfound
    rwa [List.map_cons,hchips,htaken,h.chips] at hpicked

private theorem consume (h : Paired x) {of : Nat} {event : ChatEvent}
    (horder : x.streams i = some false → x.waiting.head? = some i)
    (hof : of = i ∨ of ∉ x.waiting) (hstep : x.step (.consume i of event) = some y) :
    Paired y := by
  rw [QueueSession.step] at hstep
  cases hi : x.streams i with
  | none => simp [hi] at hstep
  | some consumed =>
    simp only [hi] at hstep
    obtain ⟨⟨hcarries,-,-,hle⟩,hy⟩ := of_guard hstep
    subst hy
    obtain ⟨message,htext,hreceipt,hqueue⟩ : ∃ message : HistoryMessage,
        (message.blocks.findSome? ContentBlock.text?).getD "" = x.sent of ∧
        event.isReceipt = false ∧ (x.store.receive i consumed event).state.queue =
          consumeQueueText x.store.state.queue message := by
      obtain ⟨member',turnId,body⟩ := event
      cases body with
      | memberView member sender message =>
        obtain ⟨hmember,huser,rfl,htext⟩ := hcarries
        refine ⟨message,htext,rfl,?_⟩
        rw [state_receive x.store i consumed rfl]
        have hguard : ¬(member = "" ∨ member = USER_MEMBER) := by simp [hmember,huser]
        simp only [reduceEvent,reduceMemberView,if_neg hguard,if_true]
      | _ => cases hcarries
    obtain ⟨hchips,hmade,howed⟩ := h.erased_owed of htext
    apply h.answered hi horder
    · rfl
    · rfl
    · exact sendTexts_receive x.store i consumed event (by simp [hreceipt])
    · exact fun j hj => Function.update_of_ne hj _ _
    · simp [QueueSession.answer]
    · exact receive_nextStreamId x.store i consumed event
    · rw [hqueue]
      exact hchips
    · exact fun j hj => h.made j (hmade j hj)
    · intro j hj
      rcases hj with hj | hj
      · exact .inr (h.heard j (.inl (List.mem_of_mem_erase hj)))
      · rcases List.mem_cons.mp hj with rfl | hj
        · exact hof.imp_right fun habsent => ⟨hle,habsent⟩
        · exact .inr (h.heard j (.inr hj))
    · exact howed

end Paired

private theorem inductive_paired : queueSession.Inductive QueueSession.Orderly Paired where
  init x hinit := by
    subst hinit
    constructor
    · rfl
    · simp
    · exact .nil
    · simp
    · rfl
    · simp
    · simp
    · exact .refl _
  step x action y h horder hstep := by
    cases action with
    | send text => exact h.send text hstep
    | receipt i position => exact h.receipt horder hstep
    | frame i event => exact h.frame horder hstep
    | consume i of event => exact h.consume horder.1 horder.2 hstep
    | finish i error => exact h.finish horder hstep

/-- If the streams get their first frames in the order they were opened, and a message is taken up
only after the first frame of its stream, then every chip shows the text of its own stream, and when all queued
messages were taken up no chip is left. -/
theorem chips_belong (x : QueueSession) (h : queueSession.ReachUnder QueueSession.Orderly x) :
    x.Belong ∧ x.Settled :=
  ⟨(inductive_paired.of_reachUnder h).belong,(inductive_paired.of_reachUnder h).settled⟩

def userInput (text : String) : ChatEvent :=
  ⟨"","",.memberView "player" "user" ⟨"m",.user,[.text text],false⟩⟩

def orderlyCheck (x : QueueSession) (action : QueueAction) : Bool :=
  match action with
  | .send _ => true
  | .receipt i _ => x.waiting.head? == some i
  | .frame i _ => x.streams i != some false || x.waiting.head? == some i
  | .consume i of _ =>
    (x.streams i != some false || x.waiting.head? == some i) &&
      decide (of = i ∨ of ∉ x.waiting)
  | .finish i _ => x.streams i != some false || x.waiting.head? == some i

private theorem orderly_of_check (x : QueueSession) (action : QueueAction)
    (h : orderlyCheck x action = true) : x.Orderly action := by
  cases action with
  | send text => trivial
  | receipt i position => exact eq_of_beq h
  | frame i event =>
    intro hi
    simpa [orderlyCheck,hi] using h
  | consume i of event =>
    simp only [orderlyCheck,Bool.and_eq_true,decide_eq_true_eq] at h
    refine ⟨fun hi => ?_,h.2⟩
    simpa [hi] using h.1
  | finish i error =>
    intro hi
    simpa [orderlyCheck,hi] using h

/-- Two messages are queued and taken up in the other order, after a third that was not queued. -/
theorem chips_belong_demo : ∃ x : QueueSession, (x.Belong ∧ x.Settled) ∧
    x.outstanding = [] ∧ x.done = [1,2,3] := by
  have hinit : queueSession.ReachUnder QueueSession.Orderly {} := .init rfl
  have hrun : (queueSession.runUnder orderlyCheck {} [.send "first",.send "second",.send "third",
      .receipt 1 1,.receipt 2 2,.consume 3 3 (userInput "third"),
      .consume 1 2 (userInput "second"),.consume 2 1 (userInput "first")]).any
        (fun x => x.outstanding == [] && x.done == [1,2,3]) = true := by
    decide
  obtain ⟨x,hreach,hx⟩ := Lts.reachUnder_of_runUnder_any orderly_of_check _ hinit hrun
  have hends : x.outstanding = [] ∧ x.done = [1,2,3] := by simpa using hx
  exact ⟨x,chips_belong x hreach,hends⟩

/-- The stream opened second answers first: its chip shows the text of the other stream, and is
left over. -/
theorem second_stream_answers_first : ∃ x : QueueSession, queueSession.Reach x ∧
    ¬x.Belong ∧ ¬x.Settled := by
  have hinit : queueSession.Reach {} := .init rfl
  have hrun : (queueSession.run {} [.send "first",.send "second",.receipt 2 1,
      .consume 2 2 (userInput "second")]).any (fun x => x.origins.map x.sent == ["second"] &&
        x.outstanding == [] && x.store.state.queue.map QueuedMsg.text == ["first"]) = true := by
    decide
  obtain ⟨x,hreach,hx⟩ := Lts.reach_of_run_any _ hinit hrun
  simp only [Bool.and_eq_true,beq_iff_eq] at hx
  obtain ⟨⟨horigins,hnone⟩,hqueue⟩ := hx
  refine ⟨x,hreach,fun hbelong => ?_,fun hsettled => ?_⟩
  · rw [QueueSession.Belong,hqueue,horigins] at hbelong
    simp at hbelong
  · rw [hsettled hnone] at hqueue
    cases hqueue

end Dominion.Web
