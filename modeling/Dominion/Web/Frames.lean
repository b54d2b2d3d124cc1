import Dominion.Framework.Keyed
import Dominion.Web.Drafts

/-! # The frames of a session

The frames that a server fans out, the turns that they change and close, and the messages by which
a state recognizes what it has seen. -/
namespace Dominion.Web

open Dominion.Framework
open Dominion.Chat (ContentBlock HistoryMessage ToolStatus)

/-! ### Frames -/

namespace ChatEvent

def turn (e : ChatEvent) : String × String :=
  (e.member,e.turnId)

/-- The draft that the frame starts. -/
def startOf (e : ChatEvent) : Option (BlockKey × BlockDraft) :=
  match e.body with
  | .blockStart step index type toolId name =>
    some (blockKey step index,blockStartDraft index type toolId name)
  | _ => none

def deltaOf (e : ChatEvent) : Option (BlockKey × String) :=
  match e.body with
  | .delta step index text => some (blockKey step index,text)
  | _ => none

/-- The terminal block that the frame carries. -/
def endOf (e : ChatEvent) : Option (BlockKey × ContentBlock) :=
  match e.body with
  | .blockEnd step index block => some (blockKey step index,block)
  | _ => none

/-- The block that the frame is about. -/
def blockOf (e : ChatEvent) : Option BlockKey :=
  match e.body with
  | .blockStart step index _ _ _ => some (blockKey step index)
  | .delta step index _ => some (blockKey step index)
  | .blockEnd step index _ => some (blockKey step index)
  | _ => none

/-- The frame ends its turn. -/
def closes (e : ChatEvent) : Bool :=
  match e.body with
  | .turnEnd .completed _ => true
  | .turnEnd .error _ => true
  | .turnEnd .canceled _ => true
  | _ => false

/-- The frame clears the session. -/
def aborts (e : ChatEvent) : Bool :=
  match e.body with
  | .turnEnd .aborted _ => true
  | _ => false

/-- The frames of a member name it, a consumed input has its message id, and a result is final. -/
def Addressed (e : ChatEvent) : Prop :=
  match e.body with
  | .turnStart => e.member ≠ ""
  | .blockStart _ _ _ _ _ => e.member ≠ ""
  | .delta _ _ _ => e.member ≠ ""
  | .blockEnd _ _ _ => e.member ≠ ""
  | .turnEnd _ _ => e.member ≠ ""
  | .memberView _ _ message => message.messageId ≠ ""
  | .toolResult _ status _ => status ≠ .running
  | _ => True

/-- The order in which a turn and a block are fanned out. -/
structure Follows (e e' : ChatEvent) : Prop where
  /-- A turn starts with its first frame. -/
  turnStart : e'.body = .turnStart → e.turn ≠ e'.turn
  /-- A block starts before its deltas. -/
  blockStart : ∀ key text draft, e.turn = e'.turn → e.deltaOf = some (key,text) →
    e'.startOf ≠ some (key,draft)
  /-- A block ends with its last frame. -/
  blockEnd : ∀ key block, e.turn = e'.turn → e.endOf = some (key,block) → e'.blockOf ≠ some key
  /-- A tool call ends as one. -/
  toolCall : ∀ key draft block, e.turn = e'.turn → e.startOf = some (key,draft) →
    e'.endOf = some (key,block) → isToolCall draft.content = true → isToolCall block = true

end ChatEvent

/-- A frame sequence that a server can fan out to a session. -/
structure Fanned (frames : List ChatEvent) : Prop where
  addressed : ∀ e ∈ frames, e.Addressed
  ordered : frames.Pairwise ChatEvent.Follows

/-- The frames since the session was last cleared. -/
def current (frames : List ChatEvent) : List ChatEvent :=
  (frames.reverse.takeWhile fun e => !e.aborts).reverse

theorem current_concat (frames : List ChatEvent) (e : ChatEvent) :
    current (frames ++ [e]) = if e.aborts then [] else current frames ++ [e] := by
  cases h : e.aborts <;> simp [current,h]

/-! ### The turns that a frame is about -/

def LiveMemberTurn.key (t : LiveMemberTurn) : String × String :=
  t.toTurnDraft.key

/-- The live turns have their keys alone. -/
def ChatState.Distinct (s : ChatState) : Prop :=
  (s.live.map LiveMemberTurn.key).Nodup

/-- The turn of the key changed. -/
def editTurn (k : String × String) (f : LiveMemberTurn → LiveMemberTurn)
    (live : List LiveMemberTurn) : List LiveMemberTurn :=
  live.map fun t => if t.key = k then f t else t

theorem findLiveTurn_some (s : ChatState) (member turnId : String) :
    findLiveTurn s (some member) turnId = placeOf LiveMemberTurn.key (member,turnId) s.live :=
  rfl

theorem eventMember_of_member {s : ChatState} {e : ChatEvent} (h : e.member ≠ "") :
    eventMember s e = some e.member := by
  simp [eventMember,h]

theorem onTurn_eq {s : ChatState} {e : ChatEvent} (hn : s.Distinct) (hm : e.member ≠ "")
    (f : LiveMemberTurn → LiveMemberTurn) :
    onTurn s e f = { s with live := editTurn e.turn f s.live } := by
  rw [onTurn,eventMember_of_member hm,findLiveTurn_some]
  cases hplace : placeOf LiveMemberTurn.key (e.member,e.turnId) s.live with
  | none =>
    have hsame : editTurn e.turn f s.live = s.live := by
      refine (List.map_congr_left fun t ht => ?_).trans (List.map_id' _)
      have hne : t.key ≠ e.turn := placeOf_eq_none.mp hplace t ht
      simp [hne]
    simp only [hsame]
  | some i =>
    simp only [modify_placeOf hn hplace]
    rfl

theorem mem_editTurn {k : String × String} {f : LiveMemberTurn → LiveMemberTurn}
    {live : List LiveMemberTurn} {t' : LiveMemberTurn} (h : t' ∈ editTurn k f live) :
    ∃ t ∈ live, t.key = k ∧ t' = f t ∨ t.key ≠ k ∧ t' = t := by
  obtain ⟨t,ht,rfl⟩ := List.mem_map.mp h
  by_cases hk : t.key = k
  · exact ⟨t,ht,.inl ⟨hk,by simp [hk]⟩⟩
  · exact ⟨t,ht,.inr ⟨hk,by simp [hk]⟩⟩

theorem keys_editTurn {k : String × String} {f : LiveMemberTurn → LiveMemberTurn}
    (hf : ∀ t, (f t).key = t.key) (live : List LiveMemberTurn) :
    (editTurn k f live).map LiveMemberTurn.key = live.map LiveMemberTurn.key := by
  simp only [editTurn,List.map_map]
  refine List.map_congr_left fun t _ => ?_
  simp only [Function.comp_apply]
  split
  · exact hf t
  · rfl

/-! ### Turns that are closed -/

def clearedHistory (history : List TeamMessageEntry) (member : String) : List TeamMessageEntry :=
  history.map fun e => if e.member = member then { e with isOpen := false } else e

/-- The merged sequence after the turn. -/
def closedHistory (interrupted : Bool) (history : List TeamMessageEntry) (turn : TurnDraft) :
    List TeamMessageEntry :=
  clearedHistory history turn.member ++ projectTail (clearedHistory history turn.member) turn.member
    (stepsToHistory (turn.steps.drop turn.fixedSteps) interrupted)

/-- The views after the turn. -/
def closedViews (interrupted : Bool) (memberHistory : String → List MemberViewEntry)
    (turn : TurnDraft) : String → List MemberViewEntry :=
  Function.update memberHistory turn.member
    ((memberHistory turn.member).map (fun e => { e with isOpen := false }) ++
      (stepsToHistory (turn.steps.drop turn.fixedSteps) interrupted).map
        fun message => ⟨message,turn.member,true,false⟩)

theorem closeLiveTurn_eq {s : ChatState} {i : Nat} {t : LiveMemberTurn} (h : s.live[i]? = some t)
    (interrupted : Bool) : closeLiveTurn s i interrupted =
      { s with
        history := closedHistory interrupted s.history t.toTurnDraft
        memberHistory := closedViews interrupted s.memberHistory t.toTurnDraft
        live := s.live.eraseIdx i } := by
  simp only [closeLiveTurn,h]
  split
  · rename_i hnil
    simp [closedHistory,closedViews,clearMemberOpen,clearedHistory,hnil,stepsToHistory,projectTail]
  · simp [closedHistory,closedViews,clearMemberOpen,clearedHistory,projectMemberTail]

/-- The turn of the key closed, if it is live. -/
def closeKey (s : ChatState) (k : String × String) (interrupted : Bool) : ChatState :=
  match s.live.find? fun t => t.key = k with
  | none => s
  | some t =>
    { s with
      history := closedHistory interrupted s.history t.toTurnDraft
      memberHistory := closedViews interrupted s.memberHistory t.toTurnDraft
      live := s.live.filter fun t => t.key ≠ k }

private theorem closeKey_of_place {s : ChatState} (hn : s.Distinct) (k : String × String)
    (interrupted : Bool) :
    closeFound s (placeOf LiveMemberTurn.key k s.live) interrupted = closeKey s k interrupted := by
  cases hplace : placeOf LiveMemberTurn.key k s.live with
  | none =>
    have hnone : s.live.find? (fun t => t.key = k) = none := by
      simpa using placeOf_eq_none.mp hplace
    simp only [closeFound,closeKey,hnone]
  | some i =>
    obtain ⟨t,ht,hfind⟩ := placeOf_some hplace
    simp only [closeFound,closeKey,hfind,closeLiveTurn_eq ht,eraseIdx_placeOf hn hplace]

theorem closeKey_distinct {s : ChatState} (hn : s.Distinct) (k : String × String)
    (interrupted : Bool) : (closeKey s k interrupted).Distinct := by
  rw [closeKey]
  split
  · exact hn
  · exact hn.sublist (List.filter_sublist.map LiveMemberTurn.key)

theorem mem_closeKey {s : ChatState} {k : String × String} {interrupted : Bool}
    {t : LiveMemberTurn} (h : t ∈ (closeKey s k interrupted).live) : t ∈ s.live ∧ t.key ≠ k := by
  rw [closeKey] at h
  split at h
  · rename_i hnone
    have hne : ∀ t ∈ s.live, t.key ≠ k := by simpa using hnone
    exact ⟨h,hne t h⟩
  · simpa using h

/-- The turn is closed as an interrupted one. -/
def ChatEvent.interrupts (e : ChatEvent) : Bool :=
  match e.body with
  | .turnEnd .completed _ => false
  | _ => true

/-- What a client shows of a session. -/
def ChatState.shown (s : ChatState) :
    List TeamMessageEntry × (String → List MemberViewEntry) × List LiveMemberTurn :=
  (s.history,s.memberHistory,s.live)

theorem reduceTurnEnd_shown {s : ChatState} {e : ChatEvent} (hn : s.Distinct) (hm : e.member ≠ "")
    {status : TurnStatus} {error : Option String} (hbody : e.body = .turnEnd status error)
    (hcloses : e.closes = true) :
    (reduceTurnEnd s e status error).shown = (closeKey s e.turn e.interrupts).shown := by
  have hclose (interrupted : Bool) :
      closeFound s (findLiveTurn s (eventMember s e) e.turnId) interrupted =
        closeKey s e.turn interrupted := by
    rw [eventMember_of_member hm,findLiveTurn_some]
    exact closeKey_of_place hn e.turn interrupted
  simp only [reduceTurnEnd,hclose]
  cases status <;>
    simp_all [ChatEvent.closes,ChatEvent.interrupts,ChatState.shown]

private theorem closeTurn_eq {s : ChatState} (hn : s.Distinct) (interrupted : Bool)
    (t : LiveMemberTurn) :
    closeTurn interrupted s t = closeKey s t.key interrupted :=
  closeKey_of_place hn t.key interrupted

/-- The end of a stream closes the live turns one after another. -/
theorem closePendingTurns_eq {s : ChatState} (hn : s.Distinct) (interrupted : Bool) :
    s.closePendingTurns interrupted =
      { s with
        history := (s.live.map (·.toTurnDraft)).foldl (closedHistory interrupted) s.history
        memberHistory := (s.live.map (·.toTurnDraft)).foldl (closedViews interrupted) s.memberHistory
        live := [] } := by
  obtain ⟨history,memberHistory,live,queue,error,canceled⟩ := s
  simp only [ChatState.closePendingTurns]
  induction live generalizing history memberHistory with
  | nil => rfl
  | cons t rest ih =>
    have hkeys : t.key ∉ rest.map LiveMemberTurn.key ∧ (rest.map LiveMemberTurn.key).Nodup := by
      simpa [ChatState.Distinct] using hn
    have hrest : ∀ t' ∈ rest, ¬ t'.key = t.key := fun t' ht' he =>
      hkeys.1 (he ▸ List.mem_map_of_mem ht')
    have hclose : closeTurn interrupted
        ⟨history,memberHistory,t :: rest,queue,error,canceled⟩ t =
          ⟨closedHistory interrupted history t.toTurnDraft,
            closedViews interrupted memberHistory t.toTurnDraft,rest,queue,error,canceled⟩ := by
      rw [closeTurn_eq hn]
      simpa [closeKey] using hrest
    simp only [List.foldl_cons,List.map_cons,hclose]
    exact ih _ _ hkeys.2

/-! ### Anchors of the messages -/

/-- A real entry has the seq. -/
def HasSeq (history : List TeamMessageEntry) (seq : Int) : Prop :=
  ∃ e ∈ history, e.projected = false ∧ e.seq = seq

/-- A real entry has the message id. -/
def HasId (view : List MemberViewEntry) (id : String) : Prop :=
  ∃ e ∈ view, e.projected = false ∧ e.message.messageId = id

/-- A placeholder has no message id. -/
def Nameless (view : List MemberViewEntry) : Prop :=
  ∀ e ∈ view, e.projected = true → e.message.messageId = ""

private theorem HasSeq.append {history more : List TeamMessageEntry} {seq : Int}
    (h : HasSeq history seq) :
    HasSeq (history ++ more) seq := by
  obtain ⟨e,he,hreal⟩ := h
  exact ⟨e,List.mem_append_left _ he,hreal⟩

private theorem HasSeq.map {history : List TeamMessageEntry} {seq : Int} (h : HasSeq history seq)
    {f : TeamMessageEntry → TeamMessageEntry}
    (hf : ∀ e, (f e).projected = e.projected ∧ (f e).seq = e.seq) : HasSeq (history.map f) seq := by
  obtain ⟨e,he,hreal,hseq⟩ := h
  exact ⟨f e,List.mem_map_of_mem he,(hf e).1.trans hreal,(hf e).2.trans hseq⟩

private theorem HasSeq.closed {history : List TeamMessageEntry} {seq : Int} (h : HasSeq history seq)
    (interrupted : Bool) (turn : TurnDraft) :
    HasSeq (closedHistory interrupted history turn) seq :=
  (h.map fun e => by split <;> simp).append

theorem mem_insertBySeq {history : List TeamMessageEntry} {e entry : TeamMessageEntry} :
    e ∈ insertBySeq history entry ↔ e = entry ∨ e ∈ history := by
  have hsplit := List.takeWhile_append_dropWhile (p := fun e => decide (e.seq ≤ entry.seq))
    (l := history)
  constructor
  · intro h
    rw [← hsplit]
    simp only [insertBySeq,List.mem_append,List.mem_cons] at h ⊢
    tauto
  · intro h
    rw [← hsplit] at h
    simp only [insertBySeq,List.mem_append,List.mem_cons] at h ⊢
    tauto

private theorem HasId.map {view : List MemberViewEntry} {id : String} (h : HasId view id)
    {f : MemberViewEntry → MemberViewEntry}
    (hf : ∀ e, (f e).projected = e.projected ∧ (f e).message.messageId = e.message.messageId) :
    HasId (view.map f) id := by
  obtain ⟨e,he,hreal,hid⟩ := h
  exact ⟨f e,List.mem_map_of_mem he,(hf e).1.trans hreal,(hf e).2.trans hid⟩

private theorem HasId.append {view more : List MemberViewEntry} {id : String} (h : HasId view id) :
    HasId (view ++ more) id := by
  obtain ⟨e,he,hreal⟩ := h
  exact ⟨e,List.mem_append_left _ he,hreal⟩

private theorem Nameless.map {view : List MemberViewEntry} (h : Nameless view)
    {f : MemberViewEntry → MemberViewEntry}
    (hf : ∀ e, (f e).projected = e.projected ∧ (f e).message.messageId = e.message.messageId) :
    Nameless (view.map f) := by
  intro e he hp
  obtain ⟨e₀,he₀,rfl⟩ := List.mem_map.mp he
  exact (hf e₀).2.trans (h e₀ he₀ ((hf e₀).1 ▸ hp))

private theorem Nameless.append {view more : List MemberViewEntry} (h : Nameless view)
    (hmore : Nameless more) : Nameless (view ++ more) := by
  intro e he hp
  rcases List.mem_append.mp he with he | he
  · exact h e he hp
  · exact hmore e he hp

/-- The messages that one state shows are still shown by the other. -/
structure Keeps (h h' : List TeamMessageEntry) (m m' : String → List MemberViewEntry) : Prop where
  seqs : ∀ seq, HasSeq h seq → HasSeq h' seq
  ids : ∀ member id, HasId (m member) id → HasId (m' member) id
  nameless : (∀ member, Nameless (m member)) → ∀ member, Nameless (m' member)

theorem Keeps.refl (h : List TeamMessageEntry) (m : String → List MemberViewEntry) :
    Keeps h h m m :=
  ⟨fun _ hs => hs,fun _ _ hi => hi,fun hn => hn⟩

private theorem Keeps.trans {h₁ h₂ h₃ : List TeamMessageEntry}
    {m₁ m₂ m₃ : String → List MemberViewEntry}
    (h : Keeps h₁ h₂ m₁ m₂) (h' : Keeps h₂ h₃ m₂ m₃) : Keeps h₁ h₃ m₁ m₃ :=
  ⟨fun seq hs => h'.seqs seq (h.seqs seq hs),fun member id hi => h'.ids member id (h.ids member id hi),
    fun hn => h'.nameless (h.nameless hn)⟩

/-- One view changed. -/
theorem Keeps.update {h h' : List TeamMessageEntry} {m : String → List MemberViewEntry}
    {member : String} {view : List MemberViewEntry} (hseqs : ∀ seq, HasSeq h seq → HasSeq h' seq)
    (hids : ∀ id, HasId (m member) id → HasId view id)
    (hnameless : Nameless (m member) → Nameless view) :
    Keeps h h' m (Function.update m member view) where
  seqs := hseqs
  ids member' id hi := by
    by_cases hm : member' = member
    · subst hm
      simpa using hids id hi
    · simpa [hm] using hi
  nameless hn member' := by
    by_cases hm : member' = member
    · subst hm
      simpa using hnameless (hn _)
    · simpa [hm] using hn member'

private theorem keeps_closed (interrupted : Bool) (history : List TeamMessageEntry)
    (memberHistory : String → List MemberViewEntry) (turn : TurnDraft) :
    Keeps history (closedHistory interrupted history turn) memberHistory
      (closedViews interrupted memberHistory turn) := by
  refine .update (fun seq h => h.closed interrupted turn) (fun id h => ?_) fun h => ?_
  · exact (h.map (f := fun e => { e with isOpen := false }) fun _ => ⟨rfl,rfl⟩).append
  · refine (h.map (f := fun e => { e with isOpen := false }) fun _ => ⟨rfl,rfl⟩).append
      fun e he _ => ?_
    obtain ⟨message,hmessage,rfl⟩ := List.mem_map.mp he
    obtain ⟨i,hi,rfl⟩ := List.mem_mapIdx.mp hmessage
    rfl

theorem keeps_closeKey (s : ChatState) (k : String × String) (interrupted : Bool) :
    Keeps s.history (closeKey s k interrupted).history s.memberHistory
      (closeKey s k interrupted).memberHistory := by
  rw [closeKey]
  split
  · exact .refl _ _
  · exact keeps_closed _ _ _ _

theorem keeps_foldl_closed (interrupted : Bool) (turns : List TurnDraft)
    (history : List TeamMessageEntry) (memberHistory : String → List MemberViewEntry) :
    Keeps history (turns.foldl (closedHistory interrupted) history) memberHistory
      (turns.foldl (closedViews interrupted) memberHistory) := by
  induction turns generalizing history memberHistory with
  | nil => exact .refl _ _
  | cons t rest ih => exact (keeps_closed interrupted _ _ t).trans (ih _ _)

private theorem keeps_appendMemberView (history : List TeamMessageEntry)
    (memberHistory : String → List MemberViewEntry) (member : String) (message : HistoryMessage)
    (isOpen : Bool) :
    Keeps history history memberHistory (appendMemberView memberHistory member message isOpen) := by
  simp only [appendMemberView]
  split
  · exact .refl _ _
  · split
    · rename_i i hi
      refine .update (fun _ h => h) (fun id h => ?_) fun h e he hp => ?_
      · obtain ⟨e,he,hreal,hid⟩ := h
        exact ⟨e,mem_set_findIdx? hi he hreal,hreal,hid⟩
      · rcases List.mem_or_eq_of_mem_set he with he | rfl
        · exact h e he hp
        · cases hp
    · refine .update (fun _ h => h) (fun id h => h.append) fun h => h.append fun e he hp => ?_
      have he' : e = ⟨message,member,false,isOpen⟩ := by simpa using he
      subst he'
      cases hp

theorem keeps_appendMemberInputView (history : List TeamMessageEntry)
    (memberHistory : String → List MemberViewEntry) (member : String) (message : HistoryMessage)
    (sender : String) : Keeps history history memberHistory
      (appendMemberInputView memberHistory member message sender) := by
  simp only [appendMemberInputView]
  split
  · exact .refl _ _
  · refine .update (fun _ h => h) (fun id h => h.append) fun h => h.append fun e he hp => ?_
    have he' : e = ⟨message,sender,false,false⟩ := by simpa using he
    subst he'
    cases hp

theorem keeps_reduceTeamMessage (s : ChatState) (member : String) (message : HistoryMessage)
    (seq : Int) : Keeps s.history (reduceTeamMessage s member message seq).history s.memberHistory
      (reduceTeamMessage s member message seq).memberHistory := by
  simp only [reduceTeamMessage]
  split
  · exact .refl _ _
  · split
    · exact .refl _ _
    · have hviews : Keeps s.history s.history s.memberHistory
          (if member = USER_MEMBER then s.memberHistory
            else appendMemberView s.memberHistory member message
              (member != USER_MEMBER && s.live.any fun t => t.member == member)) := by
        split
        · exact .refl _ _
        · exact keeps_appendMemberView _ _ _ _ _
      refine ⟨fun seq' h => ?_,hviews.ids,hviews.nameless⟩
      obtain ⟨e,he,hreal,hseq⟩ := h
      split
      · rename_i i hi
        exact ⟨e,mem_set_findIdx? hi he (by simp [hreal]),hreal,hseq⟩
      · exact ⟨e,mem_insertBySeq.mpr (.inr he),hreal,hseq⟩

theorem keeps_reduceToolResult (s : ChatState) (toolId : String) (status : ToolStatus)
    (result : String) :
    Keeps s.history (reduceToolResult s toolId status result).history s.memberHistory
      (reduceToolResult s toolId status result).memberHistory where
  seqs _ h := h.map fun _ => ⟨rfl,rfl⟩
  ids _ _ h := h.map fun _ => ⟨rfl,rfl⟩
  nameless h member := (h member).map fun _ => ⟨rfl,rfl⟩

/-- The message of a frame is shown after it. -/
theorem hasSeq_reduceTeamMessage (s : ChatState) {member : String} (hm : member ≠ "")
    (message : HistoryMessage) (seq : Int) :
    HasSeq (reduceTeamMessage s member message seq).history seq := by
  simp only [reduceTeamMessage,hm,if_false]
  split
  · rename_i hany
    obtain ⟨e,he,hseq⟩ := List.any_eq_true.mp hany
    exact ⟨e,he,by simpa using hseq⟩
  · simp only
    split
    · rename_i i hi
      obtain ⟨hlt,_⟩ := List.findIdx?_eq_some_iff_getElem.mp hi
      exact ⟨_,List.mem_set hlt _,rfl,rfl⟩
    · exact ⟨_,mem_insertBySeq.mpr (.inl rfl),rfl,rfl⟩

theorem hasId_appendMemberInputView {memberHistory : String → List MemberViewEntry}
    {member : String} (hn : Nameless (memberHistory member)) {message : HistoryMessage}
    (hid : message.messageId ≠ "") (sender : String) :
    HasId (appendMemberInputView memberHistory member message sender member) message.messageId := by
  simp only [appendMemberInputView]
  split
  · rename_i hany
    obtain ⟨e,he,hsame⟩ := List.any_eq_true.mp hany.2
    have hsame' : e.message.messageId = message.messageId := by simpa using hsame
    refine ⟨e,he,?_,hsame'⟩
    by_contra hp
    exact hid (hsame' ▸ hn e he (by simpa using hp))
  · exact ⟨⟨message,sender,false,false⟩,by simp,rfl,rfl⟩

end Dominion.Web
