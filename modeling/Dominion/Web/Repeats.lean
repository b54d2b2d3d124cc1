import Dominion.Web.Scripts

/-! # Frames that come again

A frame that a script has told shows nothing when it is told again, unless something that came
after it has taken its anchor away. -/
namespace Dominion.Web

open Dominion.Framework
open Dominion.Chat (ContentBlock HistoryMessage ToolStatus)

/-- A message of the team, or an input of a member. -/
def ChatEvent.tells (e : ChatEvent) : Bool :=
  match e.body with
  | .teamMessage _ _ _ => true
  | .memberView _ _ _ => true
  | _ => false

/-- What has come after a frame lets it come again. -/
structure MayRepeat (e : ChatEvent) (later : List Entry) : Prop where
  /-- Its turn has not ended since. -/
  turnStart : e.body = .turnStart → ∀ y ∈ later, y.stops e.turn = false
  /-- The session was not cleared since. -/
  message : e.tells = true → ∀ y ∈ later, y.aborts = false
  /-- Nothing was shown since the session was cleared. -/
  aborts : e.aborts = true → ∀ y ∈ later, y.quiet = true
  /-- The call has not settled since it ended. -/
  blockEnd : e.endOf ≠ none → ∀ y ∈ later, y.settles e = false
  /-- No call of the tool was shown as running since. -/
  toolResult : ∀ toolId status result, e.body = .toolResult toolId status result →
    ∀ y ∈ later, y.runs toolId = false

theorem MayRepeat.mono {e : ChatEvent} {later later' : List Entry} (h : MayRepeat e later)
    (hsub : ∀ y ∈ later', y ∈ later) : MayRepeat e later' where
  turnStart hbody y hy := h.turnStart hbody y (hsub y hy)
  message htells y hy := h.message htells y (hsub y hy)
  aborts haborts y hy := h.aborts haborts y (hsub y hy)
  blockEnd hend y hy := h.blockEnd hend y (hsub y hy)
  toolResult toolId status result hbody y hy := h.toolResult toolId status result hbody y (hsub y hy)

/-! ### Scripts of a frame sequence -/

/-- The script has frames of the sequence, each at its place. -/
structure Ordered (frames : List ChatEvent) (script : List Entry) : Prop where
  places : (Web.places script).Pairwise (· < ·)
  frames : ∀ p e, .frame p e ∈ script → frames[p]? = some e

variable {frames : List ChatEvent} {script A B : List Entry} {p q : Nat} {e e' : ChatEvent}
  {y : Entry} {k : String × String} {key : BlockKey}

section

variable (hf : Fanned frames) (he : frames[p]? = some e) (he' : frames[q]? = some e')
include hf he he'

theorem follows_of_lt (h : p < q) : e.Follows e' := by
  obtain ⟨hp,rfl⟩ := List.getElem?_eq_some_iff.mp he
  obtain ⟨hq,rfl⟩ := List.getElem?_eq_some_iff.mp he'
  exact List.pairwise_iff_getElem.mp hf.ordered p q hp hq h

/-- The start of a turn is its first frame. -/
theorem lt_of_turnStart (hbody : e.body = .turnStart) (hturn : e'.turn = e.turn) (hne : p ≠ q) :
    p < q := by
  rcases Nat.lt_or_gt_of_ne hne with hlt | hlt
  · exact hlt
  · exact absurd hturn ((follows_of_lt hf he' he hlt).turnStart hbody)

/-- The end of a block is its last frame. -/
theorem lt_of_end {block : ContentBlock} (hend : e.endOf = some (key,block))
    (hturn : e'.turn = e.turn) (hblock : e'.blockOf = some key) (hne : p ≠ q) : q < p := by
  rcases Nat.lt_or_gt_of_ne hne with hlt | hlt
  · exact absurd hblock ((follows_of_lt hf he he' hlt).blockEnd key block hturn.symm hend)
  · exact hlt

/-- The start of a block comes before its deltas. -/
theorem lt_of_blockStart {draft : BlockDraft} {text : String} (hstart : e.startOf = some (key,draft))
    (hturn : e'.turn = e.turn) (hdelta : e'.deltaOf = some (key,text)) : p < q := by
  rcases Nat.lt_trichotomy p q with hlt | rfl | hlt
  · exact hlt
  · obtain rfl := Option.some.inj (he.symm.trans he')
    rw [(ChatEvent.blockOf_of_startOf hstart).2.1] at hdelta
    cases hdelta
  · exact absurd hstart ((follows_of_lt hf he' he hlt).blockStart key text draft hturn hdelta)

end

/-- What neither starts the turn nor ends it, and is about no frame of the block, commutes with a
frame that starts no block. -/
theorem passes_of_open (hstops : y.stops e.turn = false) (hstarts : y.starts e.turn = false)
    (hstart : e.startOf = none) (hsettles : y.settles e = false)
    (hblock : ∀ e' ∈ y.event?, e'.turn = e.turn → e'.blockOf ≠ e.blockOf) :
    y.shown.passes e = true := by
  have hcuts := (Entry.stops_of_cuts hstops).1
  cases y with
  | ended => cases hcuts
  | frame q e' =>
    have hsame := hblock e' rfl
    have hblocks (hsome : e'.blockOf ≠ none) : (e'.turn ≠ e.turn || (e'.blockOf ≠ e.blockOf &&
        (e'.startOf.isNone || e.startOf.isNone))) = true := by
      by_cases hturn : e'.turn = e.turn
      · simp [hsame hturn,hstart]
      · simp [hturn]
    obtain ⟨member,turnId,body⟩ := e'
    cases body with
    | queued position => rfl
    | teamMessage member' message seq => simp [Entry.shown,Shown.passes,hstart]
    | memberView member' sender message => rfl
    | turnStart => simpa [Entry.starts,Entry.shown,Shown.passes] using hstarts
    | blockStart step index type toolId name => exact hblocks (by simp [ChatEvent.blockOf])
    | delta step index text => exact hblocks (by simp [ChatEvent.blockOf])
    | blockEnd step index block => exact hblocks (by simp [ChatEvent.blockOf])
    | toolResult toolId status result => simpa [Entry.settles,Entry.shown,Shown.passes] using hsettles
    | turnEnd status error =>
      cases status with
      | unspecified => rfl
      | aborted => rfl
      | completed => simpa [Entry.shown,Shown.cuts,Shown.passes,ChatEvent.closes] using hcuts
      | error => simpa [Entry.shown,Shown.cuts,Shown.passes,ChatEvent.closes] using hcuts
      | canceled => simpa [Entry.shown,Shown.cuts,Shown.passes,ChatEvent.closes] using hcuts
    | unknown => rfl

namespace Ordered

theorem sublist (h : Ordered frames script) (hsub : A.Sublist script) : Ordered frames A where
  places := h.places.sublist (hsub.filterMap _)
  frames p e he := h.frames p e (hsub.subset he)

private theorem fanned (h : Ordered frames script) (hf : Fanned frames) :
    Fanned (script.filterMap Entry.event?) where
  addressed e he := by
    obtain ⟨y,hy,hevent⟩ := List.mem_filterMap.mp he
    cases y with
    | ended => cases hevent
    | frame p e' =>
      cases hevent
      exact hf.addressed e (List.mem_of_getElem? (h.frames p e hy))
  ordered := by
    have hplaces : script.Pairwise fun y z => ∀ p, y.place? = some p → ∀ q, z.place? = some q →
        p < q := List.pairwise_filterMap.mp h.places
    refine List.pairwise_filterMap.mpr (hplaces.imp_of_mem fun {y z} hy hz hlt e he e' he' => ?_)
    cases y with
    | ended => cases he
    | frame p a =>
      cases z with
      | ended => cases he'
      | frame q b =>
        cases he
        cases he'
        exact follows_of_lt hf (h.frames p e hy) (h.frames q e' hz) (hlt p rfl q rfl)

private theorem told_frames (script : List Entry) :
    (told script).filterMap Shown.frame? = script.filterMap Entry.event? := by
  rw [told,List.filterMap_map]
  congr 1
  funext y
  cases y <;> rfl

/-- The client of a single stream that is told the script. -/
theorem anchored (h : Ordered frames script) (hf : Fanned frames) :
    Anchored (script.filterMap Entry.event?) (single (told script)) := by
  rw [← told_frames]
  refine anchored_single ?_
  rw [told_frames]
  exact h.fanned hf

theorem view (h : Ordered frames script) (hf : Fanned frames) :
    (single (told script)).view = View.run (told script) := by
  refine view_single ?_
  rw [told_frames]
  exact h.fanned hf

/-- A draft of the view is one of a turn of that client. -/
theorem exists_turn (h : Ordered frames script) (hf : Fanned frames) {t : TurnDraft}
    (ht : t ∈ (View.run (told script)).live) :
    ∃ turn ∈ (single (told script)).live, turn.toTurnDraft = t := by
  rw [← h.view hf] at ht
  exact List.mem_map.mp ht

variable (h : Ordered frames (A ++ .frame p e :: B)) (hf : Fanned frames)
include h

omit h in
private theorem run_split (A B : List Entry) (p : Nat) (e : ChatEvent) :
    View.run (told (A ++ .frame p e :: B)) =
      (told B).foldl View.after ((View.run (told A)).apply e) := by
  simp only [View.run,told,List.map_append,List.map_cons,List.foldl_append,List.foldl_cons]
  rfl

private theorem lt_of_mem (he' : .frame q e' ∈ B) : p < q := by
  have hparts : (Web.places A ++ p :: Web.places B).Pairwise (· < ·) := by
    simpa [Web.places,List.filterMap_append,Entry.place?] using h.places
  exact (List.pairwise_cons.mp (List.pairwise_append.mp hparts).2.1).1 q (mem_places.mpr ⟨e',he'⟩)

private theorem frame : frames[p]? = some e :=
  h.frames p e (by simp)

private theorem later (he' : .frame q e' ∈ B) : frames[q]? = some e' :=
  h.frames q e' (by simp [he'])

include hf

/-- A turn does not start after one of its frames. -/
theorem not_starts (hy : y ∈ B) : y.starts e.turn = false := by
  rw [Bool.eq_false_iff]
  intro hstarts
  obtain ⟨q,e',rfl,hbody,hturn⟩ := Entry.starts_iff.mp hstarts
  have hlt := h.lt_of_mem hy
  exact (follows_of_lt hf h.frame (h.later hy) hlt).turnStart hbody hturn.symm

/-- A turn that is live after its frame has not ended since. -/
theorem not_stops (hlive : (View.run (told (A ++ .frame p e :: B))).isLive e.turn = true)
    (hy : y ∈ B) : y.stops e.turn = false := by
  rw [run_split] at hlive
  exact (View.isLive_of_foldl hlive fun z hz => h.not_starts hf hz).2 y hy

end Ordered

/-! ### Calls that have settled -/

@[simp] theorem isRunning_append (toolId : String) (b : BlockDraft) (text : String) :
    isRunning toolId (b.append text).content = isRunning toolId b.content := by
  rcases b with ⟨index,⟨⟩⟩ <;> rfl

private theorem isRunning_blockEndTerminal {toolId : String} {b : BlockDraft} {block : ContentBlock}
    (hb : isRunning toolId b.content = false) (hblock : isRunning toolId block = false) :
    isRunning toolId (blockEndTerminal b block).content = false := by
  rcases b with ⟨index,⟨⟩⟩ <;> cases block <;> first | exact hblock | exact hb

private theorem isRunning_settleBlock {toolId id result : String} {status : ToolStatus}
    (hstatus : status ≠ .running) {block : ContentBlock}
    (h : isRunning toolId block = false ∨ id = toolId) :
    isRunning toolId (settleBlock id status result block) = false := by
  cases block with
  | think content => rfl
  | text content => rfl
  | toolCall id' name args state shown =>
    simp only [settleBlock]
    split
    · simp [isRunning,hstatus]
    · rename_i hne
      rcases h with h | rfl
      · exact h
      · simpa [isRunning] using hne

private theorem settleBlock_of_not_running {toolId : String} {status : ToolStatus} {result : String}
    {block : ContentBlock} (h : isRunning toolId block = false) :
    settleBlock toolId status result block = block := by
  cases block with
  | toolCall id name args state shown =>
    refine if_neg fun hsame => ?_
    simp [isRunning,hsame.1,hsame.2] at h
  | think content => rfl
  | text content => rfl

section

variable {views : String → List MemberViewEntry} {member member' sender : String}
  {message : HistoryMessage} {isOpen : Bool} {entry : MemberViewEntry}

private theorem mem_appendMemberView
    (h : entry ∈ appendMemberView views member message isOpen member') :
    entry ∈ views member' ∨ entry.message = message := by
  have hupdate {view : List MemberViewEntry}
      (hview : entry ∈ view → entry ∈ views member ∨ entry.message = message)
      (h : entry ∈ Function.update views member view member') :
      entry ∈ views member' ∨ entry.message = message := by
    by_cases hm : member' = member
    · rw [hm,Function.update_self] at h
      exact hm ▸ hview h
    · rw [Function.update_of_ne hm] at h
      exact .inl h
  simp only [appendMemberView] at h
  split at h
  · exact .inl h
  · cases hplace : (views member).findIdx? fun e => e.projected with
    | some i =>
      simp only [hplace] at h
      exact hupdate (fun h => (List.mem_or_eq_of_mem_set h).imp_right fun hsame => by rw [hsame]) h
    | none =>
      simp only [hplace] at h
      exact hupdate (fun h => (List.mem_append.mp h).imp_right fun h => by
        rw [List.mem_singleton.mp h]) h

private theorem mem_appendMemberInputView
    (h : entry ∈ appendMemberInputView views member message sender member') :
    entry ∈ views member' ∨ entry.message = message := by
  simp only [appendMemberInputView] at h
  split at h
  · exact .inl h
  · by_cases hm : member' = member
    · subst hm
      rw [Function.update_self] at h
      refine (List.mem_append.mp h).imp_right fun h => ?_
      rw [List.mem_singleton.mp h]
    · rw [Function.update_of_ne hm] at h
      exact .inl h

end

/-- No call of the tool is shown as running. -/
structure NoneRunning (toolId : String) (v : View) : Prop where
  history : ∀ entry ∈ v.history, ∀ block ∈ entry.message.blocks, isRunning toolId block = false
  memberHistory : ∀ member, ∀ entry ∈ v.memberHistory member, ∀ block ∈ entry.message.blocks,
    isRunning toolId block = false
  live : ∀ t ∈ v.live, ∀ s ∈ t.steps, ∀ b ∈ s.blocks, isRunning toolId b.content = false

namespace NoneRunning

variable {v : View} {toolId : String}

private theorem blockAt {steps : List StepDraft} (h : ∀ s ∈ steps, ∀ b ∈ s.blocks,
    isRunning toolId b.content = false) {b : BlockDraft} (hb : BlockAt steps key b) :
    isRunning toolId b.content = false := by
  obtain ⟨s,hs,_,hb,_⟩ := hb
  exact h s hs b hb

/-- The drafts changed one by one. -/
theorem mapBlocks {steps : List StepDraft} {f : BlockKey → BlockDraft → BlockDraft} (hf : Placed f)
    (h : ∀ s ∈ steps, ∀ b ∈ s.blocks, isRunning toolId b.content = false)
    (hblock : ∀ key b, isRunning toolId b.content = false → isRunning toolId (f key b).content = false)
    {s : StepDraft} (hs : s ∈ Web.mapBlocks f steps) {b : BlockDraft} (hb : b ∈ s.blocks) :
    isRunning toolId b.content = false := by
  have hat : BlockAt (Web.mapBlocks f steps) (s.step,b.index) b := ⟨s,hs,rfl,hb,rfl⟩
  obtain ⟨b₀,hb₀,hsame⟩ := blockAt_mapBlocks hf hat
  rw [hsame]
  exact hblock _ b₀ (blockAt h hb₀)

private theorem projected {steps : List StepDraft} (h : ∀ s ∈ steps, ∀ b ∈ s.blocks,
    isRunning toolId b.content = false) {interrupted : Bool} {message : HistoryMessage}
    (hmessage : message ∈ stepsToHistory steps interrupted) :
    ∀ block ∈ message.blocks, isRunning toolId block = false := by
  obtain ⟨i,hi,rfl⟩ := List.mem_mapIdx.mp hmessage
  intro block hblock
  obtain ⟨b,hb,rfl⟩ := List.mem_map.mp hblock
  exact h _ (List.getElem_mem hi) b hb

private theorem closedHistory {history : List TeamMessageEntry} {t : TurnDraft} {interrupted : Bool}
    (h : ∀ entry ∈ history, ∀ block ∈ entry.message.blocks, isRunning toolId block = false)
    (ht : ∀ s ∈ t.steps, ∀ b ∈ s.blocks, isRunning toolId b.content = false) :
    ∀ entry ∈ Web.closedHistory interrupted history t, ∀ block ∈ entry.message.blocks,
      isRunning toolId block = false := by
  intro entry hentry
  rcases List.mem_append.mp hentry with hentry | hentry
  · obtain ⟨entry,hold,rfl⟩ := List.mem_map.mp hentry
    split
    · exact h entry hold
    · exact h entry hold
  · obtain ⟨i,hi,rfl⟩ := List.mem_mapIdx.mp hentry
    exact projected (fun s hs => ht s (List.mem_of_mem_drop hs)) (List.getElem_mem hi)

private theorem closedViews {views : String → List MemberViewEntry} {t : TurnDraft}
    {interrupted : Bool} (h : ∀ member, ∀ entry ∈ views member, ∀ block ∈ entry.message.blocks,
      isRunning toolId block = false)
    (ht : ∀ s ∈ t.steps, ∀ b ∈ s.blocks, isRunning toolId b.content = false) :
    ∀ member, ∀ entry ∈ Web.closedViews interrupted views t member, ∀ block ∈ entry.message.blocks,
      isRunning toolId block = false := by
  intro member entry hentry
  by_cases hm : member = t.member
  · subst hm
    rw [Web.closedViews,Function.update_self] at hentry
    rcases List.mem_append.mp hentry with hentry | hentry
    · obtain ⟨entry,hold,rfl⟩ := List.mem_map.mp hentry
      exact h t.member entry hold
    · obtain ⟨message,hmessage,rfl⟩ := List.mem_map.mp hentry
      exact projected (fun s hs => ht s (List.mem_of_mem_drop hs)) hmessage
  · rw [Web.closedViews,Function.update_of_ne hm] at hentry
    exact h member entry hentry

private theorem foldl_closed {turns : List TurnDraft} {interrupted : Bool}
    (hturns : ∀ t ∈ turns, ∀ s ∈ t.steps, ∀ b ∈ s.blocks, isRunning toolId b.content = false)
    {history : List TeamMessageEntry} {views : String → List MemberViewEntry}
    (h : ∀ entry ∈ history, ∀ block ∈ entry.message.blocks, isRunning toolId block = false)
    (hviews : ∀ member, ∀ entry ∈ views member, ∀ block ∈ entry.message.blocks,
      isRunning toolId block = false) :
    NoneRunning toolId ⟨turns.foldl (Web.closedHistory interrupted) history,
      turns.foldl (Web.closedViews interrupted) views,[]⟩ := by
  induction turns generalizing history views with
  | nil => exact ⟨h,hviews,fun t ht => by cases ht⟩
  | cons t turns ih =>
    have ht := hturns t List.mem_cons_self
    exact ih (fun t ht => hturns t (List.mem_cons_of_mem _ ht)) (closedHistory h ht)
      (closedViews hviews ht)

private theorem consumeDrafts {live : List TurnDraft}
    (h : ∀ t ∈ live, ∀ s ∈ t.steps, ∀ b ∈ s.blocks,
    isRunning toolId b.content = false) (member : String) :
    ∀ t ∈ Web.consumeDrafts member live, ∀ s ∈ t.steps, ∀ b ∈ s.blocks,
      isRunning toolId b.content = false := by
  intro t ht
  rw [Web.consumeDrafts] at ht
  split at ht
  · exact h t ht
  · obtain ⟨t',ht',rfl | rfl⟩ := mem_modify ht
    · exact h _ ht'
    · exact h t' ht'

/-- A message whose calls are not running. -/
theorem teamMessage (h : NoneRunning toolId v) (member : String) {message : HistoryMessage}
    (hmessage : ∀ block ∈ message.blocks, isRunning toolId block = false) (seq : Int) :
    NoneRunning toolId (v.teamMessage member message seq) := by
  simp only [View.teamMessage]
  split
  · exact h
  · split
    · exact h
    · refine ⟨fun entry hentry => ?_,fun member' entry hentry => ?_,consumeDrafts h.live member⟩
      · simp only at hentry
        split at hentry
        · rcases List.mem_or_eq_of_mem_set hentry with hentry | rfl
          · exact h.history entry hentry
          · exact hmessage
        · rcases mem_insertBySeq.mp hentry with rfl | hentry
          · exact hmessage
          · exact h.history entry hentry
      · have hold : entry ∈ v.memberHistory member' ∨ entry.message = message := by
          by_cases huser : member = USER_MEMBER
          · rw [if_pos huser] at hentry
            exact .inl hentry
          · rw [if_neg huser] at hentry
            exact mem_appendMemberView hentry
        rcases hold with hold | hsame
        · exact h.memberHistory member' entry hold
        · exact hsame ▸ hmessage

private theorem memberView (h : NoneRunning toolId v) (member sender : String)
    {message : HistoryMessage}
    (hmessage : ∀ block ∈ message.blocks, isRunning toolId block = false) :
    NoneRunning toolId (v.memberView member sender message) := by
  simp only [View.memberView]
  split
  · exact h
  · refine ⟨h.history,fun member' entry hentry => ?_,h.live⟩
    rcases mem_appendMemberInputView hentry with hold | hsame
    · exact h.memberHistory member' entry hold
    · exact hsame ▸ hmessage

private theorem edit (h : NoneRunning toolId v) {f : List StepDraft → List StepDraft}
    (hf : ∀ t ∈ v.live, ∀ s ∈ f t.steps, ∀ b ∈ s.blocks, isRunning toolId b.content = false) :
    NoneRunning toolId (v.mapLive (editDraft k f)) := by
  refine ⟨h.history,h.memberHistory,fun t' ht' => ?_⟩
  obtain ⟨t,ht,rfl⟩ := List.mem_map.mp ht'
  by_cases hk : t.key = k
  · rw [editDraft_of_key hk]
    exact hf t ht
  · rw [editDraft_of_ne hk]
    exact h.live t ht

/-- After the result of a tool none of its calls is running. -/
theorem settle {id result : String} {status : ToolStatus} (hstatus : status ≠ .running)
    (h : NoneRunning toolId v ∨ id = toolId) :
    NoneRunning toolId (v.settle id status result) := by
  have hblock {block : ContentBlock} (hold : NoneRunning toolId v → isRunning toolId block = false) :
      isRunning toolId (settleBlock id status result block) = false :=
    isRunning_settleBlock hstatus (h.imp_left hold)
  have hblocks {message : HistoryMessage}
      (hold : NoneRunning toolId v → ∀ block ∈ message.blocks, isRunning toolId block = false) :
      ∀ block ∈ (settleMessage id status result message).blocks, isRunning toolId block = false := by
    intro block hmem
    obtain ⟨block,hb,rfl⟩ := List.mem_map.mp hmem
    exact hblock fun h => hold h block hb
  refine ⟨fun entry hentry => ?_,fun member entry hentry => ?_,fun t ht s hs b hb => ?_⟩
  · obtain ⟨entry,hold,rfl⟩ := List.mem_map.mp hentry
    exact hblocks fun h => h.history entry hold
  · obtain ⟨entry,hold,rfl⟩ := List.mem_map.mp hentry
    exact hblocks fun h => h.memberHistory member entry hold
  · obtain ⟨t₀,ht₀,rfl⟩ := List.mem_map.mp ht
    obtain ⟨s₀,hs₀,rfl⟩ := List.mem_map.mp hs
    obtain ⟨b₀,hb₀,rfl⟩ := List.mem_map.mp hb
    exact hblock fun h => h.live t₀ ht₀ s₀ hs₀ b₀ hb₀

/-- An entry that shows no running call of the tool. -/
theorem after (h : NoneRunning toolId v) (hy : y.runs toolId = false)
    (hstatus : ∀ e ∈ y.event?, e.Addressed) : NoneRunning toolId (v.after y.shown) := by
  cases y with
  | ended => exact foldl_closed h.live h.history h.memberHistory
  | frame p e =>
    have haddressed := hstatus e rfl
    have hclose (interrupted : Bool) : NoneRunning toolId (v.close e.turn interrupted) := by
      rw [View.close]
      split
      · exact h
      · rename_i t hfind
        have ht := h.live t (List.mem_of_find?_eq_some hfind)
        exact ⟨closedHistory h.history ht,closedViews h.memberHistory ht,fun t' ht' =>
          h.live t' (List.mem_filter.mp ht').1⟩
    obtain ⟨member,turnId,body⟩ := e
    cases body with
    | queued position => exact h
    | teamMessage member' message seq =>
      exact h.teamMessage member' (by simpa [Entry.runs,ChatEvent.runs] using hy) seq
    | memberView member' sender message =>
      exact h.memberView member' sender (by simpa [Entry.runs,ChatEvent.runs] using hy)
    | turnStart =>
      simp only [Entry.shown,View.after,View.apply,View.turnStart]
      split
      · exact h
      · refine ⟨h.history,h.memberHistory,fun t ht => ?_⟩
        rcases List.mem_append.mp ht with ht | ht
        · exact h.live t ht
        · rw [List.mem_singleton.mp ht]
          exact fun s hs => by cases hs
    | blockStart step index type id name =>
      refine h.edit fun t ht s hs b hb => ?_
      have hat : BlockAt (appendBlockStart t.steps (eventStep step)
        (blockStartDraft index type id name)) (s.step,b.index) b := ⟨s,hs,rfl,hb,rfl⟩
      rcases blockAt_appendBlockStart hat with hold | ⟨_,rfl⟩
      · exact blockAt (h.live t ht) hold
      · exact hy
    | delta step index text =>
      refine h.edit fun t ht s hs b hb => ?_
      have hdelta : (⟨member,turnId,.delta step index text⟩ : ChatEvent).deltaOf =
          some (blockKey step index,text) := rfl
      rw [ChatEvent.edit_deltaOf hdelta] at hs
      refine mapBlocks (placed_atBlock (fun b => by simp) _) (h.live t ht) (fun key b hb => ?_) hs hb
      unfold atBlock
      split
      · simpa using hb
      · exact hb
    | blockEnd step index block =>
      refine h.edit fun t ht s hs b hb => ?_
      have hend : (⟨member,turnId,.blockEnd step index block⟩ : ChatEvent).endOf =
          some (blockKey step index,block) := rfl
      rw [ChatEvent.edit_endOf hend] at hs
      refine mapBlocks (placed_atBlock (fun b => by simp) _) (h.live t ht) (fun key b hb => ?_) hs hb
      unfold atBlock
      split
      · exact isRunning_blockEndTerminal hb hy
      · exact hb
    | toolResult id status result => exact settle haddressed (.inl h)
    | turnEnd status error =>
      cases status with
      | unspecified => exact h
      | aborted =>
        exact ⟨fun _ h => (List.not_mem_nil h).elim,fun _ _ h => (List.not_mem_nil h).elim,
          fun _ h => (List.not_mem_nil h).elim⟩
      | completed => exact hclose false
      | error => exact hclose true
      | canceled => exact hclose true
    | unknown => exact h

private theorem foldl (h : NoneRunning toolId v) (hB : ∀ y ∈ B, y.runs toolId = false)
    (hstatus : ∀ y ∈ B, ∀ e ∈ y.event?, e.Addressed) :
    NoneRunning toolId ((told B).foldl View.after v) := by
  induction B generalizing v with
  | nil => exact h
  | cons y B ih =>
    exact ih (h.after (hB y List.mem_cons_self) (hstatus y List.mem_cons_self))
      (fun z hz => hB z (List.mem_cons_of_mem _ hz)) fun z hz => hstatus z (List.mem_cons_of_mem _ hz)

/-- A tool that has settled does not settle again. -/
theorem settle_eq (h : NoneRunning toolId v) (status : ToolStatus) (result : String) :
    v.settle toolId status result = v := by
  have hmessage {message : HistoryMessage}
      (h : ∀ block ∈ message.blocks, isRunning toolId block = false) :
      settleMessage toolId status result message = message := by
    have hblocks : message.blocks.map (settleBlock toolId status result) = message.blocks :=
      (List.map_congr_left fun b hb => settleBlock_of_not_running (h b hb)).trans (List.map_id' _)
    rw [settleMessage,hblocks]
  obtain ⟨history,memberHistory,live⟩ := v
  simp only [View.settle]
  congr 1
  · refine (List.map_congr_left fun entry hentry => ?_).trans (List.map_id' _)
    rw [settleHistoryEntry,hmessage (h.history entry hentry)]
  · funext member
    refine (List.map_congr_left fun entry hentry => ?_).trans (List.map_id' _)
    rw [hmessage (h.memberHistory member entry hentry)]
  · refine (List.map_congr_left fun t ht => ?_).trans (List.map_id' _)
    have hsteps : settleSteps toolId status result t.steps = t.steps := by
      refine (List.map_congr_left fun s hs => ?_).trans (List.map_id' _)
      have hblocks : s.blocks.map (settleDraft toolId status result) = s.blocks :=
        (List.map_congr_left fun b hb => by
          rw [settleDraft,settleBlock_of_not_running (h.live t ht s hs b hb)]).trans (List.map_id' _)
      rw [hblocks]
    rw [TurnDraft.settle,hsteps]

end NoneRunning

/-! ### Frames that are told again -/

private theorem mem_current {P Q : List ChatEvent} (he : e.aborts = false)
    (hQ : ∀ e' ∈ Q, e'.aborts = false) :
    e ∈ current (P ++ e :: Q) := by
  induction Q using List.reverseRecOn with
  | nil =>
    rw [current_concat,he]
    simp
  | append_singleton Q e' ih =>
    have hsplit : P ++ e :: (Q ++ [e']) = (P ++ e :: Q) ++ [e'] := by simp
    rw [hsplit,current_concat,hQ e' (by simp)]
    exact List.mem_append_left _ (ih fun e hQ' => hQ e (List.mem_append_left _ hQ'))

private theorem mem_current_told (he : e.aborts = false) (hB : ∀ y ∈ B, y.aborts = false) :
    e ∈ current ((A ++ .frame p e :: B).filterMap Entry.event?) := by
  have hsplit : (A ++ .frame p e :: B).filterMap Entry.event? =
      A.filterMap Entry.event? ++ e :: B.filterMap Entry.event? := by
    simp [List.filterMap_append,Entry.event?]
  rw [hsplit]
  refine mem_current he fun e' he' => ?_
  obtain ⟨y,hy,hevent⟩ := List.mem_filterMap.mp he'
  cases y with
  | ended => cases hevent
  | frame q e'' =>
    cases hevent
    exact hB _ hy

theorem apply_of_not_live {v : View} (he : e.blockOf = some key) (h : v.isLive e.turn = false) :
    v.apply e = v := by
  have hgone : ∀ t ∈ v.live, t.key ≠ e.turn := by simpa [View.isLive] using h
  obtain ⟨history,memberHistory,live⟩ := v
  rw [View.apply_block he,View.mapLive]
  congr 1
  exact (List.map_congr_left fun t ht => editDraft_of_ne (hgone t ht) _).trans (List.map_id' _)

namespace Ordered

variable (h : Ordered frames (A ++ .frame p e :: B)) (hf : Fanned frames)
include h hf

omit h hf in
private theorem again_turnStart (hbody : e.body = .turnStart)
    (hB : ∀ y ∈ B, y.stops e.turn = false) :
    (View.run (told (A ++ .frame p e :: B))).turnStart e.turn =
      View.run (told (A ++ .frame p e :: B)) := by
  have hlive : (View.run (told (A ++ .frame p e :: B))).isLive e.turn = true := by
    rw [run_split]
    refine View.isLive_foldl ?_ hB
    have hafter := View.isLive_after (View.run (told A)) (.frame p e) e.turn
    have hstarts : Entry.starts e.turn (.frame p e) = true := by simp [Entry.starts,hbody]
    rw [hstarts,Bool.or_true] at hafter
    exact hafter
  exact if_pos hlive

private theorem again_teamMessage {member : String} {message : HistoryMessage} {seq : Int}
    (hbody : e.body = .teamMessage member message seq) (hB : ∀ y ∈ B, y.aborts = false) :
    (View.run (told (A ++ .frame p e :: B))).teamMessage member message seq =
      View.run (told (A ++ .frame p e :: B)) := by
  rw [View.teamMessage]
  split
  · rfl
  · rename_i hm
    have hmem := mem_current_told (A := A) (p := p) (e := e) (by simp [ChatEvent.aborts,hbody]) hB
    obtain ⟨entry,hentry,hreal,hseq⟩ := (h.anchored hf).seqs e hmem member message seq hbody hm
    have hhistory : (single (told (A ++ .frame p e :: B))).history =
        (View.run (told (A ++ .frame p e :: B))).history := congrArg View.history (h.view hf)
    rw [hhistory] at hentry
    exact if_pos (List.any_eq_true.mpr ⟨entry,hentry,by simp [hreal,hseq]⟩)

private theorem again_memberView {member sender : String} {message : HistoryMessage}
    (hbody : e.body = .memberView member sender message) (hB : ∀ y ∈ B, y.aborts = false) :
    (View.run (told (A ++ .frame p e :: B))).memberView member sender message =
      View.run (told (A ++ .frame p e :: B)) := by
  rw [View.memberView]
  split
  · rfl
  · rename_i hm
    obtain ⟨hm,hu⟩ := not_or.mp hm
    have hnamed : message.messageId ≠ "" := by
      have haddressed := hf.addressed e (List.mem_of_getElem? h.frame)
      simpa [ChatEvent.Addressed,hbody] using haddressed
    have hmem := mem_current_told (A := A) (p := p) (e := e) (by simp [ChatEvent.aborts,hbody]) hB
    obtain ⟨entry,hentry,_,hid⟩ := (h.anchored hf).ids e hmem member sender message hbody hm hu
    have hviews : (single (told (A ++ .frame p e :: B))).memberHistory =
        (View.run (told (A ++ .frame p e :: B))).memberHistory :=
      congrArg View.memberHistory (h.view hf)
    rw [hviews] at hentry
    have hany : ((View.run (told (A ++ .frame p e :: B))).memberHistory member).any
        (fun entry => entry.message.messageId = message.messageId) = true :=
      List.any_eq_true.mpr ⟨entry,hentry,by simp [hid]⟩
    rw [appendMemberInputView,if_pos ⟨hnamed,hany⟩]

private theorem again_blockStart {draft : BlockDraft} (hstart : e.startOf = some (key,draft)) :
    (View.run (told (A ++ .frame p e :: B))).apply e = View.run (told (A ++ .frame p e :: B)) := by
  have hstarted : ∀ t ∈ (View.run (told (A ++ .frame p e :: B))).live,
      editDraft e.turn e.edit t = t := by
    intro t ht
    by_cases hk : t.key = e.turn
    · obtain ⟨turn,hturn,rfl⟩ := h.exists_turn hf ht
      have hmem : e ∈ (A ++ .frame p e :: B).filterMap Entry.event? :=
        List.mem_filterMap.mpr ⟨.frame p e,by simp,rfl⟩
      have hthere := ((h.anchored hf).turns turn hturn).started e hmem hk.symm key draft hstart
      rw [editDraft_of_key hk,ChatEvent.edit_startOf hstart]
      rw [appendBlockStart_of_started]
      rw [ChatEvent.startOf_index hstart]
      exact hthere
    · exact editDraft_of_ne hk _
  rw [View.apply_block (ChatEvent.blockOf_of_startOf hstart).1,View.mapLive]
  rw [(List.map_congr_left hstarted).trans (List.map_id' _)]

private theorem again_blockEnd {block : ContentBlock} (hend : e.endOf = some (key,block))
    (hB : ∀ y ∈ B, y.settles e = false) :
    (View.run (told (A ++ .frame p e :: B))).apply e = View.run (told (A ++ .frame p e :: B)) := by
  obtain ⟨hblock,hstart,_⟩ := ChatEvent.blockOf_of_endOf hend
  cases hlive : (View.run (told (A ++ .frame p e :: B))).isLive e.turn with
  | false => exact apply_of_not_live hblock hlive
  | true =>
    have hagain (v : View) : (v.apply e).apply e = v.apply e := by
      simp only [View.apply_block hblock,View.mapLive,List.map_map]
      congr 1
      refine List.map_congr_left fun t _ => ?_
      by_cases hk : t.key = e.turn
      · have hk' : (editDraft e.turn e.edit t).key = e.turn := (editDraft_key _ t).trans hk
        rw [Function.comp_apply,editDraft_of_key hk',editDraft_of_key hk]
        simp only [ChatEvent.edit_endOf hend]
        rw [mapBlocks_mapBlocks (placed_atBlock (fun b => by simp) key)]
        congr 1
        refine mapBlocks_congr fun k b _ => ?_
        by_cases hkey : k = key
        · simp [atBlock,hkey,blockEndTerminal_blockEndTerminal]
        · simp [atBlock,hkey]
      · rw [Function.comp_apply,editDraft_of_ne hk,editDraft_of_ne hk]
    have hcomm : ∀ y ∈ B, ∀ v : View, (v.after y.shown).apply e = (v.apply e).after y.shown := by
      intro y hy
      refine View.after_comm hblock (passes_of_open (h.not_stops hf hlive hy) (h.not_starts hf hy)
        hstart (hB y hy) fun e' he' hturn => ?_)
      cases y with
      | ended => cases he'
      | frame q e'' =>
        cases he'
        rw [hblock]
        intro hblock'
        have hlt := h.lt_of_mem hy
        have hgt := lt_of_end hf h.frame (h.later hy) hend hturn hblock' (Nat.ne_of_lt hlt)
        omega
    have hsplit : told (A ++ .frame p e :: B) = told A ++ .frame e :: told B := by
      simp only [told,List.map_append,List.map_cons]
      rfl
    rw [hsplit]
    refine foldl_again (f := View.after) (a := Shown.frame e) (fun y hy v => ?_) hagain {} (told A)
    obtain ⟨z,hz,rfl⟩ := List.mem_map.mp hy
    exact hcomm z hz v

private theorem again_toolResult {toolId result : String} {status : ToolStatus}
    (hbody : e.body = .toolResult toolId status result) (hB : ∀ y ∈ B, y.runs toolId = false) :
    (View.run (told (A ++ .frame p e :: B))).settle toolId status result =
      View.run (told (A ++ .frame p e :: B)) := by
  refine NoneRunning.settle_eq ?_ status result
  have hstatus : status ≠ .running := by
    have haddressed := hf.addressed e (List.mem_of_getElem? h.frame)
    simpa [ChatEvent.Addressed,hbody] using haddressed
  have hsettled : (View.run (told A)).apply e =
      (View.run (told A)).settle toolId status result := by
    simp only [View.apply,hbody]
  rw [run_split,hsettled]
  refine (NoneRunning.settle hstatus (.inr rfl)).foldl hB fun y hy e' he' => ?_
  cases y with
  | ended => cases he'
  | frame q e'' =>
    cases he'
    exact hf.addressed _ (List.mem_of_getElem? (h.later hy))

/-- A turn that was closed is not live. -/
theorem not_live_of_closes (hcloses : e.closes = true) :
    (View.run (told (A ++ .frame p e :: B))).isLive e.turn = false := by
  rw [Bool.eq_false_iff]
  intro hlive
  obtain ⟨t,ht,hk⟩ := List.any_eq_true.mp hlive
  obtain ⟨turn,hturn,rfl⟩ := h.exists_turn hf ht
  have hmem : e ∈ (A ++ .frame p e :: B).filterMap Entry.event? :=
    List.mem_filterMap.mpr ⟨.frame p e,by simp,rfl⟩
  exact (h.anchored hf).closed e hmem hcloses turn hturn (of_decide_eq_true hk)

omit h hf in
private theorem again_aborts (haborts : e.aborts = true) (hB : ∀ y ∈ B, y.quiet = true) :
    View.run (told (A ++ .frame p e :: B)) = {} := by
  have hempty : ∀ y ∈ B, ({} : View).after y.shown = {} := by
    intro y hy
    have hquiet := hB y hy
    cases y with
    | ended => rfl
    | frame q e' =>
      obtain ⟨member,turnId,body⟩ := e'
      cases body with
      | turnEnd status error => cases status <;> rfl
      | teamMessage member' message seq => cases hquiet
      | memberView member' sender message => cases hquiet
      | turnStart => cases hquiet
      | _ => rfl
  rw [run_split,View.apply_aborts haborts]
  clear hB
  induction B with
  | nil => rfl
  | cons y B ih =>
    have hstep : (told (y :: B)).foldl View.after {} =
        (told B).foldl View.after (({} : View).after y.shown) := rfl
    rw [hstep,hempty y List.mem_cons_self]
    exact ih fun z hz => hempty z (List.mem_cons_of_mem _ hz)

/-- A frame that may come again shows nothing. -/
theorem again (hdelta : e.deltaOf = none) (hB : MayRepeat e B) :
    (View.run (told (A ++ .frame p e :: B))).apply e = View.run (told (A ++ .frame p e :: B)) := by
  cases hbody : e.body with
  | queued position => simp only [View.apply,hbody]
  | teamMessage member message seq =>
    simp only [View.apply,hbody]
    exact h.again_teamMessage hf hbody (hB.message (by simp [ChatEvent.tells,hbody]))
  | memberView member sender message =>
    simp only [View.apply,hbody]
    exact h.again_memberView hf hbody (hB.message (by simp [ChatEvent.tells,hbody]))
  | turnStart =>
    simp only [View.apply,hbody]
    exact again_turnStart hbody (hB.turnStart hbody)
  | blockStart step index type toolId name =>
    have hstart : e.startOf = some (blockKey step index,blockStartDraft index type toolId name) := by
      simp [ChatEvent.startOf,hbody]
    exact h.again_blockStart hf hstart
  | delta step index text => simp [ChatEvent.deltaOf,hbody] at hdelta
  | blockEnd step index block =>
    have hend : e.endOf = some (blockKey step index,block) := by simp [ChatEvent.endOf,hbody]
    exact h.again_blockEnd hf hend (hB.blockEnd (by simp [hend]))
  | toolResult toolId status result =>
    simp only [View.apply,hbody]
    exact h.again_toolResult hf hbody (hB.toolResult toolId status result hbody)
  | turnEnd status error =>
    by_cases hcloses : e.closes = true
    · have hgone := h.not_live_of_closes hf hcloses
      have hnone : (View.run (told (A ++ .frame p e :: B))).live.find? (fun t => t.key = e.turn) =
          none := by simpa [View.isLive] using hgone
      rw [View.apply_closes hcloses,View.close,hnone]
    · by_cases haborts : e.aborts = true
      · rw [View.apply_aborts haborts,again_aborts haborts (hB.aborts haborts)]
      · refine View.apply_idle ?_ _
        cases status <;> simp_all [ChatEvent.closes,ChatEvent.aborts,ChatEvent.idle]
  | unknown => simp only [View.apply,hbody]

end Ordered

end Dominion.Web
