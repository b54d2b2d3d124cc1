import Dominion.Framework.Lts
import Dominion.Web.Frames
import Mathlib.Data.List.Nodup
import Mathlib.Data.List.TakeWhile

/-! # What the chat store keeps

The merged sequence in the order of its seqs, one view entry for each message id, open marks on the
members of live turns only, and drafts that are numbered once. -/
namespace Dominion.Web

open Dominion.Framework
open Dominion.Chat (ContentBlock HistoryMessage ToolStatus)

/-! ### What is kept -/

/-- A real entry stands after the smaller seqs; a placeholder may stand anywhere. -/
def Before (a b : TeamMessageEntry) : Prop :=
  b.projected = false → if a.projected then a.seq ≤ b.seq else a.seq < b.seq

/-- Two entries of a view with different ids, unless the first one has none. -/
def Apart (a b : MemberViewEntry) : Prop :=
  a.message.messageId ≠ "" → a.message.messageId ≠ b.message.messageId

/-- The steps of a turn, and the blocks of each step, are numbered once. -/
def Numbered (steps : List StepDraft) : Prop :=
  (steps.map StepDraft.step).Nodup ∧ ∀ s ∈ steps, (s.blocks.map BlockDraft.index).Nodup

structure Regular (s : ChatState) : Prop where
  history : s.history.Pairwise Before
  views : ∀ member, (s.memberHistory member).Pairwise Apart
  openHistory : ∀ e ∈ s.history, e.isOpen = true → ∃ t ∈ s.live, t.member = e.member
  openViews : ∀ member, ∀ e ∈ s.memberHistory member, e.isOpen = true →
    ∃ t ∈ s.live, t.member = member
  fixed : ∀ t ∈ s.live, t.fixedSteps ≤ t.steps.length
  drafts : ∀ t ∈ s.live, Numbered t.steps

/-! ### The drafts -/

section numbered

variable {steps : List StepDraft}

private theorem Numbered.map (h : Numbered steps) {f : StepDraft → StepDraft}
    (hf : ∀ s, (f s).step = s.step ∧
      ((s.blocks.map BlockDraft.index).Nodup → ((f s).blocks.map BlockDraft.index).Nodup)) :
    Numbered (steps.map f) := by
  constructor
  · have hsteps : (steps.map f).map StepDraft.step = steps.map StepDraft.step := by
      rw [List.map_map]
      exact List.map_congr_left fun s _ => (hf s).1
    rw [hsteps]
    exact h.1
  · intro s' hs'
    obtain ⟨s,hs,rfl⟩ := List.mem_map.mp hs'
    exact (hf s).2 (h.2 s hs)

private theorem Numbered.mapStepBlocks (h : Numbered steps) (step index : Int)
    {f : BlockDraft → BlockDraft} (hf : ∀ b, (f b).index = b.index) :
    Numbered (mapStepBlocks steps step index f) := by
  apply h.map
  intro s
  split_ifs with hstep
  · have hindexes : (s.blocks.map fun b => if b.index = index then f b else b).map
        BlockDraft.index = s.blocks.map BlockDraft.index := by
      rw [List.map_map]
      apply List.map_congr_left
      intro b _
      simp only [Function.comp_apply]
      split_ifs with hindex
      · exact hf b
      · rfl
    exact ⟨rfl,fun hnodup => by rw [hindexes]; exact hnodup⟩
  · exact ⟨rfl,id⟩

private theorem Numbered.settleSteps (h : Numbered steps) (toolId : String) (status : ToolStatus)
    (result : String) : Numbered (settleSteps toolId status result steps) := by
  apply h.map
  intro s
  have hindexes : (s.blocks.map (settleDraft toolId status result)).map BlockDraft.index =
      s.blocks.map BlockDraft.index := by
    rw [List.map_map]
    rfl
  exact ⟨rfl,fun hnodup => by rw [hindexes]; exact hnodup⟩

private theorem Numbered.appendBlockStart (h : Numbered steps) (step : Int) (draft : BlockDraft) :
    Numbered (appendBlockStart steps step draft) := by
  unfold Dominion.Web.appendBlockStart
  cases hfind : steps.find? fun s => s.step = step with
  | none =>
    have hnew : ∀ s ∈ steps, s.step ≠ step := by simpa using hfind
    have hsettled : Numbered (steps.map fun s => { s with settled := true }) :=
      h.map fun s => ⟨rfl,id⟩
    constructor
    · rw [List.map_append,List.nodup_append]
      refine ⟨hsettled.1,by simp,?_⟩
      intro a ha b hb hab
      simp only [List.map_map,List.mem_map,Function.comp_apply] at ha
      obtain ⟨s,hs,rfl⟩ := ha
      simp only [List.map_cons,List.map_nil,List.mem_singleton] at hb
      exact hnew s hs (hab.trans hb)
    · intro s hs
      rcases List.mem_append.mp hs with hs | hs
      · exact hsettled.2 s hs
      · rw [List.mem_singleton.mp hs]
        simp
  | some group =>
    have hgroup : group.step = step := by simpa using List.find?_some hfind
    have hmem := List.mem_of_find?_eq_some hfind
    dsimp only
    split_ifs with hany
    · exact h
    · have hfresh : ∀ b ∈ group.blocks, b.index ≠ draft.index := by simpa using hany
      constructor
      · have hsteps : (steps.map fun s =>
            if s.step = step then { s with blocks := s.blocks ++ [draft] } else s).map
              StepDraft.step = steps.map StepDraft.step := by
          rw [List.map_map]
          apply List.map_congr_left
          intro s _
          simp only [Function.comp_apply]
          split_ifs <;> rfl
        rw [hsteps]
        exact h.1
      · intro s' hs'
        obtain ⟨s,hs,rfl⟩ := List.mem_map.mp hs'
        split_ifs with hstep
        · -- the steps are numbered once, so this is the group that was found
          have hsame : s = group := by
            apply (List.nodup_map_iff_inj_on (List.Nodup.of_map _ h.1)).mp h.1 s hs group hmem
            rw [hstep,hgroup]
          subst hsame
          rw [List.map_append,List.nodup_append]
          refine ⟨h.2 s hs,by simp,?_⟩
          intro a ha b hb hab
          obtain ⟨c,hc,rfl⟩ := List.mem_map.mp ha
          simp only [List.map_cons,List.map_nil,List.mem_singleton] at hb
          exact hfresh c hc (hab.trans hb)
        · exact h.2 s hs

private theorem length_appendBlockStart (steps : List StepDraft) (step : Int) (draft : BlockDraft) :
    steps.length ≤ (appendBlockStart steps step draft).length := by
  unfold appendBlockStart
  split
  · split_ifs <;> simp
  · simp

end numbered

/-! ### The merged sequence -/

section sequence

variable {history : List TeamMessageEntry} {entry : TeamMessageEntry}

private theorem before_map (h : history.Pairwise Before) {f : TeamMessageEntry → TeamMessageEntry}
    (hf : ∀ e, (f e).projected = e.projected ∧ (f e).seq = e.seq) :
    (history.map f).Pairwise Before := by
  rw [List.pairwise_map]
  refine h.imp fun {a b} hab => ?_
  simp only [Before,(hf a).1,(hf a).2,(hf b).1,(hf b).2]
  exact hab

private theorem before_of_le {a b : TeamMessageEntry} (h : a.seq ≤ b.seq)
    (hreal : a.projected = false → a.seq ≠ b.seq) : Before a b := by
  intro _
  split_ifs with hprojected
  · exact h
  · have hne := hreal (by simpa using hprojected)
    omega

private theorem before_append_projected (h : history.Pairwise Before) {more : List TeamMessageEntry}
    (hmore : ∀ e ∈ more, e.projected = true) : (history ++ more).Pairwise Before := by
  rw [List.pairwise_append]
  have hany : ∀ a, ∀ b ∈ more, Before a b := by
    intro a b hb hreal
    rw [hmore b hb] at hreal
    cases hreal
  refine ⟨h,?_,fun a _ b hb => hany a b hb⟩
  exact List.pairwise_of_forall_mem_list fun a _ b hb => hany a b hb

private theorem before_middle {xs ys : List TeamMessageEntry} (h : (xs ++ ys).Pairwise Before)
    (hleft : ∀ a ∈ xs, Before a entry) (hright : ∀ b ∈ ys, Before entry b) :
    (xs ++ entry :: ys).Pairwise Before := by
  rw [List.pairwise_append] at h ⊢
  obtain ⟨hxs,hys,hcross⟩ := h
  refine ⟨hxs,List.pairwise_cons.mpr ⟨hright,hys⟩,?_⟩
  intro a ha b hb
  rcases List.mem_cons.mp hb with rfl | hb
  · exact hleft a ha
  · exact hcross a ha b hb

private theorem before_insertBySeq (h : history.Pairwise Before)
    (hfresh : ∀ e ∈ history, e.projected = false → e.seq ≠ entry.seq)
    (hreal : entry.projected = false) : (insertBySeq history entry).Pairwise Before := by
  have hsplit := List.takeWhile_append_dropWhile (p := fun e => decide (e.seq ≤ entry.seq))
    (l := history)
  have hall : (history.takeWhile (fun e => e.seq ≤ entry.seq) ++
      history.dropWhile fun e => e.seq ≤ entry.seq).Pairwise Before := by rwa [hsplit]
  apply before_middle hall
  · intro a ha
    have hle : a.seq ≤ entry.seq := by simpa using List.mem_takeWhile_imp ha
    exact before_of_le hle (hfresh a ((List.takeWhile_sublist _).subset ha))
  · -- the first entry behind the place has a greater seq, and the real ones follow it
    have hbehind := (List.pairwise_append.mp hall).2.1
    cases hdrop : history.dropWhile fun e => decide (e.seq ≤ entry.seq) with
    | nil => simp
    | cons first rest =>
      have hfirst : entry.seq < first.seq := by
        have hnot := List.head?_dropWhile_not
          (fun e : TeamMessageEntry => decide (e.seq ≤ entry.seq)) history
        simp only [hdrop,List.head?_cons] at hnot
        simpa using hnot
      rw [hdrop,List.pairwise_cons] at hbehind
      intro b hb hb'
      rw [if_neg (by simp [hreal])]
      rcases List.mem_cons.mp hb with rfl | hb
      · exact hfirst
      · have hlater := hbehind.1 b hb hb'
        split_ifs at hlater
        · omega
        · omega

/-- The real entry in the place of a placeholder, if it belongs there. -/
theorem before_set (h : history.Pairwise Before) {i : Nat}
    (hfresh : ∀ e ∈ history, e.projected = false → e.seq ≠ entry.seq)
    (hreal : entry.projected = false) (hbefore : ∀ e ∈ history.take i, e.seq ≤ entry.seq)
    (hafter : ∀ e ∈ history.drop (i + 1), e.projected = false → entry.seq ≤ e.seq) :
    (history.set i entry).Pairwise Before := by
  rw [List.set_eq_take_append_cons_drop]
  split_ifs with hlt
  · have hrest : (history.take i ++ history.drop (i + 1)).Pairwise Before := by
      rw [← List.eraseIdx_eq_take_drop_succ]
      exact h.sublist (List.eraseIdx_sublist history i)
    apply before_middle hrest
    · intro a ha
      exact before_of_le (hbefore a ha) (hfresh a (List.mem_of_mem_take ha))
    · intro b hb hb'
      rw [if_neg (by simp [hreal])]
      have hle := hafter b hb hb'
      have hne := hfresh b (List.mem_of_mem_drop hb) hb'
      omega
  · exact h

end sequence

/-! ### The views -/

section views

variable {view : List MemberViewEntry} {entry : MemberViewEntry}

private theorem apart_map (h : view.Pairwise Apart) {f : MemberViewEntry → MemberViewEntry}
    (hf : ∀ e, (f e).message.messageId = e.message.messageId) : (view.map f).Pairwise Apart := by
  rw [List.pairwise_map]
  refine h.imp fun {a b} hab => ?_
  simp only [Apart,hf a,hf b]
  exact hab

private theorem apart_append (h : view.Pairwise Apart) {more : List MemberViewEntry}
    (hmore : more.Pairwise Apart)
    (hnew : ∀ a ∈ view, ∀ b ∈ more, Apart a b) : (view ++ more).Pairwise Apart :=
  List.pairwise_append.mpr ⟨h,hmore,hnew⟩

/-- An id that the view does not have. -/
def Fresh (view : List MemberViewEntry) (id : String) : Prop :=
  id = "" ∨ ∀ e ∈ view, e.message.messageId ≠ id

private theorem apart_left (hnew : Fresh view entry.message.messageId) {a : MemberViewEntry}
    (ha : a ∈ view) : Apart a entry := by
  intro hid hsame
  cases hnew with
  | inl hempty => exact hid (hsame.trans hempty)
  | inr hnone => exact hnone a ha hsame

private theorem apart_right (hnew : Fresh view entry.message.messageId) {b : MemberViewEntry}
    (hb : b ∈ view) : Apart entry b := by
  intro hid hsame
  cases hnew with
  | inl hempty => exact hid hempty
  | inr hnone => exact hnone b hb hsame.symm

private theorem apart_snoc (h : view.Pairwise Apart) (hnew : Fresh view entry.message.messageId) :
    (view ++ [entry]).Pairwise Apart := by
  apply apart_append h (List.pairwise_singleton _ _)
  intro a ha b hb
  rw [List.mem_singleton.mp hb]
  exact apart_left hnew ha

private theorem apart_set (h : view.Pairwise Apart) (hnew : Fresh view entry.message.messageId)
    (i : Nat) :
    (view.set i entry).Pairwise Apart := by
  rw [List.set_eq_take_append_cons_drop]
  split_ifs with hlt
  · have hrest : (view.take i ++ view.drop (i + 1)).Pairwise Apart := by
      rw [← List.eraseIdx_eq_take_drop_succ]
      exact h.sublist (List.eraseIdx_sublist view i)
    rw [List.pairwise_append] at hrest ⊢
    obtain ⟨htake,hdrop,hcross⟩ := hrest
    refine ⟨htake,List.pairwise_cons.mpr ⟨fun b hb => ?_,hdrop⟩,?_⟩
    · exact apart_right hnew (List.mem_of_mem_drop hb)
    · intro a ha b hb
      rcases List.mem_cons.mp hb with rfl | hb
      · exact apart_left hnew (List.mem_of_mem_take ha)
      · exact hcross a ha b hb
  · exact h

private theorem fresh_of_any {id : String}
    (h : ¬(id ≠ "" ∧ view.any (fun e => e.message.messageId = id) = true)) : Fresh view id := by
  by_cases hid : id = ""
  · exact .inl hid
  · refine .inr fun e he hsame => h ⟨hid,?_⟩
    rw [List.any_eq_true]
    exact ⟨e,he,by simpa using hsame⟩

end views

/-! ### One input -/

namespace Regular

variable {s s' : ChatState}

private theorem congr (h : Regular s) (hhistory : s'.history = s.history)
    (hviews : s'.memberHistory = s.memberHistory) (hlive : s'.live = s.live) : Regular s' := by
  constructor
  · exact hhistory ▸ h.history
  · exact hviews ▸ h.views
  · rw [hhistory,hlive]
    exact h.openHistory
  · rw [hviews,hlive]
    exact h.openViews
  · exact hlive ▸ h.fixed
  · exact hlive ▸ h.drafts

/-- The live turns change, but their members stay. -/
theorem relive (h : Regular s) {live : List LiveMemberTurn}
    (hmembers : ∀ t ∈ s.live, ∃ t' ∈ live, t'.member = t.member)
    (hfixed : ∀ t ∈ live, t.fixedSteps ≤ t.steps.length) (hdrafts : ∀ t ∈ live, Numbered t.steps) :
    Regular { s with live } where
  history := h.history
  views := h.views
  openHistory e he hopen := by
    obtain ⟨t,ht,hmember⟩ := h.openHistory e he hopen
    obtain ⟨t',ht',hsame⟩ := hmembers t ht
    exact ⟨t',ht',hsame.trans hmember⟩
  openViews member e he hopen := by
    obtain ⟨t,ht,hmember⟩ := h.openViews member e he hopen
    obtain ⟨t',ht',hsame⟩ := hmembers t ht
    exact ⟨t',ht',hsame.trans hmember⟩
  fixed := hfixed
  drafts := hdrafts

/-- One turn changes. -/
theorem modify (h : Regular s) (i : Nat) {f : LiveMemberTurn → LiveMemberTurn}
    (hmember : ∀ t, (f t).member = t.member)
    (hfixed : ∀ t ∈ s.live, (f t).fixedSteps ≤ (f t).steps.length)
    (hdrafts : ∀ t ∈ s.live, Numbered (f t).steps) :
    Regular { s with live := s.live.modify i f } := by
  apply h.relive
  · intro t ht
    obtain ⟨j,hj⟩ := List.mem_iff_getElem?.mp ht
    by_cases hij : i = j
    · refine ⟨f t,List.mem_of_getElem? (i := j) ?_,hmember t⟩
      simp [hij,hj]
    · refine ⟨t,List.mem_of_getElem? (i := j) ?_,rfl⟩
      simp [hij,hj]
  · intro t ht
    obtain ⟨u,hu,rfl | rfl⟩ := mem_modify ht
    · exact h.fixed t hu
    · exact hfixed u hu
  · intro t ht
    obtain ⟨u,hu,rfl | rfl⟩ := mem_modify ht
    · exact h.drafts t hu
    · exact hdrafts u hu

private theorem onTurn (h : Regular s) (event : ChatEvent) {f : LiveMemberTurn → LiveMemberTurn}
    (hmember : ∀ t, (f t).member = t.member)
    (hfixed : ∀ t ∈ s.live, (f t).fixedSteps ≤ (f t).steps.length)
    (hdrafts : ∀ t ∈ s.live, Numbered (f t).steps) : Regular (onTurn s event f) := by
  unfold Dominion.Web.onTurn
  cases findLiveTurn s (eventMember s event) event.turnId with
  | none => exact h
  | some i => exact h.modify i hmember hfixed hdrafts

private theorem start (h : Regular s) (event : ChatEvent) (key : BlockKey) (draft : BlockDraft)
    (streamId : Nat) : Regular (Dominion.Web.onTurn s event (.start key draft streamId)) := by
  apply h.onTurn
  · exact fun _ => rfl
  · exact fun t ht => (h.fixed t ht).trans (length_appendBlockStart t.steps key.1 draft)
  · exact fun t ht => (h.drafts t ht).appendBlockStart key.1 draft

private theorem onBlock (h : Regular s) (event : ChatEvent) (key : BlockKey)
    {f : BlockDraft → BlockDraft} (hf : ∀ b, (f b).index = b.index) (streamId : Nat) :
    Regular (Dominion.Web.onTurn s event (.onBlock key f streamId)) := by
  apply h.onTurn
  · exact fun _ => rfl
  · intro t ht
    simpa [LiveMemberTurn.onBlock,mapStepBlocks] using h.fixed t ht
  · exact fun t ht => (h.drafts t ht).mapStepBlocks key.1 key.2 hf

private theorem index_append (b : BlockDraft) (text : String) :
    (b.append text).index = b.index := by
  unfold BlockDraft.append
  cases b.content with
  | _ => rfl

private theorem index_blockEndTerminal (b : BlockDraft) (block : ContentBlock) :
    (blockEndTerminal b block).index = b.index := by
  cases block with
  | toolCall => rfl
  | _ =>
    simp only [blockEndTerminal,overlayText]
    cases b.content with
    | _ => rfl

private theorem delta (h : Regular s) (event : ChatEvent) (key : BlockKey) (text : String)
    (streamId : Nat) : Regular (Dominion.Web.onTurn s event (.delta key text streamId)) := by
  have hdelta : ∀ t : LiveMemberTurn, t.delta key text streamId = t ∨
      t.delta key text streamId = t.onBlock key (fun b => b.append text) streamId := by
    intro t
    unfold LiveMemberTurn.delta
    split_ifs with howned
    · exact .inl rfl
    · exact .inr rfl
  apply h.onTurn
  · intro t
    cases hdelta t with
    | inl hsame => rw [hsame]
    | inr hblock => rw [hblock]; rfl
  · intro t ht
    cases hdelta t with
    | inl hsame => rw [hsame]; exact h.fixed t ht
    | inr hblock =>
      rw [hblock]
      simpa [LiveMemberTurn.onBlock,mapStepBlocks] using h.fixed t ht
  · intro t ht
    cases hdelta t with
    | inl hsame => rw [hsame]; exact h.drafts t ht
    | inr hblock =>
      rw [hblock]
      exact (h.drafts t ht).mapStepBlocks key.1 key.2 fun b => index_append b text

private theorem turnStart (h : Regular s) (event : ChatEvent) :
    Regular (reduceTurnStart s event) := by
  unfold reduceTurnStart
  cases eventMember s event with
  | none => exact h
  | some member =>
    dsimp only
    split_ifs with hfound
    · exact h
    · have hlive : Regular { s with live := s.live ++ [⟨⟨member,event.turnId,[],0⟩,fun _ => none⟩] } := by
        apply h.relive
        · exact fun t ht => ⟨t,List.mem_append_left _ ht,rfl⟩
        · intro t ht
          rcases List.mem_append.mp ht with ht | ht
          · exact h.fixed t ht
          · rw [List.mem_singleton.mp ht]
            exact Nat.le_refl 0
        · intro t ht
          rcases List.mem_append.mp ht with ht | ht
          · exact h.drafts t ht
          · rw [List.mem_singleton.mp ht]
            simp [Numbered]
      exact hlive.congr rfl rfl rfl

private theorem closeLiveTurn (h : Regular s) (i : Nat) (interrupted : Bool) :
    Regular (closeLiveTurn s i interrupted) := by
  cases hturn : s.live[i]? with
  | none => simpa [Dominion.Web.closeLiveTurn,hturn] using h
  | some turn =>
    rw [closeLiveTurn_eq hturn]
    have hother : ∀ t ∈ s.live, t.member ≠ turn.member → t ∈ s.live.eraseIdx i := by
      intro t ht hne
      obtain ⟨j,hj⟩ := List.mem_iff_getElem?.mp ht
      refine List.mem_eraseIdx_iff_getElem?.mpr ⟨j,?_,hj⟩
      rintro rfl
      rw [hturn] at hj
      cases hj
      exact hne rfl
    constructor
    · apply before_append_projected
      · apply before_map h.history
        intro e
        split_ifs <;> exact ⟨rfl,rfl⟩
      · intro e he
        obtain ⟨j,_,rfl⟩ := List.mem_mapIdx.mp he
        rfl
    · intro member
      by_cases hmember : member = turn.member
      · subst hmember
        simp only [closedViews,Function.update_self]
        apply apart_append
        · exact apart_map (h.views turn.member) fun _ => rfl
        · -- a placeholder has no message id
          apply List.pairwise_of_forall_mem_list
          intro a ha b _ hid
          obtain ⟨message,hmessage,rfl⟩ := List.mem_map.mp ha
          obtain ⟨j,_,rfl⟩ := List.mem_mapIdx.mp hmessage
          exact absurd rfl hid
        · intro a ha b hb hid
          obtain ⟨message,hmessage,rfl⟩ := List.mem_map.mp hb
          obtain ⟨j,_,rfl⟩ := List.mem_mapIdx.mp hmessage
          exact hid
      · simp only [closedViews,Function.update_of_ne hmember]
        exact h.views member
    · intro e he hopen
      rcases List.mem_append.mp he with he | he
      · obtain ⟨e,he',rfl⟩ := List.mem_map.mp he
        by_cases hmember : e.member = turn.member
        · rw [if_pos hmember] at hopen
          cases hopen
        · rw [if_neg hmember] at hopen ⊢
          obtain ⟨t,ht,hsame⟩ := h.openHistory e he' hopen
          exact ⟨t,hother t ht (hsame ▸ hmember),hsame⟩
      · obtain ⟨j,_,rfl⟩ := List.mem_mapIdx.mp he
        cases hopen
    · intro member e he hopen
      by_cases hmember : member = turn.member
      · subst hmember
        simp only [closedViews,Function.update_self] at he
        rcases List.mem_append.mp he with he | he
        · obtain ⟨e',-,rfl⟩ := List.mem_map.mp he
          cases hopen
        · obtain ⟨message,-,rfl⟩ := List.mem_map.mp he
          cases hopen
      · simp only [closedViews,Function.update_of_ne hmember] at he
        obtain ⟨t,ht,hsame⟩ := h.openViews member e he hopen
        exact ⟨t,hother t ht (hsame ▸ hmember),hsame⟩
    · exact fun t ht => h.fixed t (List.mem_of_mem_eraseIdx ht)
    · exact fun t ht => h.drafts t (List.mem_of_mem_eraseIdx ht)

private theorem closeFound (h : Regular s) (i : Option Nat) (interrupted : Bool) :
    Regular (closeFound s i interrupted) := by
  cases i with
  | none => exact h
  | some i => exact h.closeLiveTurn i interrupted

private theorem closePending (h : Regular s) (interrupted : Bool) :
    Regular (s.closePendingTurns interrupted) := by
  unfold ChatState.closePendingTurns
  generalize s.live = turns
  induction turns generalizing s with
  | nil => exact h
  | cons turn turns ih => exact ih (h.closeFound _ interrupted)

private theorem empty : Regular EMPTY_STATE := by
  constructor
  · exact List.Pairwise.nil
  · exact fun _ => List.Pairwise.nil
  · exact fun _ he => absurd he List.not_mem_nil
  · exact fun _ _ he => absurd he List.not_mem_nil
  · exact fun _ ht => absurd ht List.not_mem_nil
  · exact fun _ ht => absurd ht List.not_mem_nil

private theorem turnEnd (h : Regular s) (event : ChatEvent) (status : TurnStatus)
    (error : Option String) :
    Regular (reduceTurnEnd s event status error) := by
  cases status with
  | unspecified => exact h
  | completed => exact h.closeFound _ false
  | error => exact (h.closeFound _ true).congr rfl rfl rfl
  | aborted => exact empty
  | canceled => exact (h.closeFound _ true).congr rfl rfl rfl

private theorem toolResult (h : Regular s) (toolId : String) (status : ToolStatus)
    (result : String) :
    Regular (reduceToolResult s toolId status result) := by
  have hlive : Regular { s with live := s.live.map (LiveMemberTurn.settle toolId status result) } := by
    apply h.relive
    · exact fun t ht => ⟨_,List.mem_map_of_mem ht,rfl⟩
    · intro t ht
      obtain ⟨u,hu,rfl⟩ := List.mem_map.mp ht
      simpa [LiveMemberTurn.settle,settleSteps] using h.fixed u hu
    · intro t ht
      obtain ⟨u,hu,rfl⟩ := List.mem_map.mp ht
      exact (h.drafts u hu).settleSteps toolId status result
  constructor
  · exact before_map h.history fun _ => ⟨rfl,rfl⟩
  · exact fun member => apart_map (h.views member) fun _ => rfl
  · intro e he hopen
    obtain ⟨e,he',rfl⟩ := List.mem_map.mp he
    exact hlive.openHistory e he' hopen
  · intro member e he hopen
    obtain ⟨e,he',rfl⟩ := List.mem_map.mp he
    exact hlive.openViews member e he' hopen
  · exact hlive.fixed
  · exact hlive.drafts

/-- One view changes. -/
theorem review (h : Regular s) {member : String} {view : List MemberViewEntry}
    (hview : view.Pairwise Apart)
    (hopen : ∀ e ∈ view, e.isOpen = true → ∃ t ∈ s.live, t.member = member) :
    Regular { s with memberHistory := Function.update s.memberHistory member view } := by
  constructor
  · exact h.history
  · intro other
    by_cases hother : other = member
    · subst hother
      simpa using hview
    · simpa [Function.update_of_ne hother] using h.views other
  · exact h.openHistory
  · intro other e he hmark
    by_cases hother : other = member
    · subst hother
      simp only [Function.update_self] at he
      exact hopen e he hmark
    · simp only [Function.update_of_ne hother] at he
      exact h.openViews other e he hmark
  · exact h.fixed
  · exact h.drafts

private theorem appendMemberInputView (h : Regular s) (member sender : String)
    (message : HistoryMessage) :
    Regular { s with
      memberHistory := appendMemberInputView s.memberHistory member message sender } := by
  unfold Dominion.Web.appendMemberInputView
  dsimp only
  split_ifs with hknown
  · exact h
  · apply h.review
    · exact apart_snoc (h.views member) (fresh_of_any hknown)
    · intro e he hmark
      rcases List.mem_append.mp he with he | he
      · exact h.openViews member e he hmark
      · rw [List.mem_singleton.mp he] at hmark
        cases hmark

private theorem appendMemberView (h : Regular s) (member : String) (message : HistoryMessage)
    {isOpen : Bool} (hopen : isOpen = true → ∃ t ∈ s.live, t.member = member) :
    Regular { s with
      memberHistory := appendMemberView s.memberHistory member message isOpen } := by
  unfold Dominion.Web.appendMemberView
  dsimp only
  split_ifs with hknown
  · exact h
  · have hfresh := fresh_of_any hknown
    cases (s.memberHistory member).findIdx? fun e => e.projected with
    | some i =>
      apply h.review
      · exact apart_set (h.views member) hfresh i
      · intro e he hmark
        rcases List.mem_or_eq_of_mem_set he with he | rfl
        · exact h.openViews member e he hmark
        · cases hmark
    | none =>
      apply h.review
      · exact apart_snoc (h.views member) hfresh
      · intro e he hmark
        rcases List.mem_append.mp he with he | he
        · exact h.openViews member e he hmark
        · rw [List.mem_singleton.mp he] at hmark
          exact hopen hmark

private theorem memberView (h : Regular s) (member sender : String) (message : HistoryMessage) :
    Regular (reduceMemberView s member sender message) := by
  unfold reduceMemberView
  split_ifs with hguard
  · exact h
  · exact (h.appendMemberInputView member sender message).congr rfl rfl rfl
  · exact (h.appendMemberInputView member sender message).congr rfl rfl rfl

private theorem consumeFixedStep (h : Regular s) (member : String) :
    Regular { s with live := consumeFixedStep s.live member } := by
  unfold Dominion.Web.consumeFixedStep
  cases s.live.findIdx? fun t => t.member = member ∧ t.fixedSteps < t.steps.length with
  | none => exact h
  | some i =>
    apply h.modify
    · exact fun _ => rfl
    · exact fun t _ => Nat.min_le_right _ _
    · exact fun t ht => h.drafts t ht

end Regular

/-- A frame that takes the place of a placeholder belongs there: the entries before it have no
greater seq, and the real ones behind it no smaller one. -/
def Fits (s : ChatState) (member : String) (seq : Int) : Prop :=
  ∀ i, (s.history.findIdx? fun e => e.projected && e.member == member) = some i →
    (∀ e ∈ s.history.take i, e.seq ≤ seq) ∧
    ∀ e ∈ s.history.drop (i + 1), e.projected = false → seq ≤ e.seq

/-- The merged sequence changes. -/
theorem Regular.rehistory {s : ChatState} (h : Regular s) {history : List TeamMessageEntry}
    (hhistory : history.Pairwise Before)
    (hopen : ∀ e ∈ history, e.isOpen = true → ∃ t ∈ s.live, t.member = e.member) :
    Regular { s with history } :=
  ⟨hhistory,h.views,hopen,h.openViews,h.fixed,h.drafts⟩

/-- A message of the team takes the place of its member's projection, or its place by number. -/
theorem Regular.place {s : ChatState} (h : Regular s) {member : String} (message : HistoryMessage)
    {seq : Int} {isOpen : Bool} (hfits : Fits s member seq)
    (hfresh : ∀ e ∈ s.history, e.projected = false → e.seq ≠ seq)
    (hopen : isOpen = true → ∃ t ∈ s.live, t.member = member) :
    Regular { s with
      history :=
        match s.history.findIdx? fun e => e.projected && e.member == member with
        | some i => s.history.set i ⟨member,message,seq,false,false⟩
        | none => insertBySeq s.history ⟨member,message,seq,false,isOpen⟩ } := by
  cases hplace : s.history.findIdx? fun e => e.projected && e.member == member with
  | some i =>
    obtain ⟨hbefore,hafter⟩ := hfits i hplace
    apply h.rehistory
    · exact before_set h.history hfresh rfl hbefore hafter
    · intro e he hmark
      rcases List.mem_or_eq_of_mem_set he with he | rfl
      · exact h.openHistory e he hmark
      · cases hmark
  | none =>
    apply h.rehistory
    · exact before_insertBySeq h.history hfresh rfl
    · intro e he hmark
      rcases mem_insertBySeq.mp he with rfl | he
      · exact hopen hmark
      · exact h.openHistory e he hmark

private theorem Regular.teamMessage {s : ChatState} (h : Regular s) (member : String)
    (message : HistoryMessage) (seq : Int)
    (hfits : member = "" ∨ HasSeq s.history seq ∨ Fits s member seq) :
    Regular (reduceTeamMessage s member message seq) := by
  unfold reduceTeamMessage
  by_cases hmember : member = ""
  · rw [if_pos hmember]
    exact h
  by_cases hseen : s.history.any (fun e => !e.projected && e.seq == seq) = true
  · rw [if_neg hmember,if_pos hseen]
    exact h
  rw [if_neg hmember,if_neg hseen]
  have hfresh : ∀ e ∈ s.history, e.projected = false → e.seq ≠ seq := by
    intro e he hreal hsame
    apply hseen
    rw [List.any_eq_true]
    exact ⟨e,he,by simp [hreal,hsame]⟩
  have hfits : Fits s member seq := by
    rcases hfits with hempty | ⟨e,he,hreal,hsame⟩ | hfits
    · exact absurd hempty hmember
    · exact absurd hsame (hfresh e he hreal)
    · exact hfits
  have hlive : ∀ isOpen, isOpen = (member != USER_MEMBER && s.live.any fun t => t.member == member) →
      isOpen = true → ∃ t ∈ s.live, t.member = member := by
    intro isOpen hdef hopen
    rw [hdef,Bool.and_eq_true,List.any_eq_true] at hopen
    obtain ⟨-,t,ht,hsame⟩ := hopen
    exact ⟨t,ht,by simpa using hsame⟩
  dsimp only
  generalize hisOpen : (member != USER_MEMBER && s.live.any fun t => t.member == member) = isOpen
  have hopen := hlive isOpen hisOpen.symm
  have hhistory := h.place message hfits hfresh hopen
  have hviews := hhistory.appendMemberView member message hopen
  split_ifs with huser
  · exact hhistory.consumeFixedStep member
  · exact hviews.consumeFixedStep member

/-! ### Every run -/

/-- A frame of the team that is stored fits. -/
def FrameFits (s : ChatState) (event : ChatEvent) : Prop :=
  match event.body with
  | .teamMessage member _ seq => member = "" ∨ HasSeq s.history seq ∨ Fits s member seq
  | _ => True

private theorem Regular.reduceEvent {s : ChatState} (h : Regular s) (event : ChatEvent)
    (queuedText : String) (streamId : Nat) (hfits : FrameFits s event) :
    Regular (reduceEvent s event queuedText streamId) := by
  obtain ⟨member,turnId,body⟩ := event
  cases body with
  | queued position => exact h.congr rfl rfl rfl
  | teamMessage member message seq => exact h.teamMessage member message seq hfits
  | memberView member sender message => exact h.memberView member sender message
  | turnStart => exact h.turnStart _
  | blockStart step index type toolId name => exact h.start _ _ _ streamId
  | delta step index text => exact h.delta _ _ text streamId
  | blockEnd step index block =>
    exact h.onBlock _ _ (fun b => Regular.index_blockEndTerminal b block) streamId
  | toolResult toolId status result => exact h.toolResult toolId status result
  | turnEnd status error => exact h.turnEnd _ status error
  | unknown => exact h

/-- What can happen to a store. -/
inductive StoreInput
  | send (text : String)
  | receive (streamId : Nat) (consumed : Bool) (event : ChatEvent)
  /-- A frame that comes from no stream. -/
  | applyEvent (event : ChatEvent)
  | finish (streamId : Nat) (consumed : Bool) (error : Option String)
  | loadHistory (messages : List ChatStore.TeamMessage)
  | loadMemberHistory (member : String) (messages : List (HistoryMessage × String))
  | clearMemberHistory

namespace StoreInput

/-- A backfill has no seq and no message id twice. -/
def Clean : StoreInput → Prop
  | .loadHistory messages => (messages.map ChatStore.TeamMessage.seq).Nodup
  | .loadMemberHistory _ messages => messages.Pairwise fun a b =>
      a.1.messageId ≠ "" → a.1.messageId ≠ b.1.messageId
  | _ => True

/-- The frame that arrives fits. -/
def FitsInto (s : ChatState) : StoreInput → Prop
  | .receive _ _ event => FrameFits s event
  | .applyEvent event => FrameFits s event
  | _ => True

def apply (store : ChatStore) : StoreInput → ChatStore
  | .send text => store.send text
  | .receive streamId consumed event => store.receive streamId consumed event
  | .applyEvent event => { store with state := reduceEvent store.state event "" 0 }
  | .finish streamId consumed error => store.finish streamId consumed error
  | .loadHistory messages => store.loadHistory messages
  | .loadMemberHistory member messages => store.loadMemberHistory member messages
  | .clearMemberHistory => store.clearMemberHistory

end StoreInput

/-- The store under any inputs. -/
def storeRuns : Lts ChatStore StoreInput where
  init store := store = {}
  step store input := some (input.apply store)

namespace Regular

variable {store : ChatStore}

private theorem receive (h : Regular store.state) (streamId : Nat) (consumed : Bool)
    {event : ChatEvent} (hfits : FrameFits store.state event) :
    Regular (store.receive streamId consumed event).state := by
  have hstate : ∃ text, (store.receive streamId consumed event).state =
      Dominion.Web.reduceEvent store.state event text streamId := by
    unfold ChatStore.receive
    cases event.body with
    | queued position => exact ⟨_,rfl⟩
    | _ => cases consumed <;> exact ⟨_,rfl⟩
  obtain ⟨text,hstate⟩ := hstate
  rw [hstate]
  exact h.reduceEvent event text streamId hfits

private theorem release (h : Regular store.state) (streamId : Nat) :
    Regular (store.releaseStreamOwnership streamId).state := by
  apply h.relive
  · exact fun t ht => ⟨_,List.mem_map_of_mem ht,rfl⟩
  · intro t ht
    obtain ⟨u,hu,rfl⟩ := List.mem_map.mp ht
    exact h.fixed u hu
  · intro t ht
    obtain ⟨u,hu,rfl⟩ := List.mem_map.mp ht
    exact h.drafts u hu

private theorem finish (h : Regular store.state) (streamId : Nat) (consumed : Bool)
    (error : Option String) : Regular (store.finish streamId consumed error).state := by
  obtain ⟨store',hstate,hfinish⟩ : ∃ store' : ChatStore, store'.state = store.state ∧
      store.finish streamId consumed error = store'.finish streamId true error := by
    cases consumed with
    | true => exact ⟨store,rfl,rfl⟩
    | false => exact ⟨store.consumeSendText.2,rfl,rfl⟩
  rw [hfinish]
  have h' : Regular store'.state := hstate ▸ h
  unfold ChatStore.finish
  rw [if_pos rfl]
  dsimp only
  split_ifs with hactive
  · cases error with
    | none => exact h'.closePending true
    | some message => exact (h'.closePending true).congr rfl rfl rfl
  · exact h'.release streamId

private theorem loadHistory (h : Regular store.state) {messages : List ChatStore.TeamMessage}
    (hclean : (messages.map ChatStore.TeamMessage.seq).Nodup) :
    Regular (store.loadHistory messages).state := by
  let entries := (messages.filter fun m => m.member ≠ "").map fun m =>
    (⟨m.member,m.message,m.seq,false,false⟩ : TeamMessageEntry)
  have hsort : (store.loadHistory messages).state.history =
      entries.mergeSort fun a b => a.seq ≤ b.seq := rfl
  have hplain : ∀ e ∈ (store.loadHistory messages).state.history,
      e.projected = false ∧ e.isOpen = false := by
    intro e he
    rw [hsort,List.mem_mergeSort] at he
    obtain ⟨m,-,rfl⟩ := List.mem_map.mp he
    exact ⟨rfl,rfl⟩
  constructor
  · have hsorted : (store.loadHistory messages).state.history.Pairwise fun a b =>
        decide (a.seq ≤ b.seq) = true := by
      rw [hsort]
      apply List.pairwise_mergeSort
      · intro a b c hab hbc
        simp only [decide_eq_true_eq] at hab hbc ⊢
        omega
      · intro a b
        simp only [Bool.or_eq_true,decide_eq_true_eq]
        omega
    have hdistinct : (store.loadHistory messages).state.history.Pairwise fun a b =>
        a.seq ≠ b.seq := by
      rw [hsort,← List.pairwise_map]
      have hperm := (List.mergeSort_perm entries fun a b => decide (a.seq ≤ b.seq)).map
        TeamMessageEntry.seq
      apply hperm.nodup_iff.mpr
      have hseqs : entries.map TeamMessageEntry.seq =
          (messages.filter fun m => m.member ≠ "").map ChatStore.TeamMessage.seq := by
        rw [List.map_map]
        rfl
      rw [hseqs]
      exact hclean.sublist (List.filter_sublist.map _)
    refine (hsorted.and hdistinct).imp_of_mem fun {a b} ha _ hab => ?_
    exact before_of_le (by simpa using hab.1) fun _ => hab.2
  · exact fun member => apart_map (h.views member) fun _ => rfl
  · intro e he hopen
    rw [(hplain e he).2] at hopen
    cases hopen
  · intro member e he hopen
    obtain ⟨e',-,rfl⟩ := List.mem_map.mp he
    cases hopen
  · exact fun _ ht => absurd ht List.not_mem_nil
  · exact fun _ ht => absurd ht List.not_mem_nil

private theorem loadMemberHistory (h : Regular store.state) (member : String)
    {messages : List (HistoryMessage × String)}
    (hclean : messages.Pairwise fun a b => a.1.messageId ≠ "" → a.1.messageId ≠ b.1.messageId) :
    Regular (store.loadMemberHistory member messages).state := by
  apply h.review
  · apply apart_append
    · rw [List.pairwise_map]
      exact hclean
    · exact (h.views member).sublist List.filter_sublist
    · intro a ha b hb hid hsame
      obtain ⟨-,hkept⟩ := List.mem_filter.mp hb
      simp only [Bool.and_eq_true,Bool.or_eq_true,decide_eq_true_eq] at hkept
      cases hkept.2 with
      | inl hempty => exact hid (hsame.trans hempty)
      | inr hnone =>
        simp only [Bool.not_eq_true',List.any_eq_false,decide_eq_true_eq] at hnone
        exact hnone a ha hsame
  · intro e he hopen
    rcases List.mem_append.mp he with he | he
    · obtain ⟨m,-,rfl⟩ := List.mem_map.mp he
      cases hopen
    · exact h.openViews member e (List.mem_filter.mp he).1 hopen

end Regular

private theorem inductive_regular : storeRuns.Inductive (fun store input => input.Clean ∧
    input.FitsInto store.state) fun store => Regular store.state where
  init store hinit := by
    subst hinit
    exact Regular.empty
  step store input store' h hinput hstep := by
    cases hstep
    cases input with
    | send text => exact h.congr rfl rfl rfl
    | receive streamId consumed event => exact h.receive streamId consumed hinput.2
    | applyEvent event => exact h.reduceEvent event "" 0 hinput.2
    | finish streamId consumed error => exact h.finish streamId consumed error
    | loadHistory messages => exact h.loadHistory hinput.1
    | loadMemberHistory member messages => exact h.loadMemberHistory member hinput.1
    | clearMemberHistory =>
      refine ⟨h.history,fun _ => List.Pairwise.nil,h.openHistory,?_,h.fixed,h.drafts⟩
      exact fun _ _ he => absurd he List.not_mem_nil

/-- What the store shows is in order. -/
structure InOrder (s : ChatState) : Prop where
  /-- The real entries have different seqs, and ascending ones. -/
  ascending : (s.history.filter fun e => !e.projected).Pairwise fun a b => a.seq < b.seq
  ids : ∀ member, (s.memberHistory member).Pairwise fun a b =>
    a.message.messageId ≠ "" → a.message.messageId ≠ b.message.messageId
  openHistory : ∀ e ∈ s.history, e.isOpen = true → ∃ t ∈ s.live, t.member = e.member
  openViews : ∀ member, ∀ e ∈ s.memberHistory member, e.isOpen = true →
    ∃ t ∈ s.live, t.member = member
  fixed : ∀ t ∈ s.live, t.fixedSteps ≤ t.steps.length
  /-- No two drafts have the same step and index. -/
  drafts : ∀ t ∈ s.live,
    (t.steps.flatMap fun step => step.blocks.map fun b => (step.step,b.index)).Nodup

private theorem Numbered.nodup {steps : List StepDraft} (h : Numbered steps) :
    (steps.flatMap fun step => step.blocks.map fun b => (step.step,b.index)).Nodup := by
  rw [List.nodup_flatMap]
  constructor
  · intro s hs
    have hpairs : (s.blocks.map fun b => (s.step,b.index)) =
        (s.blocks.map BlockDraft.index).map fun index => (s.step,index) := by
      rw [List.map_map]
      rfl
    rw [hpairs]
    exact (h.2 s hs).map fun i j hij => (Prod.mk.inj hij).2
  · refine (List.pairwise_map.mp h.1).imp fun {s s'} hne => ?_
    intro x hx hx'
    obtain ⟨b,-,rfl⟩ := List.mem_map.mp hx
    obtain ⟨b',-,hsame⟩ := List.mem_map.mp hx'
    exact hne (Prod.mk.inj hsame).1.symm

private theorem Regular.inOrder {s : ChatState} (h : Regular s) : InOrder s where
  ascending := by
    rw [List.pairwise_filter]
    refine h.history.imp fun {a b} hab ha hb => ?_
    have hlt := hab (by simpa using hb)
    rwa [if_neg (by simpa using ha)] at hlt
  ids := h.views
  openHistory := h.openHistory
  openViews := h.openViews
  fixed := h.fixed
  drafts t ht := (h.drafts t ht).nodup

/-- The store stays in order in all runs in which each frame that replaces a placeholder belongs in
its place. -/
theorem store_inOrder (store : ChatStore)
    (h : storeRuns.ReachUnder (fun store input => input.Clean ∧ input.FitsInto store.state)
      store) : InOrder store.state :=
  (inductive_regular.of_reachUnder h).inOrder

/-- A turn of the player with one block, closed before its message arrives. -/
def unsettledTurn : List StoreInput :=
  [.applyEvent ⟨"player","t1",.turnStart⟩,
    .applyEvent ⟨"player","t1",.blockStart (some 0) 0 .text none none⟩,
    .applyEvent ⟨"player","t1",.turnEnd .completed none⟩]

def plainMessage (id : String) : HistoryMessage := ⟨id,.agent,[.text id],false⟩

def isFrame (_ : ChatStore) (input : StoreInput) : Bool :=
  match input with
  | .applyEvent _ => true
  | _ => false

/-- The late message of the player is stored. -/
theorem store_inOrder_demo : ∃ store : ChatStore, InOrder store.state ∧
    store.state.history.map (fun e => (e.seq,e.projected)) = [(3,false)] := by
  let turn : ChatStore := unsettledTurn.foldl StoreInput.apply {}
  have hturn : storeRuns.ReachUnder
      (fun store input => input.Clean ∧ input.FitsInto store.state) turn := by
    refine .step (l := .applyEvent ⟨"player","t1",.turnEnd .completed none⟩) ?_ ⟨trivial,trivial⟩ rfl
    refine .step (l := .applyEvent ⟨"player","t1",.blockStart (some 0) 0 .text none none⟩) ?_
      ⟨trivial,trivial⟩ rfl
    refine .step (l := .applyEvent ⟨"player","t1",.turnStart⟩) ?_ ⟨trivial,trivial⟩ rfl
    exact .init rfl
  have hfits : Fits turn.state "player" 3 := by
    intro i hi
    have hzero : some 0 = some i := hi
    cases hzero
    exact ⟨fun e he => absurd he List.not_mem_nil,fun e he => absurd he List.not_mem_nil⟩
  have hlate := store_inOrder _ (.step (l := .applyEvent ⟨"","",.teamMessage "player"
    (plainMessage "m3") 3⟩) hturn ⟨trivial,.inr (.inr hfits)⟩ rfl)
  exact ⟨_,hlate,rfl⟩

/-- The message takes the place of the placeholder, before a message with a smaller seq. -/
theorem placeholder_breaks_order : ∃ store : ChatStore,
    storeRuns.ReachUnder (fun _ input => input.Clean) store ∧ ¬InOrder store.state := by
  have hclean : ∀ store input, isFrame store input = true → input.Clean := by
    intro store input hframe
    cases input with
    | applyEvent event => trivial
    | _ => cases hframe
  have hinit : storeRuns.ReachUnder (fun _ input => input.Clean) {} := .init rfl
  have hrun : (storeRuns.runUnder isFrame {} (unsettledTurn ++
      [.applyEvent ⟨"","",.teamMessage "planner" (plainMessage "m5") 5⟩,
        .applyEvent ⟨"","",.teamMessage "player" (plainMessage "m7") 7⟩])).any (fun store =>
          (store.state.history.filter fun e => !e.projected).map TeamMessageEntry.seq == [7,5]) =
        true := by
    decide
  obtain ⟨store,hreach,hseqs⟩ := Lts.reachUnder_of_runUnder_any hclean _ hinit hrun
  refine ⟨store,hreach,fun h => ?_⟩
  have hpairs := List.pairwise_map.mpr h.ascending
  rw [eq_of_beq hseqs] at hpairs
  simp at hpairs

end Dominion.Web
