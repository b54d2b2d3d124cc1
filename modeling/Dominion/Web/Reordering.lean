import Dominion.Framework.Commuting
import Dominion.Web.Views

/-! # Frames that come late

A frame that was overtaken by others is told after them.  It shows what it shows in its place if it
commutes with all of them. -/
namespace Dominion.Web

open Dominion.Framework
open Dominion.Chat (ContentBlock HistoryMessage ToolStatus)

/-! ### Drafts that change alike -/

namespace View

variable {v : View} {f : TurnDraft → TurnDraft} {k : String × String}

private theorem closed_congr {t t' : TurnDraft} (hmember : t'.member = t.member)
    (hpending : t'.steps.drop t'.fixedSteps = t.steps.drop t.fixedSteps) (interrupted : Bool) :
    (∀ history, closedHistory interrupted history t' = closedHistory interrupted history t) ∧
      ∀ views, closedViews interrupted views t' = closedViews interrupted views t :=
  ⟨fun history => by simp only [closedHistory,hmember,hpending],
    fun views => by simp only [closedViews,hmember,hpending]⟩

/-- The change leaves the steps of the turn in their number, and those that are no drafts any more
in theirs. -/
structure Steady (f : TurnDraft → TurnDraft) (t : TurnDraft) : Prop where
  fixedSteps : (f t).fixedSteps = t.fixedSteps
  length : (f t).steps.length = t.steps.length
  advance : ∀ n, f { t with fixedSteps := n } = { f t with fixedSteps := n }

theorem mapLive_teamMessage (hkey : ∀ t, (f t).key = t.key) {member : String}
    (hf : ∀ t, t.member = member → Steady f t) (message : HistoryMessage) (seq : Int) :
    (v.mapLive f).teamMessage member message seq = (v.teamMessage member message seq).mapLive f := by
  have hmember (t : TurnDraft) : (f t).member = t.member := congrArg Prod.fst (hkey t)
  have hany : ((v.live.map f).any fun t => t.member == member) =
      v.live.any fun t => t.member == member := by
    simp [List.any_map,Function.comp_def,hmember]
  have hconsume : consumeDrafts member (v.live.map f) = (consumeDrafts member v.live).map f := by
    have hfind : ((v.live.map f).findIdx?
        fun t => t.member = member ∧ t.fixedSteps < t.steps.length) =
          v.live.findIdx? fun t => t.member = member ∧ t.fixedSteps < t.steps.length := by
      rw [List.findIdx?_map]
      congr 1
      funext t
      by_cases ht : t.member = member
      · simp [hmember,(hf t ht).fixedSteps,(hf t ht).length]
      · simp [hmember,ht]
    rw [consumeDrafts,consumeDrafts,hfind]
    cases hplace : v.live.findIdx? fun t => t.member = member ∧ t.fixedSteps < t.steps.length with
    | none => rfl
    | some j =>
      obtain ⟨hj,hfound,_⟩ := List.findIdx?_eq_some_iff_getElem.mp hplace
      have hj' : v.live[j].member = member := (of_decide_eq_true hfound).1
      refine (map_modify v.live j fun t ht => ?_).symm
      have htj : t = v.live[j] := by
        rw [List.getElem?_eq_getElem hj] at ht
        exact (Option.some.inj ht).symm
      have hsteady := hf t (htj ▸ hj')
      rw [hsteady.advance,hsteady.fixedSteps,hsteady.length]
  simp only [mapLive,teamMessage,hany,hconsume]
  split
  · rfl
  · split <;> rfl

theorem mapLive_memberView (member sender : String) (message : HistoryMessage) :
    (v.mapLive f).memberView member sender message =
      (v.memberView member sender message).mapLive f := by
  unfold memberView
  split <;> rfl

theorem mapLive_turnStart (hkey : ∀ t, (f t).key = t.key)
    (hnew : f ⟨k.1,k.2,[],0⟩ = ⟨k.1,k.2,[],0⟩) :
    (v.mapLive f).turnStart k = (v.turnStart k).mapLive f := by
  have hany : ((v.live.map f).any fun t => t.key = k) = v.live.any fun t => t.key = k := by
    simp [List.any_map,Function.comp_def,hkey]
  simp only [mapLive,turnStart,hany]
  split
  · rfl
  · simp [hnew]

theorem mapLive_settle {toolId result : String} {status : ToolStatus}
    (hf : ∀ t, f (t.settle toolId status result) = (f t).settle toolId status result) :
    (v.mapLive f).settle toolId status result = (v.settle toolId status result).mapLive f := by
  simp only [mapLive,settle,List.map_map,Function.comp_def,hf]

theorem mapLive_close (hkey : ∀ t, (f t).key = t.key)
    (hf : ∀ t ∈ v.live, t.key = k →
      (f t).steps.drop (f t).fixedSteps = t.steps.drop t.fixedSteps) (interrupted : Bool) :
    (v.mapLive f).close k interrupted = (v.close k interrupted).mapLive f := by
  have hfind : ((v.live.map f).find? fun t => t.key = k) =
      (v.live.find? fun t => t.key = k).map f := by
    rw [List.find?_map]
    simp only [Function.comp_def,hkey]
  have hfilter : ((v.live.map f).filter fun t => t.key ≠ k) =
      (v.live.filter fun t => t.key ≠ k).map f := by
    rw [List.filter_map]
    simp only [Function.comp_def,hkey]
  simp only [mapLive,close,hfind]
  cases hlive : v.live.find? fun t => t.key = k with
  | none => rfl
  | some t =>
    have hk : t.key = k := by simpa using List.find?_some hlive
    obtain ⟨hhistory,hviews⟩ := closed_congr (congrArg Prod.fst (hkey t))
      (hf t (List.mem_of_find?_eq_some hlive) hk) interrupted
    simp only [Option.map_some,hhistory,hviews,hfilter]

theorem mapLive_closeAll (hkey : ∀ t, (f t).key = t.key)
    (hf : ∀ t ∈ v.live, (f t).steps.drop (f t).fixedSteps = t.steps.drop t.fixedSteps)
    (interrupted : Bool) : (v.mapLive f).closeAll interrupted = v.closeAll interrupted := by
  have hclosed : ∀ turns : List TurnDraft, (∀ t ∈ turns,
      (f t).steps.drop (f t).fixedSteps = t.steps.drop t.fixedSteps) → ∀ history views,
        (turns.map f).foldl (closedHistory interrupted) history =
          turns.foldl (closedHistory interrupted) history ∧
        (turns.map f).foldl (closedViews interrupted) views =
          turns.foldl (closedViews interrupted) views := by
    intro turns
    induction turns with
    | nil => exact fun _ _ _ => ⟨rfl,rfl⟩
    | cons t turns ih =>
      intro hturns history views
      obtain ⟨hhistory,hviews⟩ := closed_congr (congrArg Prod.fst (hkey t))
        (hturns t List.mem_cons_self) interrupted
      simp only [List.map_cons,List.foldl_cons,hhistory,hviews]
      exact ih (fun t ht => hturns t (List.mem_cons_of_mem _ ht)) _ _
  obtain ⟨hhistory,hviews⟩ := hclosed v.live hf v.history v.memberHistory
  simp only [mapLive,closeAll,hhistory,hviews]

end View

/-! ### Frames that commute -/

namespace ChatEvent

/-- The result of a tool leaves what the frame says. -/
def survives (e : ChatEvent) (toolId : String) (status : ToolStatus) (result : String) : Bool :=
  match e.body with
  | .blockStart _ index type id name =>
    settleBlock toolId status result (blockStartDraft index type id name).content =
      (blockStartDraft index type id name).content
  | .blockEnd _ _ block => settleBlock toolId status result block = block
  | _ => true

/-- The frame shows nothing. -/
def idle (e : ChatEvent) : Bool :=
  match e.body with
  | .queued _ => true
  | .turnEnd .unspecified _ => true
  | .unknown => true
  | _ => false

end ChatEvent

namespace Shown

/-- The frame of a block may be told before the entry or after it. -/
def passes (e : ChatEvent) : Shown → Bool
  | .ended => false
  | .frame y =>
    match y.body with
    | .teamMessage member _ _ => member ≠ e.member || e.startOf.isNone
    | .turnStart => y.turn ≠ e.turn
    | .blockStart _ _ _ _ _ | .delta _ _ _ | .blockEnd _ _ _ =>
      y.turn ≠ e.turn || (y.blockOf ≠ e.blockOf && (y.startOf.isNone || e.startOf.isNone))
    | .toolResult toolId status result => e.survives toolId status result
    | .turnEnd .completed _ | .turnEnd .error _ | .turnEnd .canceled _ => y.turn ≠ e.turn
    | _ => true

/-- The late frame may be told after the entry that overtook it. -/
def yields (e : ChatEvent) (y : Shown) : Bool :=
  e.idle || (e.blockOf.isSome && y.passes e) ||
    match y with
    | .frame y => y.blockOf.isSome && !e.aborts && (Shown.frame e).passes y
    | .ended => false

end Shown

variable {e y : ChatEvent} {key : BlockKey} {k : String × String}

@[simp] theorem editDraft_key (f : List StepDraft → List StepDraft) (t : TurnDraft) :
    (editDraft k f t).key = t.key := by
  unfold editDraft
  split <;> rfl

theorem editDraft_of_ne {t : TurnDraft} (h : t.key ≠ k) (f : List StepDraft → List StepDraft) :
    editDraft k f t = t :=
  if_neg h

theorem editDraft_of_key {t : TurnDraft} (h : t.key = k) (f : List StepDraft → List StepDraft) :
    editDraft k f t = { t with steps := f t.steps } :=
  if_pos h

private theorem editDraft_comm {k' : String × String} {f g : List StepDraft → List StepDraft}
    (h : k' ≠ k ∨ ∀ steps, f (g steps) = g (f steps)) (t : TurnDraft) :
    editDraft k f (editDraft k' g t) = editDraft k' g (editDraft k f t) := by
  by_cases hk : t.key = k
  · by_cases hk' : t.key = k'
    · have hsteps := (h.resolve_left fun hne => hne (hk'.symm.trans hk)) t.steps
      have hkey (steps : List StepDraft) : ({ t with steps := steps } : TurnDraft).key = t.key := rfl
      rw [editDraft_of_key hk',editDraft_of_key hk,editDraft_of_key ((hkey _).trans hk),
        editDraft_of_key ((hkey _).trans hk'),hsteps]
    · have hk₁ : (editDraft k f t).key ≠ k' := by rwa [editDraft_key]
      rw [editDraft_of_ne hk',editDraft_of_ne hk₁]
  · have hk₁ : (editDraft k' g t).key ≠ k := by rwa [editDraft_key]
    rw [editDraft_of_ne hk₁,editDraft_of_ne hk]

namespace ChatEvent

/-- Frames of two blocks that do not both start one. -/
theorem edit_comm {key' : BlockKey} (he : e.blockOf = some key) (hy : y.blockOf = some key')
    (hne : key' ≠ key) (hstart : y.startOf = none ∨ e.startOf = none) (steps : List StepDraft) :
    e.edit (y.edit steps) = y.edit (e.edit steps) := by
  have hmap {e y : ChatEvent} {key key' : BlockKey} (he : e.blockOf = some key)
      (hy : y.blockOf = some key') (hne : key' ≠ key) (hnone : e.startOf = none)
      (steps : List StepDraft) : e.edit (y.edit steps) = y.edit (e.edit steps) := by
    obtain ⟨f,hf,hedit⟩ := edit_of_startless he hnone
    have hplaced := placed_atBlock hf key
    cases hdraft : y.startOf with
    | none =>
      obtain ⟨g,hg,hedit'⟩ := edit_of_startless hy hdraft
      rw [hedit,hedit',hedit,hedit',mapBlocks_comm hplaced (placed_atBlock hg key')]
      intro k b
      by_cases hk : k = key
      · have hk' : k ≠ key' := fun h => hne (h.symm.trans hk)
        simp [atBlock,hk']
      · simp [atBlock,hk]
    | some start =>
      obtain ⟨k,draft⟩ := start
      have hk : k = key' := by
        have hblock := (blockOf_of_startOf hdraft).1
        exact Option.some.inj (hblock.symm.trans hy)
      subst hk
      have hindex : draft.index = k.2 := startOf_index hdraft
      have hkey : (k.1,draft.index) ≠ key := by
        rw [hindex]
        exact hne
      rw [edit_startOf hdraft,edit_startOf hdraft,hedit,hedit,mapBlocks_appendBlockStart hplaced,
        atBlock,if_neg hkey]
  rcases hstart with hstart | hstart
  · exact (hmap hy he hne.symm hstart steps).symm
  · exact hmap he hy hne hstart steps

/-- A frame that survives the result of a tool. -/
theorem edit_settleSteps (he : e.blockOf = some key) {toolId result : String} {status : ToolStatus}
    (h : e.survives toolId status result = true) (steps : List StepDraft) :
    e.edit (settleSteps toolId status result steps) =
      settleSteps toolId status result (e.edit steps) := by
  have hplaced : Placed fun _ => settleDraft toolId status result := fun _ b =>
    settleDraft_index _ _ _ b
  have hat {f : BlockDraft → BlockDraft} (hf : ∀ b, (f b).index = b.index)
      (hcomm : ∀ b, settleDraft toolId status result (f b) = f (settleDraft toolId status result b)) :
      mapBlocks (atBlock key f) (settleSteps toolId status result steps) =
        settleSteps toolId status result (mapBlocks (atBlock key f) steps) := by
    simp only [settleSteps_eq]
    refine mapBlocks_comm (placed_atBlock hf key) hplaced fun k b => ?_
    unfold atBlock
    split
    · exact (hcomm b).symm
    · rfl
  rcases block_cases he with ⟨draft,hstart⟩ | ⟨text,hdelta⟩ | ⟨block,hend⟩
  · have hfixed : settleDraft toolId status result draft = draft := by
      rcases e with ⟨member,turnId,body⟩
      cases body <;> simp only [startOf,reduceCtorEq] at hstart
      obtain ⟨rfl,rfl⟩ := Prod.mk.inj (Option.some.inj hstart)
      simp only [settleDraft,of_decide_eq_true h]
    rw [edit_startOf hstart,edit_startOf hstart,settleSteps_eq,settleSteps_eq,
      mapBlocks_appendBlockStart hplaced,hfixed]
  · rw [edit_deltaOf hdelta,edit_deltaOf hdelta]
    exact hat (fun b => by simp) fun b => settleDraft_append _ _ _ _ b
  · have hfixed : settleBlock toolId status result block = block := by
      rcases e with ⟨member,turnId,body⟩
      cases body <;> simp only [endOf,reduceCtorEq] at hend
      obtain ⟨rfl,rfl⟩ := Prod.mk.inj (Option.some.inj hend)
      exact of_decide_eq_true h
    rw [edit_endOf hend,edit_endOf hend]
    exact hat (fun b => by simp) fun b => settleDraft_blockEndTerminal hfixed b

end ChatEvent

namespace View

variable {v : View}

private theorem steady_editDraft (he : e.blockOf = some key) {t : TurnDraft}
    (h : t.key ≠ e.turn ∨ e.startOf = none) : Steady (editDraft e.turn e.edit) t := by
  by_cases hk : t.key = e.turn
  · obtain ⟨f,_,hedit⟩ := ChatEvent.edit_of_startless he (h.resolve_left fun hne => hne hk)
    have hn (n : Nat) : ({ t with fixedSteps := n } : TurnDraft).key = t.key := rfl
    exact ⟨by simp [editDraft,hk],by simp [editDraft,hk,hedit],fun n => by simp [editDraft,hk,hn]⟩
  · have hn (n : Nat) : ({ t with fixedSteps := n } : TurnDraft).key ≠ e.turn := hk
    exact ⟨by rw [editDraft_of_ne hk],by rw [editDraft_of_ne hk],fun n => by
      rw [editDraft_of_ne hk,editDraft_of_ne (hn n)]⟩

/-- A frame of a block commutes with what it passes. -/
theorem after_comm (he : e.blockOf = some key) {y : Shown} (h : y.passes e = true) (v : View) :
    (v.after y).apply e = (v.apply e).after y := by
  cases y with
  | ended => cases h
  | frame y =>
    have hkey (t : TurnDraft) : (editDraft e.turn e.edit t).key = t.key := editDraft_key _ t
    have hblock {key' : BlockKey} (hy : y.blockOf = some key')
        (h : (y.turn ≠ e.turn || (y.blockOf ≠ e.blockOf &&
          (y.startOf.isNone || e.startOf.isNone))) = true) :
        (v.apply y).mapLive (editDraft e.turn e.edit) =
          (v.mapLive (editDraft e.turn e.edit)).apply y := by
      rw [apply_block hy,apply_block hy]
      simp only [mapLive,List.map_map]
      congr 1
      refine List.map_congr_left fun t _ => editDraft_comm ?_ t
      simp only [Bool.or_eq_true,Bool.and_eq_true,decide_eq_true_eq,Option.isNone_iff_eq_none] at h
      refine h.imp id fun h steps => ChatEvent.edit_comm he hy (fun hk => ?_) h.2 steps
      exact h.1 (by rw [hy,he,hk])
    have hclose (interrupted : Bool) (h : y.turn ≠ e.turn) :
        (v.close y.turn interrupted).mapLive (editDraft e.turn e.edit) =
          (v.mapLive (editDraft e.turn e.edit)).close y.turn interrupted := by
      refine (mapLive_close hkey (fun t _ hk => ?_) interrupted).symm
      have hne : t.key ≠ e.turn := fun ht => h (hk.symm.trans ht)
      rw [editDraft_of_ne hne]
    obtain ⟨member,turnId,body⟩ := y
    simp only [after,apply_block he]
    cases body with
    | queued position => rfl
    | teamMessage member' message seq =>
      refine (mapLive_teamMessage hkey (fun t ht => steady_editDraft he ?_) message seq).symm
      have h : (decide (member' ≠ e.member) || e.startOf.isNone) = true := h
      simp only [Bool.or_eq_true,decide_eq_true_eq,Option.isNone_iff_eq_none] at h
      exact h.imp (fun hne hk => hne (ht.symm.trans (congrArg Prod.fst hk))) id
    | memberView member' sender message => exact (mapLive_memberView member' sender message).symm
    | turnStart =>
      have hne : TurnDraft.key ⟨member,turnId,[],0⟩ ≠ e.turn := of_decide_eq_true h
      exact (mapLive_turnStart hkey (editDraft_of_ne hne _)).symm
    | blockStart step index type toolId name => exact hblock rfl h
    | delta step index text => exact hblock rfl h
    | blockEnd step index block => exact hblock rfl h
    | toolResult toolId status result =>
      refine (mapLive_settle fun t => ?_).symm
      have hk : (t.settle toolId status result).key = t.key := rfl
      by_cases ht : t.key = e.turn
      · rw [editDraft_of_key (hk.trans ht),editDraft_of_key ht]
        simp only [TurnDraft.settle,ChatEvent.edit_settleSteps he h]
      · rw [editDraft_of_ne ht,editDraft_of_ne (hk ▸ ht)]
    | turnEnd status error =>
      cases status with
      | unspecified => rfl
      | aborted => rfl
      | completed => exact hclose false (of_decide_eq_true h)
      | error => exact hclose true (of_decide_eq_true h)
      | canceled => exact hclose true (of_decide_eq_true h)
    | unknown => rfl

theorem apply_idle (h : e.idle = true) (v : View) : v.apply e = v := by
  obtain ⟨member,turnId,body⟩ := e
  cases body <;> first | rfl | (simp only [ChatEvent.idle,Bool.false_eq_true] at h)
  rename_i status error
  cases status <;> first | rfl | cases h

/-- A late frame commutes with what it yields to. -/
theorem after_yields {y : Shown} (h : y.yields e = true) (v : View) :
    (v.after y).apply e = (v.apply e).after y := by
  simp only [Shown.yields,Bool.or_eq_true,Bool.and_eq_true] at h
  rcases h with (hidle | ⟨hblock,hpasses⟩) | hlate
  · rw [apply_idle hidle,apply_idle hidle]
  · obtain ⟨key,he⟩ := Option.isSome_iff_exists.mp hblock
    exact after_comm he hpasses v
  · cases y with
    | ended => cases hlate
    | frame y =>
      simp only [Bool.and_eq_true] at hlate
      obtain ⟨key,hy⟩ := Option.isSome_iff_exists.mp hlate.1.1
      exact (after_comm hy hlate.2 v).symm

/-- A late frame shows what it shows in its place. -/
theorem run_insert {later : List Shown} (h : ∀ y ∈ later, y.yields e = true)
    (before : List Shown) : run (before ++ .frame e :: later) = (run (before ++ later)).apply e :=
  foldl_insert (f := View.after) (a := .frame e) (fun y hy v => after_yields (h y hy) v) {} before

end View

end Dominion.Web
