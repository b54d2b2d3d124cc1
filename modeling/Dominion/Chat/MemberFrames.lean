import Dominion.Chat.Collector
import Mathlib.Data.List.Basic
import Mathlib.Data.List.Range

/-! # The frames of one member

The frames form turns.  A journal says for every block frame in which turn and in which visit of a
step it was sent, and for which block of the provider. -/
namespace Dominion.Chat

open Dominion.Framework

/-- The open turn after a frame, if the frame may be sent in the open turn. -/
def accept (turn : Option String) : ChatEvent → Option (Option String)
  | .turnStart turnId _ => if turn = none then some (some turnId) else none
  | .blockStart turnId _ _ _ _ _ => if turn = some turnId then some turn else none
  | .delta turnId _ _ _ _ => if turn = some turnId then some turn else none
  | .blockEnd turnId _ _ _ _ => if turn = some turnId then some turn else none
  | .toolResult turnId _ _ _ _ => if turn = some turnId then some turn else none
  | .turnEnd turnId _ _ _ _ => if turn = some turnId then some none else none
  | .teamMessage _ _ _ => some turn
  | .memberView _ _ _ => some turn

/-- The turn identity and the index of a block frame. -/
def ChatEvent.block : ChatEvent → Option (String × Nat)
  | .blockStart turnId _ index _ _ _ => some (turnId,index)
  | .delta turnId _ index _ _ => some (turnId,index)
  | .blockEnd turnId _ index _ _ => some (turnId,index)
  | _ => none

def ChatEvent.team : ChatEvent → Option (String × Nat × String)
  | .teamMessage member message seq => some (member,message,seq)
  | _ => none

structure BlockRecord where
  frame : ChatEvent
  /-- The ordinal of the turn. -/
  turn : Nat
  /-- The ordinal of the visit of a step. -/
  visit : Nat
  provider : Int
  index : Nat
  deriving DecidableEq, Repr

structure Journal where
  /-- The step that was declared last in the turn. -/
  declared : Option Int := none
  visit : Nat := 0
  records : List BlockRecord := []

namespace Label

variable (cfg : CollectorConfig)

def frame : Label → Option AssistantStreamFrame
  | .envelope ⟨memberId,.inr (.assistantStream frame)⟩ =>
    if memberId = cfg.memberId then frame else none
  | _ => none

/-- The step that the label declares. -/
def declares (l : Label) : Option Int :=
  (l.frame cfg).bind fun f => if f.type = "start" ∧ f.attemptId.isSome then f.step else none

/-- The provider's index of the block that the label is about. -/
def provider (l : Label) : Int :=
  (((l.frame cfg).bind AssistantStreamFrame.chunk).bind StreamChunk.index).getD 0

end Label

namespace Journal

/-- A new turn has declared nothing. -/
def latch (j : Journal) (opened : Bool) : Journal :=
  if opened then { j with declared := none } else j

/-- Another step begins a visit. -/
def declare (j : Journal) (step : Option Int) : Journal :=
  match step with
  | none => j
  | some step =>
    if j.declared = some step then j
    else { j with declared := some step, visit := j.visit + 1 }

def note (j : Journal) (turn : Nat) (provider : Int) (frames : List ChatEvent) : Journal :=
  { j with records := j.records ++ frames.filterMap fun frame =>
      frame.block.map fun block => ⟨frame,turn,j.visit,provider,block.2⟩ }

def indexes (j : Journal) (turn : Nat) : List Nat :=
  (j.records.filter fun r => r.turn = turn).map BlockRecord.index

end Journal

def observe (cfg : CollectorConfig) (w : World) (l : Label) (w' : World) (j : Journal) : Journal :=
  ((j.latch (decide (w'.minted ≠ w.minted))).declare (l.declares cfg)).note w'.minted
    (l.provider cfg) (w'.frames.drop w.frames.length)

section note

variable {j : Journal} {turn : Nat} {provider : Int} {frames : List ChatEvent}

private theorem note_quiet (h : ∀ e ∈ frames, e.block = none) :
    j.note turn provider frames = j := by
  have hnone : ∀ e ∈ frames, (e.block.map fun block =>
      (⟨e,turn,j.visit,provider,block.2⟩ : BlockRecord)) = none := by
    intro e he
    rw [h e he]
    rfl
  simp [Journal.note,List.filterMap_eq_nil_iff.mpr hnone]

private theorem note_block {e : ChatEvent} {turnId : String} {index : Nat}
    (h : ∀ e ∈ frames, e.block = none) (he : e.block = some (turnId,index)) :
    j.note turn provider (frames ++ [e]) =
      { j with records := j.records ++ [⟨e,turn,j.visit,provider,index⟩] } := by
  have hnone : ∀ e ∈ frames, (e.block.map fun block =>
      (⟨e,turn,j.visit,provider,block.2⟩ : BlockRecord)) = none := by
    intro e he
    rw [h e he]
    rfl
  simp [Journal.note,List.filterMap_eq_nil_iff.mpr hnone,he]

end note

/-! ## Turns -/

/-- The open turn and the journal agree. -/
structure OpenTurn (cfg : CollectorConfig) (a : ActiveMemberTurn) (minted : Nat) (j : Journal) :
    Prop where
  declared : j.declared = a.step
  id : ∃ n, minted = n + 1 ∧ a.turnId = cfg.mint n
  table : ∀ p i, a.localIndexes p = some i ↔
    ∃ r ∈ j.records, r.turn = minted ∧ r.visit = j.visit ∧ r.provider = p ∧ r.index = i
  count : (j.indexes minted).eraseDups = List.range a.nextIndex

structure TurnInv (cfg : CollectorConfig) (active : Option ActiveMemberTurn) (minted : Nat)
    (frames : List ChatEvent) (j : Journal) : Prop where
  turns : frames.foldlM accept none = some (active.map ActiveMemberTurn.turnId)
  records : j.records.map BlockRecord.frame = frames.filter fun e => e.block.isSome
  ids : ∀ r ∈ j.records, ∃ n, r.turn = n + 1 ∧ r.frame.block = some (cfg.mint n,r.index)
  past : ∀ r ∈ j.records, r.turn ≤ minted ∧ r.visit ≤ j.visit
  pairs : ∀ r ∈ j.records, ∀ r' ∈ j.records, r.turn = r'.turn →
    (r.index = r'.index ↔ r.visit = r'.visit ∧ r.provider = r'.provider)
  gapless : ∀ turn, ∃ n, (j.indexes turn).eraseDups = List.range n
  opened : ∀ a, active = some a → OpenTurn cfg a minted j

section turns

variable {cfg : CollectorConfig} {active : Option ActiveMemberTurn} {a a' : ActiveMemberTurn}
  {minted : Nat} {frames : List ChatEvent} {j : Journal} {e : ChatEvent}
  {turn turn' : Option String}

private theorem foldlM_accept_append (h : frames.foldlM accept none = some turn)
    (he : accept turn e = some turn') : (frames ++ [e]).foldlM accept none = some turn' := by
  rw [List.foldlM_append,h]
  simpa using he

/-- A frame that is no block and leaves the turn open. -/
theorem TurnInv.quiet (h : TurnInv cfg active minted frames j) (hblock : e.block = none)
    (haccept : accept (active.map ActiveMemberTurn.turnId) e =
      some (active.map ActiveMemberTurn.turnId)) :
    TurnInv cfg active minted (frames ++ [e]) j where
  turns := foldlM_accept_append h.turns haccept
  records := by simp [h.records,hblock]
  ids := h.ids
  past := h.past
  pairs := h.pairs
  gapless := h.gapless
  opened := h.opened

private theorem TurnInv.latch (h : TurnInv cfg none minted frames j) (role : String) :
    TurnInv cfg (some { turnId := cfg.mint minted }) (minted + 1)
      (frames ++ [.turnStart (cfg.mint minted) role]) { j with declared := none } where
  turns := foldlM_accept_append h.turns rfl
  records := by simp [h.records,ChatEvent.block]
  ids := h.ids
  past r hr := ⟨Nat.le_succ_of_le (h.past r hr).1,(h.past r hr).2⟩
  pairs := h.pairs
  gapless := h.gapless
  opened a ha := by
    cases ha
    have hnone : ∀ r ∈ j.records, r.turn ≠ minted + 1 := by
      intro r hr he
      have hle := (h.past r hr).1
      omega
    refine ⟨rfl,⟨minted,rfl,rfl⟩,fun p i => ?_,?_⟩
    · constructor
      · intro hfalse
        cases hfalse
      · rintro ⟨r,hr,hturn,-⟩
        exact absurd hturn (hnone r hr)
    · have hempty : j.indexes (minted + 1) = [] := by
        simpa [Journal.indexes] using hnone
      have hsame : Journal.indexes { j with declared := none } (minted + 1) = [] := hempty
      rw [hsame]
      rfl

private theorem TurnInv.keep (h : TurnInv cfg (some a) minted frames j) (hid : a'.turnId = a.turnId)
    (hstep : a'.step = a.step) (htable : a'.localIndexes = a.localIndexes)
    (hnext : a'.nextIndex = a.nextIndex) : TurnInv cfg (some a') minted frames j where
  turns := by
    rw [h.turns]
    simp [hid]
  records := h.records
  ids := h.ids
  past := h.past
  pairs := h.pairs
  gapless := h.gapless
  opened b hb := by
    cases hb
    have hopen := h.opened a rfl
    exact ⟨hstep ▸ hopen.declared,hid ▸ hopen.id,htable ▸ hopen.table,hnext ▸ hopen.count⟩

private theorem TurnInv.declare (h : TurnInv cfg (some a) minted frames j) (step : Int)
    (hstep : a'.step = some step) (hid : a'.turnId = a.turnId)
    (htable : a'.localIndexes = fun _ => none) (hnext : a'.nextIndex = a.nextIndex) :
    TurnInv cfg (some a') minted frames
      { j with declared := some step, visit := j.visit + 1 } where
  turns := by
    rw [h.turns]
    simp [hid]
  records := h.records
  ids := h.ids
  past r hr := ⟨(h.past r hr).1,Nat.le_succ_of_le (h.past r hr).2⟩
  pairs := h.pairs
  gapless := h.gapless
  opened b hb := by
    cases hb
    have hopen := h.opened a rfl
    refine ⟨hstep.symm,hid ▸ hopen.id,fun p i => ?_,hnext ▸ hopen.count⟩
    rw [htable]
    constructor
    · intro hfalse
      cases hfalse
    · rintro ⟨r,hr,-,hvisit,-⟩
      have hold := (h.past r hr).2
      have hnew : r.visit = j.visit + 1 := hvisit
      omega

private theorem TurnInv.close (h : TurnInv cfg (some a) minted frames j) (role : String)
    (status : TurnStatus) (error : Option LlmFailure) (usage : Option TurnUsage) :
    TurnInv cfg none minted (frames ++ [.turnEnd a.turnId role status error usage]) j where
  turns := foldlM_accept_append h.turns (by simp [accept])
  records := by simp [h.records,ChatEvent.block]
  ids := h.ids
  past := h.past
  pairs := h.pairs
  gapless := h.gapless
  opened b hb := by cases hb

private theorem eraseDups_append_singleton (l : List Nat) (i : Nat) :
    (l ++ [i]).eraseDups = if i ∈ l then l.eraseDups else l.eraseDups ++ [i] := by
  rw [List.eraseDups_append]
  by_cases hi : i ∈ l
  · simp [hi,List.removeAll]
  · simp [hi,List.removeAll,List.eraseDups_cons]

private theorem indexes_append (j : Journal) (r : BlockRecord) (turn : Nat) :
    Journal.indexes { j with records := j.records ++ [r] } turn =
      j.indexes turn ++ if r.turn = turn then [r.index] else [] := by
  by_cases hr : r.turn = turn
  · simp [Journal.indexes,hr]
  · simp [Journal.indexes,hr]

private theorem mem_indexes {turn i : Nat} :
    i ∈ j.indexes turn ↔ ∃ r ∈ j.records, r.turn = turn ∧ r.index = i := by
  simp [Journal.indexes,and_assoc]

/-- What holds of the records after one more: it agrees with the older ones of its turn. -/
theorem pairs_append {r : BlockRecord}
    (h : ∀ x ∈ j.records, ∀ y ∈ j.records, x.turn = y.turn →
      (x.index = y.index ↔ x.visit = y.visit ∧ x.provider = y.provider))
    (hr : ∀ x ∈ j.records, r.turn = x.turn →
      (r.index = x.index ↔ r.visit = x.visit ∧ r.provider = x.provider)) :
    ∀ x ∈ j.records ++ [r], ∀ y ∈ j.records ++ [r], x.turn = y.turn →
      (x.index = y.index ↔ x.visit = y.visit ∧ x.provider = y.provider) := by
  intro x hx y hy hturn
  rcases List.mem_append.mp hx with hold | hx
  · rcases List.mem_append.mp hy with hy | hy
    · exact h x hold y hy hturn
    · obtain rfl := List.mem_singleton.mp hy
      have hsym := hr x hold hturn.symm
      rw [eq_comm,hsym,eq_comm,@eq_comm _ y.provider]
  · obtain rfl := List.mem_singleton.mp hx
    rcases List.mem_append.mp hy with hy | hy
    · exact hr y hy hturn
    · obtain rfl := List.mem_singleton.mp hy
      simp

/-- A block frame with the index that the table assigns. -/
theorem TurnInv.block (h : TurnInv cfg (some a) minted frames j) (provider : Int)
    (hblock : e.block = some (a.turnId,(remapIndex a provider).1))
    (haccept : accept (some a.turnId) e = some (some a.turnId)) :
    TurnInv cfg (some (remapIndex a provider).2) minted (frames ++ [e])
      { j with records := j.records ++
        [⟨e,minted,j.visit,provider,(remapIndex a provider).1⟩] } := by
  have hopen := h.opened a rfl
  obtain ⟨n,hminted,hid⟩ := hopen.id
  have hrecords : (j.records ++ [(⟨e,minted,j.visit,provider,(remapIndex a provider).1⟩ : BlockRecord)]).map
      BlockRecord.frame = (frames ++ [e]).filter fun e => e.block.isSome := by
    simp [h.records,hblock]
  have hids : ∀ r ∈ j.records ++
      [(⟨e,minted,j.visit,provider,(remapIndex a provider).1⟩ : BlockRecord)],
      ∃ n, r.turn = n + 1 ∧ r.frame.block = some (cfg.mint n,r.index) := by
    intro r hr
    rcases List.mem_append.mp hr with hr | hr
    · exact h.ids r hr
    · obtain rfl := List.mem_singleton.mp hr
      exact ⟨n,hminted,hid ▸ hblock⟩
  have hpast : ∀ r ∈ j.records ++
      [(⟨e,minted,j.visit,provider,(remapIndex a provider).1⟩ : BlockRecord)],
      r.turn ≤ minted ∧ r.visit ≤ j.visit := by
    intro r hr
    rcases List.mem_append.mp hr with hr | hr
    · exact h.past r hr
    · obtain rfl := List.mem_singleton.mp hr
      exact ⟨Nat.le_refl _,Nat.le_refl _⟩
  cases htable : a.localIndexes provider with
  | some i =>
    have hmap : remapIndex a provider = (i,a) := by simp [remapIndex,htable]
    rw [hmap] at hrecords hids hpast ⊢
    obtain ⟨r₀,hr₀,hturn,hvisit,hprovider,hindex⟩ := (hopen.table provider i).mp htable
    have hmem : i ∈ j.indexes minted := mem_indexes.mpr ⟨r₀,hr₀,hturn,hindex⟩
    have hcount : ∀ turn, (Journal.indexes { j with
        records := j.records ++ [(⟨e,minted,j.visit,provider,i⟩ : BlockRecord)] } turn).eraseDups =
        (j.indexes turn).eraseDups := by
      intro turn
      rw [indexes_append]
      by_cases ht : minted = turn
      · subst ht
        simp [eraseDups_append_singleton,hmem]
      · simp [ht]
    refine ⟨foldlM_accept_append h.turns haccept,hrecords,hids,hpast,?_,?_,?_⟩
    · refine pairs_append h.pairs fun x hx hx' => ?_
      have hold := h.pairs r₀ hr₀ x hx (hturn.trans hx')
      rw [hindex,hvisit,hprovider] at hold
      exact hold
    · intro turn
      rw [hcount turn]
      exact h.gapless turn
    · intro b hb
      cases hb
      refine ⟨hopen.declared,hopen.id,fun p k => ?_,(hcount minted).trans hopen.count⟩
      rw [hopen.table p k]
      constructor
      · rintro ⟨r,hr,hspec⟩
        exact ⟨r,List.mem_append_left _ hr,hspec⟩
      · rintro ⟨r,hr,hspec⟩
        rcases List.mem_append.mp hr with hr | hr
        · exact ⟨r,hr,hspec⟩
        · obtain rfl := List.mem_singleton.mp hr
          obtain ⟨-,-,rfl,rfl⟩ := hspec
          exact ⟨r₀,hr₀,hturn,hvisit,hprovider,hindex⟩
  | none =>
    have hmap : remapIndex a provider = (a.nextIndex,
        { a with
          nextIndex := a.nextIndex + 1
          localIndexes := Function.update a.localIndexes provider (some a.nextIndex) }) := by
      simp [remapIndex,htable]
    rw [hmap] at hrecords hids hpast ⊢
    have hbelow : ∀ x ∈ j.records, x.turn = minted → x.index < a.nextIndex := by
      intro x hx ht
      have hmem : x.index ∈ (j.indexes minted).eraseDups :=
        List.mem_eraseDups.mpr (mem_indexes.mpr ⟨x,hx,ht,rfl⟩)
      rw [hopen.count] at hmem
      exact List.mem_range.mp hmem
    have hfresh : a.nextIndex ∉ j.indexes minted := by
      intro hmem
      obtain ⟨x,hx,ht,hi⟩ := mem_indexes.mp hmem
      have hlt := hbelow x hx ht
      omega
    have hunseen : ∀ x ∈ j.records, x.turn = minted →
        ¬(j.visit = x.visit ∧ provider = x.provider) := by
      intro x hx ht hsame
      have hassigned := (hopen.table provider x.index).mpr
        ⟨x,hx,ht,hsame.1.symm,hsame.2.symm,rfl⟩
      rw [htable] at hassigned
      cases hassigned
    have hcount : (Journal.indexes { j with
        records := j.records ++ [(⟨e,minted,j.visit,provider,a.nextIndex⟩ : BlockRecord)] } minted).eraseDups =
        List.range (a.nextIndex + 1) := by
      rw [indexes_append,if_pos rfl,eraseDups_append_singleton,if_neg hfresh,hopen.count,
        List.range_succ]
    refine ⟨foldlM_accept_append h.turns haccept,hrecords,hids,hpast,?_,?_,?_⟩
    · refine pairs_append h.pairs fun x hx hx' => ?_
      have hlt := hbelow x hx hx'.symm
      exact iff_of_false (Nat.ne_of_gt hlt) (hunseen x hx hx'.symm)
    · intro turn
      by_cases ht : minted = turn
      · subst ht
        exact ⟨_,hcount⟩
      · rw [indexes_append,if_neg ht,List.append_nil]
        exact h.gapless turn
    · intro b hb
      cases hb
      refine ⟨hopen.declared,hopen.id,fun p k => ?_,hcount⟩
      show Function.update a.localIndexes provider (some a.nextIndex) p = some k ↔ _
      by_cases hp : p = provider
      · subst hp
        rw [Function.update_self]
        constructor
        · intro hk
          cases hk
          exact ⟨_,List.mem_append_right _ (List.mem_singleton_self _),rfl,rfl,rfl,rfl⟩
        · rintro ⟨r,hr,hturn,hvisit,hprovider,hindex⟩
          rcases List.mem_append.mp hr with hr | hr
          · exact absurd ⟨hvisit.symm,hprovider.symm⟩ (hunseen r hr hturn)
          · obtain rfl := List.mem_singleton.mp hr
            exact congrArg some hindex
      · rw [Function.update_of_ne hp,hopen.table p k]
        constructor
        · rintro ⟨r,hr,hspec⟩
          exact ⟨r,List.mem_append_left _ hr,hspec⟩
        · rintro ⟨r,hr,hspec⟩
          rcases List.mem_append.mp hr with hr | hr
          · exact ⟨r,hr,hspec⟩
          · obtain rfl := List.mem_singleton.mp hr
            exact absurd hspec.2.2.1.symm hp

/-- Frames that are no blocks and leave every turn as it is. -/
theorem TurnInv.quietAll {events : List ChatEvent} (h : TurnInv cfg active minted frames j)
    (hevents : ∀ e ∈ events, e.block = none ∧ ∀ turn, accept turn e = some turn) :
    TurnInv cfg active minted (frames ++ events) j := by
  induction events generalizing frames with
  | nil => simpa using h
  | cons e events ih =>
    have he := hevents e (List.mem_cons_self ..)
    have hrest : ∀ e ∈ events, e.block = none ∧ ∀ turn, accept turn e = some turn :=
      fun e hmem => hevents e (List.mem_cons_of_mem _ hmem)
    have hstep := ih (h.quiet he.1 (he.2 _)) hrest
    simpa using hstep

end turns

/-! ## The merged sequence -/

/-- The team messages that were sent are the entries, numbered from 1 on. -/
structure Merged (h : TeamHistory) (frames : List ChatEvent) : Prop where
  frames : frames.filterMap ChatEvent.team =
    h.listTeamMessages.map fun e => (e.member,e.message,toString e.seq)
  seqs : h.listTeamMessages.map TeamMergeEntry.seq = List.range' 1 h.listTeamMessages.length
  next : h.nextSeq = h.merge.length + 1

/-- What an operation of the history leaves and sends. -/
structure Written (h : TeamHistory) (written : TeamHistory × List ChatEvent) : Prop where
  merged : ∀ frames, Merged h frames → Merged written.1 (frames ++ written.2)
  quiet : ∀ e ∈ written.2, e.block = none ∧ ∀ turn, accept turn e = some turn

section history

variable {h : TeamHistory} {frames : List ChatEvent} {e : ChatEvent}

private theorem Merged.other (hm : Merged h frames) (he : e.team = none) :
    Merged h (frames ++ [e]) := by
  refine ⟨?_,hm.seqs,hm.next⟩
  simp [hm.frames,he]

private theorem Written.refl : Written h (h,[]) where
  merged frames hm := by simpa using hm
  quiet e he := by cases he

private theorem Merged.append (hm : Merged h frames) (member : String) (message : Nat) :
    Merged (h.appendMerge member message).1 (frames ++ [(h.appendMerge member message).2]) where
  frames := by
    have hframes := hm.frames
    simp only [TeamHistory.listTeamMessages] at hframes
    simp [TeamHistory.appendMerge,TeamHistory.listTeamMessages,ChatEvent.team,hframes]
  seqs := by
    have hseqs := hm.seqs
    simp only [TeamHistory.listTeamMessages] at hseqs
    simp [TeamHistory.appendMerge,TeamHistory.listTeamMessages,hseqs,hm.next,List.range'_1_concat,
      Nat.add_comm]
  next := by simp [TeamHistory.appendMerge,hm.next]

private theorem Merged.of_merge {h' : TeamHistory} (hm : Merged h frames)
    (hmerge : h'.merge = h.merge) (hnext : h'.nextSeq = h.nextSeq) : Merged h' frames := by
  refine ⟨?_,?_,?_⟩
  · rw [hm.frames]
    simp [TeamHistory.listTeamMessages,hmerge]
  · have hseqs := hm.seqs
    simp only [TeamHistory.listTeamMessages] at hseqs ⊢
    rw [hmerge,hseqs]
  · rw [hnext,hm.next,hmerge]

private theorem written_appendMemberOutput (role : String) (content : List ContentBlockView)
    (interrupted recordView : Bool) :
    Written h (h.appendMemberOutput role content interrupted recordView) := by
  unfold TeamHistory.appendMemberOutput
  dsimp only
  split
  · exact .refl
  · refine ⟨fun frames hm => ?_,fun e he => ?_⟩
    · have hcreated : Merged (h.newMessage .agent (content.filterMap blockToContentBlock)
          interrupted).2 frames := hm.of_merge rfl rfl
      split
      · exact (hcreated.append role h.messages.length).of_merge rfl rfl
      · exact hcreated.append role h.messages.length
    · obtain rfl := List.mem_singleton.mp he
      exact ⟨rfl,fun _ => rfl⟩

private theorem written_appendMemberViewUser (member : String) (content : List ContentBlockView)
    (kind : String) (role : Option String) (recordView : Bool) :
    Written h (h.appendMemberViewUser member content kind role recordView) := by
  unfold TeamHistory.appendMemberViewUser
  dsimp only
  split
  · exact .refl
  split
  · exact .refl
  split
  · exact .refl
  · refine ⟨fun frames hm => ?_,fun e he => ?_⟩
    · have hview := hm.other (e := .memberView member
        (if kind = "team-broadcast" then broadcastSender role else "user") h.messages.length) rfl
      exact hview.of_merge rfl rfl
    · obtain rfl := List.mem_singleton.mp he
      exact ⟨rfl,fun _ => rfl⟩

private theorem Merged.settle (hm : Merged h frames) (role toolId : String) (status : ToolStatus)
    (result : String) : Merged (h.settleToolResult role toolId status result).2 frames := by
  unfold TeamHistory.settleToolResult
  split
  · exact hm
  · exact hm.of_merge rfl rfl

end history

/-! ## One event -/

structure Inv (cfg : CollectorConfig) (w : World) (j : Journal) : Prop where
  turn : TurnInv cfg w.collector.active w.minted w.frames j
  merged : Merged w.history w.frames

/-- A part of a step that sends no block and declares nothing. -/
structure Quiet (cfg : CollectorConfig) (w w' : World) : Prop where
  frames : ∃ new, w'.frames = w.frames ++ new ∧ ∀ e ∈ new, e.block = none
  inv : ∀ j, Inv cfg w j → Inv cfg w' (j.latch (decide (w'.minted ≠ w.minted)))

section events

variable {cfg : CollectorConfig} {w w' w'' : World} {a : ActiveMemberTurn} {j : Journal}

/-- A part that opens no turn. -/
theorem Quiet.of_inv (hminted : w'.minted = w.minted)
    (hframes : ∃ new, w'.frames = w.frames ++ new ∧ ∀ e ∈ new, e.block = none)
    (hinv : ∀ j, Inv cfg w j → Inv cfg w' j) : Quiet cfg w w' := by
  refine ⟨hframes,fun j hj => ?_⟩
  rw [hminted]
  simpa [Journal.latch] using hinv j hj

private theorem Quiet.refl (cfg : CollectorConfig) (w : World) : Quiet cfg w w :=
  .of_inv rfl ⟨[],by simp,by simp⟩ fun _ hj => hj

private theorem Quiet.then (h : Quiet cfg w w') (hminted : w''.minted = w'.minted)
    (hframes : ∃ new, w''.frames = w'.frames ++ new ∧ ∀ e ∈ new, e.block = none)
    (hinv : ∀ j, Inv cfg w' j → Inv cfg w'' j) : Quiet cfg w w'' := by
  obtain ⟨new,hnew,hblock⟩ := h.frames
  obtain ⟨more,hmore,hblock'⟩ := hframes
  refine ⟨⟨new ++ more,by rw [hmore,hnew,List.append_assoc],fun e he => ?_⟩,fun j hj => ?_⟩
  · rcases List.mem_append.mp he with he | he
    · exact hblock e he
    · exact hblock' e he
  · rw [hminted]
    exact hinv _ (h.inv j hj)

theorem ensureActive_active : (w.ensureActive cfg).2.collector.active =
    some (w.ensureActive cfg).1 := by
  unfold World.ensureActive
  split
  · assumption
  · rfl

private theorem quiet_ensureActive : Quiet cfg w (w.ensureActive cfg).2 := by
  unfold World.ensureActive
  split
  · exact .refl cfg w
  · rename_i hnone
    refine ⟨⟨[_],rfl,?_⟩,fun j hj => ⟨?_,?_⟩⟩
    · intro e he
      obtain rfl := List.mem_singleton.mp he
      rfl
    · have hturn := hj.turn
      rw [hnone] at hturn
      simpa [World.sink,World.setActive,Journal.latch] using hturn.latch cfg.role
    · exact hj.merged.other rfl

/-- The open turn changes, but for what its frames depend on. -/
theorem Inv.keep (h : Inv cfg w j) (a' : ActiveMemberTurn) (ha : w.collector.active = some a)
    (hid : a'.turnId = a.turnId) (hstep : a'.step = a.step)
    (htable : a'.localIndexes = a.localIndexes) (hnext : a'.nextIndex = a.nextIndex) :
    Inv cfg (w.setActive (some a')) j := by
  have hturn := h.turn
  rw [ha] at hturn
  exact ⟨hturn.keep hid hstep htable hnext,h.merged⟩

private theorem Inv.setHistory {written : TeamHistory × List ChatEvent} (h : Inv cfg w j)
    (hw : Written w.history written) : Inv cfg (w.setHistory written) j :=
  ⟨h.turn.quietAll hw.quiet,hw.merged w.frames h.merged⟩

private theorem setHistory_frames {written : TeamHistory × List ChatEvent}
    (hw : Written w.history written) :
    ∃ new, (w.setHistory written).frames = w.frames ++ new ∧ ∀ e ∈ new, e.block = none :=
  ⟨written.2,rfl,fun e he => (hw.quiet e he).1⟩

private theorem quiet_recordFailure (failure : Option LlmFailureView) :
    Quiet cfg w (w.recordFailure failure) := by
  unfold World.recordFailure
  split
  · rename_i active failure hactive
    exact .of_inv rfl ⟨[],by simp [World.setActive],by simp⟩ fun j hj =>
      hj.keep _ hactive rfl rfl rfl rfl
  · exact .refl cfg w

private theorem quiet_onToolResult (toolCallId : Option String) (isError : Bool)
    (content : List ContentBlockView) : Quiet cfg w (w.onToolResult cfg toolCallId isError content) := by
  unfold World.onToolResult
  dsimp only
  generalize toolCallId.getD "" = toolId
  generalize (if isError = true then ToolStatus.failed else ToolStatus.succeeded) = status
  generalize String.join _ = result
  have hsettle : ∀ j, Inv cfg w j → Inv cfg
      { w with history := (w.history.settleToolResult cfg.role toolId status result).2 } j :=
    fun j hj => ⟨hj.turn,hj.merged.settle cfg.role toolId status result⟩
  generalize hv : { w with
    history := (w.history.settleToolResult cfg.role toolId status result).2 } = v at hsettle ⊢
  have hensure : Quiet cfg w (v.ensureActive cfg).2 := by
    have hquiet : Quiet cfg v (v.ensureActive cfg).2 := quiet_ensureActive
    have hframes : v.frames = w.frames := by rw [← hv]
    have hminted : v.minted = w.minted := by rw [← hv]
    refine ⟨hframes ▸ hquiet.frames,fun j hj => ?_⟩
    rw [← hminted]
    exact hquiet.inv j (hsettle j hj)
  refine hensure.then rfl ⟨[_],rfl,fun e he => ?_⟩ fun j hj => ⟨?_,hj.merged.other rfl⟩
  · obtain rfl := List.mem_singleton.mp he
    rfl
  · refine hj.turn.quiet rfl ?_
    rw [ensureActive_active]
    simp [accept]

private theorem quiet_onSessionEvent (event : SessionEvent) :
    Quiet cfg w (w.onSessionEvent cfg event) := by
  cases event with
  | userMessage content kind role =>
    have hw := written_appendMemberViewUser (h := w.history) cfg.role content kind role
      cfg.recordView
    exact .of_inv rfl (setHistory_frames hw) fun j hj => hj.setHistory hw
  | assistantMessage content usage interrupted =>
    refine quiet_ensureActive.then rfl ?_ fun j hj => ?_
    · exact setHistory_frames (written_appendMemberOutput cfg.role content interrupted
        cfg.recordView)
    · have hkeep := hj.keep { (w.ensureActive cfg).1 with
        usage := usage.or (w.ensureActive cfg).1.usage
        pending := [] } ensureActive_active rfl rfl rfl rfl
      exact hkeep.setHistory
        (written_appendMemberOutput cfg.role content interrupted cfg.recordView)
  | toolCall => exact .refl cfg w
  | toolResult toolCallId isError content => exact quiet_onToolResult toolCallId isError content
  | turnEnd kind error =>
    show Quiet cfg w (if kind = some "error" then w.recordFailure error else w)
    split
    · exact quiet_recordFailure error
    · exact .refl cfg w
  | other => exact .refl cfg w

private theorem quiet_onStatus (status : String) : Quiet cfg w (w.onStatus cfg status) := by
  unfold World.onStatus
  split
  · exact quiet_ensureActive
  split
  · exact .refl cfg w
  split
  · exact .refl cfg w
  · rename_i a ha
    dsimp only
    generalize (w.turnOutcome a).status = status
    generalize (w.turnOutcome a).error = error
    generalize (if status = TurnStatus.completed then a.usage.map usageToProto else none) = usage
    generalize hw : w.history.appendMemberOutput cfg.role (a.pending.map PendingBlock.view) true
      cfg.recordView = written
    have hwritten : Written w.history written :=
      hw ▸ written_appendMemberOutput cfg.role _ true cfg.recordView
    have hend : ∀ e ∈ [ChatEvent.turnEnd a.turnId cfg.role status error usage],
        e.block = none := by
      intro e he
      obtain rfl := List.mem_singleton.mp he
      rfl
    split
    · refine .of_inv rfl
        ⟨written.2 ++ [.turnEnd a.turnId cfg.role status error usage],
          by simp [World.sink,World.setHistory],?_⟩
        fun j hj => ⟨?_,(hwritten.merged _ hj.merged).other rfl⟩
      · intro e he
        rcases List.mem_append.mp he with he | he
        · exact (hwritten.quiet e he).1
        · exact hend e he
      · have hturn := hj.turn.quietAll hwritten.quiet
        rw [ha] at hturn
        exact hturn.close cfg.role status error usage
    · refine .of_inv rfl ⟨[_],rfl,hend⟩ fun j hj => ⟨?_,hj.merged.other rfl⟩
      have hturn := hj.turn
      rw [ha] at hturn
      exact hturn.close cfg.role status error usage

private theorem enterStep_inv (step : Int) (h : Inv cfg w j) :
    Inv cfg (w.enterStep cfg step)
      ((j.latch (decide ((w.enterStep cfg step).minted ≠ w.minted))).declare (some step)) ∧
    ∃ new, (w.enterStep cfg step).frames = w.frames ++ new ∧ ∀ e ∈ new, e.block = none := by
  have hquiet : Quiet cfg w (w.ensureActive cfg).2 := quiet_ensureActive
  have hactive : (w.ensureActive cfg).2.collector.active = some (w.ensureActive cfg).1 :=
    ensureActive_active
  have hinv := hquiet.inv j h
  have hopen := hinv.turn.opened _ hactive
  have hminted : (w.enterStep cfg step).minted = (w.ensureActive cfg).2.minted := by
    unfold World.enterStep
    dsimp only
    split <;> rfl
  have hframes : (w.enterStep cfg step).frames = (w.ensureActive cfg).2.frames := by
    unfold World.enterStep
    dsimp only
    split <;> rfl
  rw [hminted,hframes]
  refine ⟨?_,hquiet.frames⟩
  generalize j.latch (decide ((w.ensureActive cfg).2.minted ≠ w.minted)) = j' at hinv hopen ⊢
  have hdeclared := hopen.declared
  unfold World.enterStep Journal.declare
  dsimp only
  by_cases hstep : (w.ensureActive cfg).1.step = some step
  · rw [if_pos hstep,if_pos (hdeclared.trans hstep)]
    exact hinv
  · rw [if_neg hstep,if_neg (hdeclared ▸ hstep)]
    have hturn := hinv.turn
    rw [hactive] at hturn
    exact ⟨hturn.declare step rfl rfl rfl rfl,hinv.merged⟩

/-- The frame of a chunk is a block frame of the open turn. -/
theorem chunkToChatEvent_block {chunk : StreamChunk} {turnId member : String} {step : Int}
    {event : Nat → ChatEvent} (h : chunkToChatEvent chunk turnId member step = some event)
    (index : Nat) : (event index).block = some (turnId,index) ∧ (event index).team = none ∧
      accept (some turnId) (event index) = some (some turnId) := by
  unfold chunkToChatEvent at h
  split at h
  · obtain ⟨type,-,rfl⟩ := Option.map_eq_some_iff.mp h
    simp [ChatEvent.block,ChatEvent.team,accept]
  split at h
  · obtain rfl := Option.some.inj h
    simp [ChatEvent.block,ChatEvent.team,accept]
  split at h
  · obtain rfl := Option.some.inj h
    simp [ChatEvent.block,ChatEvent.team,accept]
  split at h
  · obtain ⟨block,-,rfl⟩ := Option.map_eq_some_iff.mp h
    simp [ChatEvent.block,ChatEvent.team,accept]
  · cases h

/-- A chunk sends nothing but, possibly, the opening of a turn and one block. -/
theorem onChunk_inv (chunk : StreamChunk) (step : Int) (h : Inv cfg w j) :
    ∃ new, (w.onChunk cfg chunk step).frames = w.frames ++ new ∧
      Inv cfg (w.onChunk cfg chunk step)
        ((j.latch (decide ((w.onChunk cfg chunk step).minted ≠ w.minted))).note
          (w.onChunk cfg chunk step).minted (chunk.index.getD 0) new) := by
  have hquiet : Quiet cfg w (w.ensureActive cfg).2 := quiet_ensureActive
  have hactive : (w.ensureActive cfg).2.collector.active = some (w.ensureActive cfg).1 :=
    ensureActive_active
  obtain ⟨new,hnew,hsilent⟩ := hquiet.frames
  have hinv := hquiet.inv j h
  unfold World.onChunk
  dsimp only
  split
  · refine ⟨new,hnew,?_⟩
    have hkeep := hinv.keep { (w.ensureActive cfg).1 with usage := chunk.usage } hactive
      rfl rfl rfl rfl
    rw [note_quiet hsilent]
    exact hkeep
  · let noted : ActiveMemberTurn := { (w.ensureActive cfg).1 with
      pending := notePending (w.ensureActive cfg).1.pending chunk }
    have hkeep := hinv.keep noted hactive rfl rfl rfl rfl
    split
    · refine ⟨new,hnew,?_⟩
      rw [note_quiet hsilent]
      exact hkeep
    · rename_i event hevent
      obtain ⟨hblock,hteam,haccept⟩ := chunkToChatEvent_block hevent
        (remapIndex noted (chunk.index.getD 0)).1
      refine ⟨new ++ [event (remapIndex noted (chunk.index.getD 0)).1],?_,?_⟩
      · simp [World.sink,World.setActive,hnew,noted]
      · have hturn := hkeep.turn.block (chunk.index.getD 0) hblock haccept
        rw [note_block hsilent hblock]
        exact ⟨hturn,hkeep.merged.other hteam⟩

/-! ## Runs -/

private theorem observe_quiet {l : Label} (hdeclares : l.declares cfg = none)
    (hframes : ∃ new, w'.frames = w.frames ++ new ∧ ∀ e ∈ new, e.block = none) :
    observe cfg w l w' j = j.latch (decide (w'.minted ≠ w.minted)) := by
  obtain ⟨new,hnew,hblock⟩ := hframes
  simp only [observe,hdeclares,Journal.declare,hnew,List.drop_left]
  exact note_quiet hblock

/-- A quiet step whose label declares nothing. -/
theorem Quiet.observed {l : Label} (hq : Quiet cfg w w') (h : Inv cfg w j)
    (hdeclares : l.declares cfg = none) : Inv cfg w' (observe cfg w l w' j) := by
  rw [observe_quiet hdeclares hq.frames]
  exact hq.inv j h

private theorem quiet_setAttempt (attemptId : String) (step : Option Int) :
    Quiet cfg w (w.setAttempt attemptId step) :=
  .of_inv rfl ⟨[],by simp [World.setAttempt],by simp⟩ fun _ hj => ⟨hj.turn,hj.merged⟩

private theorem onAssistantStream_inv (frame : Option AssistantStreamFrame) {l : Label}
    (hl : l.frame cfg = frame) (h : Inv cfg w j) :
    Inv cfg (w.onAssistantStream cfg frame) (observe cfg w l (w.onAssistantStream cfg frame) j) := by
  cases frame with
  | none => exact (Quiet.refl cfg w).observed h (by simp [Label.declares,hl])
  | some f =>
    unfold World.onAssistantStream
    dsimp only
    split
    · rename_i hid
      exact (Quiet.refl cfg w).observed h (by simp [Label.declares,hl,hid])
    rename_i attemptId hid
    split
    · rename_i htype
      split
      · rename_i hstep
        exact (Quiet.refl cfg w).observed h (by simp [Label.declares,hl,hstep])
      · rename_i step hstep
        have hdeclares : l.declares cfg = some step := by
          simp [Label.declares,hl,htype,hid,hstep]
        have hset : Inv cfg (w.setAttempt attemptId (some step)) j := ⟨h.turn,h.merged⟩
        obtain ⟨hinv,new,hnew,hblock⟩ := enterStep_inv step hset
        have hframes : ((w.setAttempt attemptId (some step)).enterStep cfg step).frames =
            w.frames ++ new := hnew
        simp only [observe,hdeclares,hframes,List.drop_left]
        rw [note_quiet hblock]
        exact hinv
    · rename_i hstart
      have hdeclares : l.declares cfg = none := by simp [Label.declares,hl,hstart]
      split
      · split
        · rename_i step chunk hattempt hchunk
          have hprovider : l.provider cfg = chunk.index.getD 0 := by
            simp [Label.provider,hl,hchunk]
          obtain ⟨new,hnew,hinv⟩ := onChunk_inv chunk step h
          simp only [observe,hdeclares,Journal.declare,hprovider,hnew,List.drop_left]
          exact hinv
        · exact (Quiet.refl cfg w).observed h hdeclares
      · exact (quiet_setAttempt attemptId none).observed h hdeclares

private theorem applyEvent_inv (envelope : TeamMemberEvent) (h : Inv cfg w j) :
    Inv cfg (w.applyEvent cfg envelope)
      (observe cfg w (.envelope envelope) (w.applyEvent cfg envelope) j) := by
  obtain ⟨memberId,event⟩ := envelope
  unfold World.applyEvent
  dsimp only
  by_cases hid : memberId = cfg.memberId
  · rw [if_neg (not_not.mpr hid)]
    cases event with
    | inl event => exact (quiet_onSessionEvent event).observed h rfl
    | inr event =>
      cases event with
      | assistantStream frame => exact onAssistantStream_inv frame (by simp [Label.frame,hid]) h
      | status status => exact (quiet_onStatus status).observed h rfl
      | error error => exact (quiet_recordFailure (toFailure error)).observed h rfl
  · rw [if_pos hid]
    refine (Quiet.refl cfg w).observed h ?_
    have hframe : (Label.envelope ⟨memberId,event⟩).frame cfg = none := by
      cases event with
      | inl event => rfl
      | inr event =>
        cases event with
        | assistantStream frame => simp [Label.frame,hid]
        | status status => rfl
        | error error => rfl
    simp [Label.declares,hframe]

end events

/-- The collector beside the journal of its block frames. -/
def journaledSystem (cfg : CollectorConfig) : Lts (World × Journal) Label :=
  (collectorSystem cfg).journaled (observe cfg) {}

private theorem inv_init (cfg : CollectorConfig) : Inv cfg {} {} where
  turn := ⟨rfl,rfl,by simp,by simp,by simp,fun _ => ⟨0,rfl⟩,by simp⟩
  merged := ⟨rfl,rfl,rfl⟩

private theorem inductive_inv (cfg : CollectorConfig) :
    Lts.Inductive (journaledSystem cfg) (fun _ _ => True) fun x => Inv cfg x.1 x.2 where
  init x hx := by
    obtain ⟨w,j⟩ := x
    obtain ⟨rfl,rfl⟩ : w = {} ∧ j = {} := hx
    exact inv_init cfg
  step x l y hx _ hstep := by
    obtain ⟨hs,hj⟩ := Lts.journaled_step.mp hstep
    rw [hj]
    cases l with
    | envelope envelope =>
      rw [← Option.some.inj hs]
      exact applyEvent_inv envelope hx
    | markOutcome outcome =>
      rw [← Option.some.inj hs]
      have hquiet : Quiet cfg x.1 (x.1.markOutcome outcome) :=
        .of_inv rfl ⟨[],by simp [World.markOutcome],by simp⟩ fun _ hj => ⟨hj.turn,hj.merged⟩
      exact hquiet.observed hx rfl

/-- The frames form turns.  Two block frames of one turn have the same index exactly if they were
sent in the same visit of a step for the same block of the provider, and the indexes are counted
up from 0.  The team messages are the entries of the history. -/
theorem member_frames (cfg : CollectorConfig) :
    ∀ x, Lts.Reach (journaledSystem cfg) x →
      (x.1.frames.foldlM accept none).isSome = true ∧
      x.2.records.map BlockRecord.frame = (x.1.frames.filter fun e => e.block.isSome) ∧
      (∀ r ∈ x.2.records, ∃ n, r.turn = n + 1 ∧ r.frame.block = some (cfg.mint n,r.index)) ∧
      (∀ r ∈ x.2.records, ∀ r' ∈ x.2.records, r.turn = r'.turn →
        (r.index = r'.index ↔ r.visit = r'.visit ∧ r.provider = r'.provider)) ∧
      (∀ turn, ∃ n, (x.2.indexes turn).eraseDups = List.range n) ∧
      x.1.frames.filterMap ChatEvent.team =
        (x.1.history.listTeamMessages.map fun e => (e.member,e.message,toString e.seq)) ∧
      x.1.history.listTeamMessages.map TeamMergeEntry.seq =
        List.range' 1 x.1.history.listTeamMessages.length := by
  intro x hx
  obtain ⟨hturn,hmerged⟩ := (inductive_inv cfg).of_reachUnder hx
  refine ⟨?_,hturn.records,hturn.ids,hturn.pairs,hturn.gapless,hmerged.frames,hmerged.seqs⟩
  rw [hturn.turns]
  rfl

/-! ## Two runs -/

def planner : CollectorConfig := ⟨"s/planner","planner",true,toString⟩

def streamed (frame : AssistantStreamFrame) : Label :=
  .envelope ⟨"s/planner",.inr (.assistantStream (some frame))⟩

def attemptStarts (attemptId : String) (step : Int) : Label :=
  streamed ⟨"start",some attemptId,some step,none⟩

def textArrives (attemptId : String) (index : Int) : Label :=
  streamed ⟨"chunk",some attemptId,none,
    some { type := "text-delta", index := some index, text := some "x" }⟩

def ChatEvent.step : ChatEvent → Option Int
  | .blockStart _ _ _ _ step _ => some step
  | .delta _ _ _ _ step => some step
  | .blockEnd _ _ _ _ step => some step
  | _ => none

/-- What a record says, with the step that its frame carries. -/
def BlockRecord.digest (r : BlockRecord) : Nat × Nat × Int × Nat × Option Int :=
  (r.turn,r.visit,r.provider,r.index,r.frame.step)

private theorem records_of_digests {records : List BlockRecord}
    {d d' : Nat × Nat × Int × Nat × Option Int} (h : records.map BlockRecord.digest = [d,d']) :
    ∃ r r', records = [r,r'] ∧ r.digest = d ∧ r'.digest = d' := by
  obtain ⟨r,rest,rfl,hr,hrest⟩ := List.map_eq_cons_iff.mp h
  obtain ⟨r',rest',rfl,hr',hnil⟩ := List.map_eq_cons_iff.mp hrest
  obtain rfl := List.map_eq_nil_iff.mp hnil
  exact ⟨r,r',rfl,hr,hr'⟩

/-- A turn that retries a step, goes on to another one, and ends. -/
theorem member_frames_demo : ∃ x, Lts.Reach (journaledSystem planner) x ∧
    x.2.records.map BlockRecord.digest =
      [(1,1,0,0,some 1),(1,1,0,0,some 1),(1,1,4,1,some 1),(1,2,0,2,some 2)] ∧
    x.2.indexes 1 = [0,0,1,2] ∧ (x.1.frames.foldlM accept none).isSome = true := by
  obtain ⟨x,hx,hp⟩ := Lts.reach_of_run_any (M := journaledSystem planner) (s := ({},{}))
    (p := fun x => decide (x.2.records.map BlockRecord.digest =
      [(1,1,0,0,some 1),(1,1,0,0,some 1),(1,1,4,1,some 1),(1,2,0,2,some 2)] ∧
      x.2.indexes 1 = [0,0,1,2]))
    [attemptStarts "a" 1,textArrives "a" 0,attemptStarts "b" 1,textArrives "b" 0,textArrives "b" 4,
      attemptStarts "c" 2,textArrives "c" 0,.envelope ⟨"s/planner",.inr (.status "idle")⟩]
    (.init ⟨rfl,rfl⟩) (by decide)
  have hboth := of_decide_eq_true hp
  exact ⟨x,hx,hboth.1,hboth.2,(member_frames planner x hx).1⟩

/-- A turn that comes back to a step uses another index for a block of the step, and a chunk of an
attempt whose step is over shares its index with a block of the next step. -/
theorem steps_do_not_determine_indexes :
    (¬∀ x, Lts.Reach (journaledSystem planner) x →
      ∀ r ∈ x.2.records, ∀ r' ∈ x.2.records, r.turn = r'.turn → r.frame.step = r'.frame.step →
        r.provider = r'.provider → r.index = r'.index) ∧
    ¬∀ x, Lts.Reach (journaledSystem planner) x →
      ∀ r ∈ x.2.records, ∀ r' ∈ x.2.records, r.turn = r'.turn → r.index = r'.index →
        r.frame.step = r'.frame.step := by
  constructor
  · intro h
    obtain ⟨x,hx,hp⟩ := Lts.reach_of_run_any (M := journaledSystem planner) (s := ({},{}))
      (p := fun x => decide (x.2.records.map BlockRecord.digest =
        [(1,1,0,0,some 1),(1,3,0,1,some 1)]))
      [attemptStarts "a" 1,textArrives "a" 0,attemptStarts "b" 2,attemptStarts "c" 1,
        textArrives "c" 0] (.init ⟨rfl,rfl⟩) (by decide)
    obtain ⟨r,r',hrecords,hr,hr'⟩ := records_of_digests (of_decide_eq_true hp)
    simp only [BlockRecord.digest,Prod.mk.injEq] at hr hr'
    have hsame := h x hx r (by simp [hrecords]) r' (by simp [hrecords]) (by rw [hr.1,hr'.1])
      (by rw [hr.2.2.2.2,hr'.2.2.2.2]) (by rw [hr.2.2.1,hr'.2.2.1])
    rw [hr.2.2.2.1,hr'.2.2.2.1] at hsame
    cases hsame
  · intro h
    obtain ⟨x,hx,hp⟩ := Lts.reach_of_run_any (M := journaledSystem planner) (s := ({},{}))
      (p := fun x => decide (x.2.records.map BlockRecord.digest =
        [(1,2,0,0,some 1),(1,2,0,0,some 2)]))
      [attemptStarts "a" 1,attemptStarts "b" 2,textArrives "a" 0,textArrives "b" 0]
      (.init ⟨rfl,rfl⟩) (by decide)
    obtain ⟨r,r',hrecords,hr,hr'⟩ := records_of_digests (of_decide_eq_true hp)
    simp only [BlockRecord.digest,Prod.mk.injEq] at hr hr'
    have hsame := h x hx r (by simp [hrecords]) r' (by simp [hrecords]) (by rw [hr.1,hr'.1])
      (by rw [hr.2.2.2.1,hr'.2.2.2.1])
    rw [hr.2.2.2.2,hr'.2.2.2.2] at hsame
    cases hsame

end Dominion.Chat
