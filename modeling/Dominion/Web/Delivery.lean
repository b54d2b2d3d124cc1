import Dominion.Web.Ownership
import Dominion.Web.Streams

/-! # What a delivered frame changes

A frame that comes late shows what it shows in its place, a frame that comes again shows nothing,
and a delta that is dropped is missed until the owner of its block has it. -/
namespace Dominion.Web

open Dominion.Framework
open Dominion.Chat (ContentBlock HistoryMessage ToolStatus)

variable {frames : List ChatEvent} {x : Session} {i j p q : Nat} {stream : SendStream}
  {e e' : ChatEvent} {k : String × String} {key : BlockKey} {text : String} {block : ContentBlock}

/-! ### Frames that do not commute -/

private theorem yields_same_block (he : e.blockOf = some key) (he' : e'.blockOf = some key)
    (hturn : e'.turn = e.turn) : (Shown.frame e').yields e = false := by
  have hblocks {a b : ChatEvent} (ha : a.blockOf = some key) (hb : b.blockOf = some key)
      (hturn : b.turn = a.turn) : (Shown.frame b).passes a = false := by
    have hpasses : (Shown.frame b).passes a = (b.turn ≠ a.turn || (b.blockOf ≠ a.blockOf &&
        (b.startOf.isNone || a.startOf.isNone))) := by
      obtain ⟨member,turnId,body⟩ := b
      cases body <;> first | rfl | cases hb
    simp [hpasses,hturn,ha,hb]
  have hidle : e.idle = false := by
    obtain ⟨member,turnId,body⟩ := e
    cases body <;> first | rfl | cases he
  simp only [Shown.yields,hidle,hblocks he he' hturn,hblocks he' he hturn.symm,Bool.and_false,
    Bool.or_false]

/-- The first and the last frame of a turn commute with frames of blocks of other turns. -/
theorem turn_ne_of_yields (he : e.closes = true ∨ e.body = .turnStart) {y : Entry}
    (h : y.shown.yields e = true) :
    ∃ q e', y = .frame q e' ∧ e'.blockOf ≠ none ∧ e'.turn ≠ e.turn := by
  have hkind : e.idle = false ∧ e.blockOf = none ∧
      ∀ y : ChatEvent, (Shown.frame e).passes y = true → e.turn ≠ y.turn := by
    obtain ⟨member,turnId,body⟩ := e
    cases body with
    | turnStart => exact ⟨rfl,rfl,fun y hy => of_decide_eq_true hy⟩
    | turnEnd status error =>
      have hcloses := he.resolve_right (by simp)
      cases status with
      | completed => exact ⟨rfl,rfl,fun y hy => of_decide_eq_true hy⟩
      | error => exact ⟨rfl,rfl,fun y hy => of_decide_eq_true hy⟩
      | canceled => exact ⟨rfl,rfl,fun y hy => of_decide_eq_true hy⟩
      | aborted => cases hcloses
      | unspecified => cases hcloses
    | _ => simp [ChatEvent.closes] at he
  obtain ⟨hidle,hblock,hpasses⟩ := hkind
  cases y with
  | ended => simp [Entry.shown,Shown.yields,hidle,hblock] at h
  | frame q e' =>
    simp only [Entry.shown,Shown.yields,hidle,hblock,Option.isSome_none,Bool.false_and,
      Bool.false_or,Bool.and_eq_true] at h
    exact ⟨q,e',rfl,Option.isSome_iff_ne_none.mp h.1.1,(hpasses e' h.2).symm⟩

private theorem yields_of_aborts (he : e.aborts = true) (y : Shown) : y.yields e = false := by
  have hkind : e.idle = false ∧ e.blockOf = none := by
    obtain ⟨member,turnId,body⟩ := e
    cases body <;> simp only [ChatEvent.aborts,Bool.false_eq_true] at he
    rename_i status error
    cases status <;> first | exact ⟨rfl,rfl⟩ | cases he
  cases y <;> simp [Shown.yields,hkind.1,hkind.2,he]

private theorem stops_frame : Entry.stops k (.frame p e) = (e.closes && e.turn = k || e.aborts) :=
  rfl

private theorem open_of_block (he : e.blockOf = some key) :
    e.closes = false ∧ e.aborts = false ∧ e.body ≠ .turnStart := by
  obtain ⟨member,turnId,body⟩ := e
  cases body <;> first | cases he; done | exact ⟨rfl,rfl,by simp⟩

theorem mem_blockOf_of_deltaOf (h : e.deltaOf = some (key,text)) : e.blockOf = some key :=
  (ChatEvent.blockOf_of_deltaOf h).1

private theorem deltaOf_of_ends (he : e.closes = true ∨ e.aborts = true) : e.deltaOf = none := by
  by_contra hne
  obtain ⟨block,hdelta⟩ := Option.ne_none_iff_exists'.mp hne
  obtain ⟨hcloses,haborts,_⟩ := open_of_block (mem_blockOf_of_deltaOf hdelta)
  rw [hcloses,haborts] at he
  simp at he

/-! ### Sessions and their scripts -/

private theorem seen_iff : x.seen p = true ↔ p ∈ places x.script := by
  simp [Session.seen,places]

private theorem not_mem_places (h : x.seen p = false) : p ∉ places x.script := by
  intro hmem
  rw [seen_iff.mpr hmem] at h
  cases h

private theorem ended_iff : x.ended k key = true ↔
    ∃ q e block, .frame q e ∈ x.script ∧ e.turn = k ∧ e.endOf = some (key,block) := by
  simp only [Session.ended,List.any_eq_true,Entry.finishes_iff]
  constructor
  · rintro ⟨y,hy,q,e,block,rfl,hturn,hend⟩
    exact ⟨q,e,block,hy,hturn,hend⟩
  · rintro ⟨q,e,block,hy,hturn,hend⟩
    exact ⟨_,hy,q,e,block,rfl,hturn,hend⟩

/-- The blocks with a delta from after their end. -/
def Session.tornBlocks (x : Session) : Blocks :=
  {block | block ∈ x.torn}

/-- What a session shows, and what its streams have delivered. -/
structure Follower (frames : List ChatEvent) (x : Session) : Prop where
  ordered : Ordered frames x.script
  shown : x.store.state.view.blank x.tornBlocks = (View.run (told x.taken)).blank x.tornBlocks
  /-- A delta that is left out is made good by the end of its block, or its turn is live. -/
  dropped : ∀ p ∈ x.dropped, ∃ e key text, .frame p e ∈ x.script ∧ e.deltaOf = some (key,text) ∧
    safe e.turn key (since p x.script) = true ∧
      (covered e.turn key (since p x.script) = true ∨ x.store.state.isLive e.turn = true)
  /-- The deltas of an open block are left out from the place of its owner on. -/
  owners : ∀ k key j, x.store.state.owner k key = some j → ∃ owner, x.streams j = some owner ∧
    (x.ended k key = false → ∀ p e text, .frame p e ∈ x.script → e.turn = k →
      e.deltaOf = some (key,text) → (p ∈ x.dropped ↔ owner.pos ≤ p))
  unowned : ∀ k key, x.store.state.isLive k = true → x.store.state.owner k key = none →
    x.ended k key = false → ∀ p e text, .frame p e ∈ x.script → e.turn = k →
      e.deltaOf = some (key,text) → p ∉ x.dropped
  /-- The owner of a block with a late delta has its end still before it. -/
  torn : ∀ k key, (k,key) ∈ x.torn → ∃ p e block, .frame p e ∈ x.script ∧ e.turn = k ∧
    e.endOf = some (key,block) ∧ (x.store.state.isLive k = true →
      ∃ j owner, x.store.state.owner k key = some j ∧ x.streams j = some owner ∧ owner.pos ≤ p)
  ids : ∀ j stream, x.streams j = some stream → j ≤ x.store.nextStreamId

theorem Ordered.agrees {script : List Entry} (h : Ordered frames script) (hf : Fanned frames)
    (he : frames[p]? = some e) {t : TurnDraft} (ht : t ∈ (View.run (told script)).live) :
    t.Agrees e := by
  intro hk key block hend b hb hcall
  obtain ⟨turn,hturn,rfl⟩ := h.exists_turn hf ht
  obtain ⟨e',he',hsame,hkind⟩ := ((h.anchored hf).turns turn hturn).calls key b hb hcall
  have hturns : e'.turn = e.turn := hsame.trans hk
  obtain ⟨y,hy,hevent⟩ := List.mem_filterMap.mp he'
  cases y with
  | ended => cases hevent
  | frame q a =>
    cases hevent
    have hq := h.frames q e' hy
    rcases hkind with ⟨draft,hstart,hdraft⟩ | ⟨block',hend',hblock'⟩
    · obtain ⟨hblock,_,hnoend⟩ := ChatEvent.blockOf_of_startOf hstart
      have hne : p ≠ q := by
        rintro rfl
        obtain rfl := Option.some.inj (he.symm.trans hq)
        rw [hend] at hnoend
        cases hnoend
      have hlt := lt_of_end hf he hq hend hturns hblock hne
      exact (follows_of_lt hf hq he hlt).toolCall key draft block hturns hstart hend hdraft
    · by_cases hne : p = q
      · subst hne
        obtain rfl := Option.some.inj (he.symm.trans hq)
        obtain rfl : block' = block := congrArg Prod.snd (Option.some.inj (hend'.symm.trans hend))
        exact hblock'
      · have hlt := lt_of_end hf he hq hend hturns (ChatEvent.blockOf_of_endOf hend').1 hne
        have hgt := lt_of_end hf hq he hend' hturns.symm (ChatEvent.blockOf_of_endOf hend).1
          (Ne.symm hne)
        omega

namespace Follower

private theorem taken (h : Follower frames x) : Ordered frames x.taken :=
  h.ordered.sublist List.filter_sublist

private theorem isLive_taken (h : Follower frames x) (k : String × String) :
    x.store.state.isLive k = (View.run (told x.taken)).isLive k := by
  rw [← isLive_view]
  exact View.isLive_congr (View.live_keys h.shown) k

theorem distinct (h : Follower frames x) (hf : Fanned frames) : x.store.state.Distinct := by
  have hkeys := View.live_keys h.shown
  rw [← h.taken.view hf] at hkeys
  have hview (s : ChatState) : s.view.live.map TurnDraft.key = s.live.map LiveMemberTurn.key := by
    simp only [ChatState.view,List.map_map]
    rfl
  rw [hview,hview] at hkeys
  rw [ChatState.Distinct,hkeys]
  exact (h.taken.anchored hf).distinct

private theorem split (h : Follower frames x) (p : Nat) :
    ∃ A, x.script = A ++ since p x.script ∧ ∀ q ∈ places (since p x.script), p < q := by
  by_cases hp : p ∈ places x.script
  · obtain ⟨e,he⟩ := mem_places.mp hp
    obtain ⟨A,hA,_,hafter⟩ := exists_frame h.ordered.places he
    exact ⟨A ++ [.frame p e],by simpa using hA,hafter⟩
  · obtain ⟨A,hA,_,_,hafter⟩ := exists_split h.ordered.places hp ⟨"","",.unknown⟩
    exact ⟨A,hA,hafter⟩

private theorem lt_of_since (h : Follower frames x) (hq : .frame q e ∈ since p x.script) :
    p < q := by
  obtain ⟨A,_,hafter⟩ := h.split p
  exact hafter q (mem_places.mpr ⟨e,hq⟩)

private theorem frame_since (h : Follower frames x) (hq : .frame q e ∈ since p x.script) :
    frames[q]? = some e :=
  h.ordered.frames q e ((since_sublist p x.script).subset hq)

theorem delta_of_dropped (h : Follower frames x) (hp : p ∈ x.dropped)
    (he : frames[p]? = some e) : ∃ key text, e.deltaOf = some (key,text) := by
  obtain ⟨e',key,text,he',hdelta,_⟩ := h.dropped p hp
  obtain rfl := Option.some.inj ((h.ordered.frames p e' he').symm.trans he)
  exact ⟨key,text,hdelta⟩

private theorem not_dropped (h : Follower frames x) (hp : p ∉ places x.script) : p ∉ x.dropped := by
  intro hmem
  obtain ⟨e,_,_,he,_⟩ := h.dropped p hmem
  exact hp (mem_places.mpr ⟨e,he⟩)

private theorem kept_of_none (h : Follower frames x) (he : frames[p]? = some e)
    (hdelta : e.deltaOf = none) :
    p ∉ x.dropped := by
  intro hmem
  obtain ⟨key,text,hsome⟩ := h.delta_of_dropped hmem he
  rw [hdelta] at hsome
  cases hsome

private theorem not_stops (h : Follower frames x) (hf : Fanned frames) (he : frames[p]? = some e)
    (hlive : x.store.state.isLive e.turn = true) :
    ∀ y ∈ since p x.script, y.stops e.turn = false := by
  obtain ⟨A,hA,hafter⟩ := h.split p
  have hsplit : x.taken = without x.dropped A ++ without x.dropped (since p x.script) := by
    rw [Session.taken]
    conv_lhs => rw [hA]
    exact without_append _ _ _
  have hrun : View.run (told x.taken) =
      (told (without x.dropped (since p x.script))).foldl View.after
        (View.run (told (without x.dropped A))) := by
    rw [hsplit]
    simp only [View.run,told,List.map_append,List.foldl_append]
  rw [h.isLive_taken,hrun] at hlive
  have hstarts : ∀ y ∈ since p x.script, y.starts e.turn = false := by
    intro y hy
    rw [Bool.eq_false_iff]
    intro hstart
    obtain ⟨q,e',rfl,hbody,hturn⟩ := Entry.starts_iff.mp hstart
    exact (follows_of_lt hf he (h.frame_since hy) (h.lt_of_since hy)).turnStart hbody hturn.symm
  have hopen := (View.isLive_of_foldl hlive fun y hy => hstarts y (mem_without.mp hy).1).2
  intro y hy
  by_cases hdropped : ∀ q ∈ y.place?, q ∉ x.dropped
  · exact hopen y (mem_without.mpr ⟨hy,hdropped⟩)
  · cases y with
    | ended => exact absurd (fun q hq => by cases hq) hdropped
    | frame q e' =>
      have hq : q ∈ x.dropped := by simpa [Entry.place?] using hdropped
      obtain ⟨key,text,hdelta⟩ := h.delta_of_dropped hq (h.frame_since hy)
      obtain ⟨hcloses,haborts,_⟩ := open_of_block (mem_blockOf_of_deltaOf hdelta)
      rw [stops_frame,hcloses,haborts]
      rfl

/-- The end of a block covers its deltas. -/
theorem covered_of_ended (h : Follower frames x) (hf : Fanned frames) (he : frames[p]? = some e)
    (hdelta : e.deltaOf = some (key,text)) (hended : x.ended e.turn key = true) :
    covered e.turn key (since p x.script) = true := by
  obtain ⟨q,e',block,hq,hturn,hend⟩ := ended_iff.mp hended
  have hne : q ≠ p := by
    rintro rfl
    obtain rfl := Option.some.inj ((h.ordered.frames q e' hq).symm.trans he)
    rw [(ChatEvent.blockOf_of_endOf hend).2.2] at hdelta
    cases hdelta
  have hlt : p < q := lt_of_end hf (h.ordered.frames q e' hq) he hend hturn.symm
    (mem_blockOf_of_deltaOf hdelta) hne
  refine List.any_eq_true.mpr ⟨_,mem_since hq hlt,?_⟩
  rw [Entry.covers,Entry.finishes_iff.mpr ⟨q,e',block,rfl,hturn,hend⟩]
  rfl

end Follower

/-! ### The script after a frame -/

private theorem delivered_stream (j : Nat) : (x.delivered i stream e).streams j =
    if j = i then some ⟨stream.pos + 1,true⟩ else x.streams j := by
  simp only [Session.delivered,Function.update_apply]

private theorem delivered_dropped_of_none (i : Nat) (stream : SendStream)
    (hdelta : e.deltaOf = none) :
    (x.delivered i stream e).dropped = x.dropped := by
  simp only [Session.delivered,Session.droppedBy,hdelta]

private theorem mem_delivered_dropped (hne : q ≠ stream.pos) :
    q ∈ (x.delivered i stream e).dropped ↔ q ∈ x.dropped := by
  simp only [Session.delivered,Session.droppedBy]
  cases e.deltaOf with
  | none => rfl
  | some block =>
    simp only
    split
    · split
      · rfl
      · simp [hne]
    · split
      · simp [hne]
      · rfl

private theorem taken_of_seen (hseen : x.seen stream.pos = true)
    (hdropped : (x.delivered i stream e).dropped = x.dropped) :
    (x.delivered i stream e).taken = x.taken := by
  rw [Session.taken,Session.taken,hdropped]
  simp only [Session.delivered,hseen,if_true]

namespace Follower

variable (h : Follower frames x) (he : frames[stream.pos]? = some e)
include h he

private theorem frame_of_seen (hseen : x.seen stream.pos = true) :
    .frame stream.pos e ∈ x.script := by
  obtain ⟨e',he'⟩ := mem_places.mp (seen_iff.mp hseen)
  obtain rfl := Option.some.inj ((h.ordered.frames _ e' he').symm.trans he)
  exact he'

private theorem mem_delivered_script {y : Entry} : y ∈ (x.delivered i stream e).script ↔
    y = .frame stream.pos e ∨ y ∈ x.script := by
  simp only [Session.delivered]
  split
  · rename_i hseen
    constructor
    · exact .inr
    · rintro (rfl | hy)
      · exact h.frame_of_seen he hseen
      · exact hy
  · exact mem_put

private theorem delivered_split : ∃ A, (x.delivered i stream e).script =
      A ++ .frame stream.pos e :: since stream.pos x.script ∧
    stream.pos ∉ places A ∧ stream.pos ∉ places (since stream.pos x.script) ∧
    if x.seen stream.pos = true then
      x.script = A ++ .frame stream.pos e :: since stream.pos x.script
    else x.script = A ++ since stream.pos x.script := by
  have hnot {L : List Entry} (hL : ∀ q ∈ places L, q < stream.pos ∨ stream.pos < q) :
      stream.pos ∉ places L := by
    intro hmem
    rcases hL _ hmem with hlt | hlt <;> omega
  cases hseen : x.seen stream.pos with
  | true =>
    obtain ⟨A,hA,hbefore,hafter⟩ := exists_frame h.ordered.places (h.frame_of_seen he hseen)
    refine ⟨A,?_,hnot fun q hq => .inl (hbefore q hq),hnot fun q hq => .inr (hafter q hq),hA⟩
    simp only [Session.delivered,hseen,if_true]
    exact hA
  | false =>
    have hp := not_mem_places hseen
    obtain ⟨A,hA,hput,hbefore,hafter⟩ := exists_split h.ordered.places hp e
    refine ⟨A,?_,hnot fun q hq => .inl (hbefore q hq),hnot fun q hq => .inr (hafter q hq),hA⟩
    simp only [Session.delivered,hseen,Bool.false_eq_true,if_false]
    exact hput

private theorem delivered_ordered (i : Nat) : Ordered frames (x.delivered i stream e).script where
  places := by
    simp only [Session.delivered]
    split
    · exact h.ordered.places
    · rename_i hseen
      exact places_put h.ordered.places (fun hmem => hseen (seen_iff.mpr hmem)) e
  frames p e' he' := by
    rcases (h.mem_delivered_script he).mp he' with hsame | hold
    · obtain ⟨rfl,rfl⟩ := Entry.frame.inj hsame
      exact he
    · exact h.ordered.frames p e' hold

private theorem ended_mono (hended : (x.delivered i stream e).ended k key = false) :
    x.ended k key = false := by
  rw [Bool.eq_false_iff] at hended ⊢
  intro hold
  obtain ⟨q,e',block,hq,hturn,hend⟩ := ended_iff.mp hold
  exact hended (ended_iff.mpr ⟨q,e',block,(h.mem_delivered_script he).mpr (.inr hq),hturn,hend⟩)

private theorem delivered_cases (hq : .frame q e' ∈ (x.delivered i stream e).script) :
    q = stream.pos ∧ e' = e ∨ q ≠ stream.pos ∧ .frame q e' ∈ x.script := by
  by_cases hpos : q = stream.pos
  · subst hpos
    exact .inl ⟨rfl,Option.some.inj (((h.delivered_ordered he i).frames _ _ hq).symm.trans he)⟩
  · refine .inr ⟨hpos,((h.mem_delivered_script he).mp hq).resolve_left fun hsame => ?_⟩
    exact hpos (Entry.frame.inj hsame).1

private theorem ended_delivered (hend : e.endOf = some (key,block)) :
    (x.delivered i stream e).ended e.turn key = true :=
  ended_iff.mpr ⟨stream.pos,e,block,(h.mem_delivered_script he).mpr (.inl rfl),rfl,hend⟩

/-- A frame that the store takes, and that commutes with what it takes from after its place. -/
theorem run_taken (hdropped : stream.pos ∉ (x.delivered i stream e).dropped)
    (hbefore : x.seen stream.pos = true → stream.pos ∈ x.dropped)
    (hyields : ∀ y ∈ since stream.pos x.script, (∀ q ∈ y.place?, q ∉ x.dropped) →
      y.shown.yields e = true) :
    View.run (told (x.delivered i stream e).taken) = (View.run (told x.taken)).apply e := by
  obtain ⟨A,hscript,hA,hB,hold⟩ := h.delivered_split he (i := i)
  have hcongr {L : List Entry} (hL : stream.pos ∉ places L) :
      without (x.delivered i stream e).dropped L = without x.dropped L :=
    without_congr fun q hq => mem_delivered_dropped fun hsame => hL (hsame ▸ hq)
  have htaken : x.taken =
      without x.dropped A ++ without x.dropped (since stream.pos x.script) := by
    rw [Session.taken]
    split at hold
    · rename_i hseen
      conv_lhs => rw [hold]
      exact without_frame_of_mem (hbefore hseen) _ _ _
    · conv_lhs => rw [hold]
      exact without_append _ _ _
  have htaken' : (x.delivered i stream e).taken = without x.dropped A ++
      .frame stream.pos e :: without x.dropped (since stream.pos x.script) := by
    rw [Session.taken,hscript,without_frame_of_not_mem hdropped,hcongr hA,hcongr hB]
  rw [htaken,htaken']
  simp only [told,List.map_append,List.map_cons]
  refine View.run_insert (fun y hy => ?_) _
  obtain ⟨z,hz,rfl⟩ := List.mem_map.mp hy
  obtain ⟨hz,hkept⟩ := mem_without.mp hz
  exact hyields z hz hkept

/-- A delta that the store does not take. -/
theorem taken_dropped (hdropped : x.seen stream.pos = false →
      stream.pos ∈ (x.delivered i stream e).dropped)
    (hsame : x.seen stream.pos = true → (x.delivered i stream e).dropped = x.dropped) :
    (x.delivered i stream e).taken = x.taken := by
  obtain ⟨A,hscript,hA,hB,hold⟩ := h.delivered_split he (i := i)
  cases hseen : x.seen stream.pos with
  | true => exact taken_of_seen hseen (hsame hseen)
  | false =>
    have hcongr {L : List Entry} (hL : stream.pos ∉ places L) :
        without (x.delivered i stream e).dropped L = without x.dropped L :=
      without_congr fun q hq => mem_delivered_dropped fun hsame => hL (hsame ▸ hq)
    rw [hseen,if_neg Bool.false_ne_true] at hold
    rw [Session.taken,hscript,without_frame_of_mem (hdropped hseen),hcongr hA,hcongr hB,
      Session.taken]
    conv_rhs => rw [hold]
    exact (without_append _ _ _).symm

variable (hf : Fanned frames)
include hf

omit hf in
private theorem taken_split (hseen : x.seen stream.pos = true) (hkept : stream.pos ∉ x.dropped) :
    ∃ A, x.taken = A ++ .frame stream.pos e :: without x.dropped (since stream.pos x.script) := by
  obtain ⟨A,hA,_,_⟩ := exists_frame h.ordered.places (h.frame_of_seen he hseen)
  refine ⟨without x.dropped A,?_⟩
  rw [Session.taken]
  conv_lhs => rw [hA]
  exact without_frame_of_not_mem hkept _ _ _

/-- A frame that was delivered before, and is no delta, shows nothing. -/
theorem run_again (hseen : x.seen stream.pos = true) (hdelta : e.deltaOf = none)
    (hknown : x.Known stream.pos e) :
    (View.run (told x.taken)).apply e = View.run (told x.taken) := by
  obtain ⟨A,hA⟩ := h.taken_split he hseen (h.kept_of_none he hdelta)
  have hordered := h.taken
  rw [hA] at hordered ⊢
  exact hordered.again hf hdelta (hknown.repeats.mono fun y hy => (mem_without.mp hy).1)

/-- The deltas that the store takes commute with what it has taken from after their place. -/
theorem delta_passes (hdelta : e.deltaOf = some (key,text))
    (hlive : x.store.state.isLive e.turn = true) (hopen : x.ended e.turn key = false)
    (howner : x.store.state.owner e.turn key = some i) (hi : x.streams i = some stream)
    {y : Entry} (hy : y ∈ since stream.pos x.script) (hkept : ∀ q ∈ y.place?, q ∉ x.dropped) :
    y.shown.yields e = true := by
  obtain ⟨hblock,hstart,hend⟩ := ChatEvent.blockOf_of_deltaOf hdelta
  have hpasses : y.shown.passes e = true := by
    refine passes_of_open (h.not_stops hf he hlive y hy) ?_ hstart ?_ fun e' he' hturn hsame => ?_
    · rw [Bool.eq_false_iff]
      intro hstarts
      obtain ⟨q,e',rfl,hbody,hturn⟩ := Entry.starts_iff.mp hstarts
      exact (follows_of_lt hf he (h.frame_since hy) (h.lt_of_since hy)).turnStart hbody hturn.symm
    · obtain ⟨member,turnId,body⟩ := e
      cases body with
      | delta step index text' =>
        cases y with
        | ended => rfl
        | frame q e' =>
          obtain ⟨_,_,body'⟩ := e'
          cases body' <;> rfl
      | _ => cases hdelta
    · cases y with
      | ended => cases he'
      | frame q a =>
        cases he'
        have hq := h.frame_since hy
        have hlt := h.lt_of_since hy
        rw [hblock] at hsame
        rcases ChatEvent.block_cases hsame with ⟨draft,hstart'⟩ | ⟨text',hdelta'⟩ | ⟨block,hend'⟩
        · have hgt := lt_of_blockStart hf hq he hstart' hturn.symm hdelta
          omega
        · obtain ⟨owner,howner',hplaces⟩ := h.owners _ _ i howner
          obtain rfl := Option.some.inj (hi.symm.trans howner')
          refine hkept q rfl ?_
          exact (hplaces hopen q _ text' ((since_sublist _ _).subset hy) hturn hdelta').mpr
            (Nat.le_of_lt hlt)
        · have hended : x.ended e.turn key = true :=
            ended_iff.mpr ⟨q,_,block,(since_sublist _ _).subset hy,hturn,hend'⟩
          rw [hopen] at hended
          cases hended
  have hsome : e.blockOf.isSome = true := by rw [hblock]; rfl
  simp only [Shown.yields,hsome,hpasses,Bool.true_and,Bool.or_true,Bool.true_or]

omit hf in
private theorem not_taken_over (hseen : x.seen stream.pos = true) (hknown : x.Known stream.pos e)
    (hdelta : e.deltaOf = some (key,text)) (hlive : x.store.state.isLive e.turn = true)
    (hopen : x.ended e.turn key = false) : x.store.state.owner e.turn key ≠ none := by
  intro hown
  obtain ⟨hblock,_,hend⟩ := ChatEvent.blockOf_of_deltaOf hdelta
  have hlt := hknown.takeover hend hlive key hblock hopen hown _ (h.frame_of_seen he hseen)
    (Entry.adds_iff.mpr ⟨stream.pos,e,text,rfl,rfl,hdelta⟩) stream.pos rfl
  omega

private theorem plain_run (hC : Harmless frames x (.deliver i)) (hi : x.streams i = some stream)
    (hdelta : e.deltaOf = none) :
    View.run (told (x.delivered i stream e).taken) = (View.run (told x.taken)).apply e := by
  obtain ⟨hnew,hagain⟩ := hC stream e hi he
  have hdropped := delivered_dropped_of_none (x := x) i stream hdelta
  cases hseen : x.seen stream.pos with
  | true =>
    rw [taken_of_seen hseen hdropped]
    exact (h.run_again he hf hseen hdelta (hagain hseen)).symm
  | false =>
    refine h.run_taken he ?_ (fun hs => by simp [hseen] at hs) fun y hy _ =>
      (hnew hseen).order hdelta y hy
    rw [hdropped]
    exact h.not_dropped (not_mem_places hseen)

private theorem delta_run (hC : Harmless frames x (.deliver i)) (hi : x.streams i = some stream)
    (hdelta : e.deltaOf = some (key,text)) (hdrops : x.store.state.drops i e = false)
    (hopen : x.ended e.turn key = false) :
    View.run (told (x.delivered i stream e).taken) = (View.run (told x.taken)).apply e := by
  obtain ⟨hnew,hagain⟩ := hC stream e hi he
  have hown : x.store.state.owner e.turn key = none ∨ x.store.state.owner e.turn key = some i := by
    simp only [ChatState.drops,hdelta,decide_eq_false_iff_not,not_and_or,not_not] at hdrops
    exact hdrops
  -- Whatever has overtaken a delta that no stream owns commutes with it.
  have hfree (hseen : x.seen stream.pos = false) (hown : x.store.state.owner e.turn key = none) :
      ∀ y ∈ since stream.pos x.script, y.shown.yields e = true := by
    have hdelta' := (hnew hseen).delta (key,text) hdelta hopen
    simp only [hown] at hdelta'
    exact hdelta'
  cases hlive : x.store.state.isLive e.turn with
  | false =>
    have hdropped : (x.delivered i stream e).dropped = x.dropped := by
      simp only [Session.delivered,Session.droppedBy,hdelta,hdrops,hopen,hlive,Bool.or_self,
        Bool.false_eq_true,if_false]
    cases hseen : x.seen stream.pos with
    | true =>
      rw [taken_of_seen hseen hdropped]
      exact (apply_of_not_live (mem_blockOf_of_deltaOf hdelta)
        ((h.isLive_taken _).symm.trans hlive)).symm
    | false =>
      refine h.run_taken he ?_ (fun hs => by simp [hseen] at hs) fun y hy _ =>
        hfree hseen (owner_of_not_live hlive key) y hy
      rw [hdropped]
      exact h.not_dropped (not_mem_places hseen)
  | true =>
    have hdropped : (x.delivered i stream e).dropped = x.dropped.filter fun q => q ≠ stream.pos := by
      simp only [Session.delivered,Session.droppedBy,hdelta,hdrops,hopen,hlive,Bool.or_self,
        Bool.false_eq_true,if_false,if_true]
    have hnone (hseen : x.seen stream.pos = true) : x.store.state.owner e.turn key ≠ none :=
      h.not_taken_over he hseen (hagain hseen) hdelta hlive hopen
    refine h.run_taken he (by simp [hdropped]) (fun hseen => ?_) fun y hy hkept => ?_
    · -- The owner of the block has its delta again.
      obtain ⟨owner,howner,hplaces⟩ := h.owners _ _ i (hown.resolve_left (hnone hseen))
      obtain rfl := Option.some.inj (hi.symm.trans howner)
      exact (hplaces hopen _ e text (h.frame_of_seen he hseen) rfl hdelta).mpr le_rfl
    · rcases hown with hown | hown
      · cases hseen : x.seen stream.pos with
        | false => exact hfree hseen hown y hy
        | true => exact absurd hown (hnone hseen)
      · exact h.delta_passes he hf hdelta hlive hopen hown hi hy hkept

private theorem closable_delivered (hC : Harmless frames x (.deliver i))
    (hi : x.streams i = some stream) :
    x.store.state.view.Closable x.tornBlocks (.frame e) := by
  obtain ⟨hnew,_⟩ := hC stream e hi he
  intro t ht hcuts
  obtain ⟨hcloses,hturn⟩ : e.closes = true ∧ e.turn = t.key := by simpa [Shown.cuts] using hcuts
  cases hseen : x.seen stream.pos with
  | false =>
    obtain ⟨turn,hmem,rfl⟩ := List.mem_map.mp ht
    have hk : turn.key = e.turn := hturn.symm
    intro s hs b hb
    have hdrafts := ((hnew hseen).closes hcloses).drafts turn hmem hk s hs b hb
    rwa [hturn] at hdrafts
  | true =>
    -- The turn was closed when the frame came first.
    exfalso
    obtain ⟨A,hA⟩ := h.taken_split he hseen
      (h.kept_of_none he (deltaOf_of_ends (.inl hcloses)))
    have hordered := h.taken
    rw [hA] at hordered
    have hgone := hordered.not_live_of_closes hf hcloses
    rw [← hA,← h.isLive_taken,← isLive_view] at hgone
    have hlive : x.store.state.view.isLive e.turn = true :=
      List.any_eq_true.mpr ⟨t,ht,by simpa using hturn.symm⟩
    rw [hgone] at hlive
    cases hlive

omit h he hf in
private theorem torn_delivered
    (hopen : ∀ key text, e.deltaOf = some (key,text) → x.ended e.turn key = false)
    {block : (String × String) × BlockKey} (hmem : block ∈ x.torn)
    (hcovers : Entry.covers block.1 block.2 (.frame stream.pos e) = false) :
    block ∈ (x.delivered i stream e).torn := by
  cases hdelta : e.deltaOf with
  | some delta =>
    simp only [Session.delivered,Session.tornBy,hdelta,hopen delta.1 delta.2 hdelta,
      Bool.and_false,Bool.false_eq_true,if_false]
    exact hmem
  | none =>
    cases hend : e.endOf with
    | none =>
      simp only [Session.delivered,Session.tornBy,hdelta,hend]
      exact hmem
    | some terminal =>
      have hne : block ≠ (e.turn,terminal.1) := by
        rintro rfl
        simp [Entry.covers,Entry.finishes,hend] at hcovers
      simp only [Session.delivered,Session.tornBy,hdelta,hend]
      exact List.mem_filter.mpr ⟨hmem,by simpa using hne⟩

/-- What is shown after a frame. -/
theorem delivered_shown (hC : Harmless frames x (.deliver i)) (hi : x.streams i = some stream) :
    (x.delivered i stream e).store.state.view.blank (x.delivered i stream e).tornBlocks =
      (View.run (told (x.delivered i stream e).taken)).blank (x.delivered i stream e).tornBlocks := by
  have haddressed := hf.addressed e (List.mem_of_getElem? he)
  have hdistinct := h.distinct hf
  obtain ⟨text,hstate⟩ := receive_state x.store i stream.consumed e
  have hview : (x.delivered i stream e).store.state.view = (reduceEvent x.store.state e text i).view :=
    congrArg ChatState.view hstate
  have hmono (v : View) {S S' : Blocks} (hS : S ⊆ S') : ∀ t ∈ v.live, ∀ key, (t.key,key) ∈ S →
      (t.key,key) ∈ S' := fun _ _ _ hmem => hS hmem
  rw [hview]
  by_cases hdrops : x.store.state.drops i e = true
  · -- A delta of a block that another stream owns.
    obtain ⟨key,text',hdelta⟩ : ∃ key text, e.deltaOf = some (key,text) := by
      cases hdelta : e.deltaOf with
      | none => simp [ChatState.drops,hdelta] at hdrops
      | some block => exact ⟨block.1,block.2,rfl⟩
    have htorn : (x.delivered i stream e).tornBlocks = x.tornBlocks := by
      simp only [Session.tornBlocks,Session.delivered,Session.tornBy,hdelta,hdrops,Bool.not_true,
        Bool.false_and,Bool.false_eq_true,if_false]
    have htaken : (x.delivered i stream e).taken = x.taken := by
      refine h.taken_dropped he (fun hseen => ?_) fun hseen => ?_ <;>
        simp [Session.delivered,Session.droppedBy,hdelta,hdrops,hseen]
    rw [view_of_drops hdistinct haddressed hdrops,htorn,htaken]
    exact h.shown
  · have hdrops : x.store.state.drops i e = false := by simpa using hdrops
    rw [view_reduceEvent hdistinct haddressed hdrops]
    by_cases hlate : ∃ key text, e.deltaOf = some (key,text) ∧ x.ended e.turn key = true
    · -- A delta of a block that has ended.
      obtain ⟨key,text',hdelta,hended⟩ := hlate
      have htorn : (x.delivered i stream e).tornBlocks = insert (e.turn,key) x.tornBlocks := by
        ext block
        simp [Session.tornBlocks,Session.delivered,Session.tornBy,hdelta,hdrops,hended]
      have htaken : (x.delivered i stream e).taken = x.taken := by
        refine h.taken_dropped he (fun hseen => ?_) fun hseen => ?_ <;>
          simp [Session.delivered,Session.droppedBy,hdelta,hended,hseen]
      rw [htorn,htaken,View.apply_delta hdelta (Set.mem_insert _ _)]
      exact View.blank_mono h.shown (hmono _ (Set.subset_insert _ _))
    · have hopen : ∀ key text, e.deltaOf = some (key,text) → x.ended e.turn key = false := by
        intro key text' hdelta
        by_contra hne
        exact hlate ⟨key,text',hdelta,by simpa using hne⟩
      have hrun : View.run (told (x.delivered i stream e).taken) =
          (View.run (told x.taken)).apply e := by
        cases hdelta : e.deltaOf with
        | none => exact h.plain_run he hf hC hi hdelta
        | some block =>
          exact h.delta_run he hf hC hi hdelta hdrops (hopen block.1 block.2 hdelta)
      rw [hrun]
      have hcovers := View.after_covers (y := .frame stream.pos e) h.shown
        (h.closable_delivered he hf hC hi) fun e' he' t ht => by
          cases he'
          exact h.taken.agrees hf he ht
      exact View.blank_mono hcovers
        (hmono _ fun block hmem => torn_delivered hopen hmem.1 hmem.2)

/-! ### The turns and their owners after a frame -/

private theorem delivered_isLive (i : Nat) (k : String × String) :
    (x.delivered i stream e).store.state.isLive k =
      (x.store.state.isLive k && !(e.closes && e.turn = k || e.aborts) ||
        (e.body = .turnStart && e.turn = k)) := by
  obtain ⟨text,hstate⟩ := receive_state x.store i stream.consumed e
  have hlive : (x.delivered i stream e).store.state.isLive k =
      (reduceEvent x.store.state e text i).isLive k := congrArg (fun s => s.isLive k) hstate
  rw [hlive]
  exact isLive_reduceEvent (h.distinct hf) (hf.addressed e (List.mem_of_getElem? he)) text i
    stream.pos k

private theorem delivered_owner (hlive : (x.delivered i stream e).store.state.isLive k = true)
    (key : BlockKey) : (x.delivered i stream e).store.state.owner k key =
      if x.store.state.isLive k = true ∧ e.turn = k ∧ e.blockOf = some key then
        (x.store.state.owner k key).or (some i)
      else x.store.state.owner k key := by
  obtain ⟨text,hstate⟩ := receive_state x.store i stream.consumed e
  have hsame : (x.delivered i stream e).store.state = reduceEvent x.store.state e text i := hstate
  rw [hsame] at hlive ⊢
  exact owner_reduceEvent (h.distinct hf) (hf.addressed e (List.mem_of_getElem? he)) text hlive

private theorem first_of_started (hi : x.streams i = some stream)
    (hC : Harmless frames x (.deliver i)) (hgone : x.store.state.isLive k = false)
    (hlive : (x.delivered i stream e).store.state.isLive k = true) :
    e.blockOf = none ∧ ∀ q e', .frame q e' ∈ x.script → e'.turn ≠ k := by
  obtain ⟨hnew,hagain⟩ := hC stream e hi he
  rw [h.delivered_isLive he hf,hgone] at hlive
  obtain ⟨hbody,rfl⟩ : e.body = .turnStart ∧ e.turn = k := by simpa using hlive
  refine ⟨by simp [ChatEvent.blockOf,hbody],fun q e' hq hturn => ?_⟩
  have hdelta : e.deltaOf = none := by simp [ChatEvent.deltaOf,hbody]
  cases hseen : x.seen stream.pos with
  | true =>
    have hrun := h.run_again he hf hseen hdelta (hagain hseen)
    have hafter := View.isLive_after (View.run (told x.taken)) (.frame stream.pos e) e.turn
    have hstarts : Entry.starts e.turn (.frame stream.pos e) = true := by
      simp [Entry.starts,hbody]
    have hrun : (View.run (told x.taken)).after (Entry.shown (.frame stream.pos e)) =
        View.run (told x.taken) := hrun
    rw [hrun,hstarts,Bool.or_true,← h.isLive_taken,hgone] at hafter
    cases hafter
  | false =>
    have hne : stream.pos ≠ q := by
      rintro rfl
      have hmem : x.seen stream.pos = true := seen_iff.mpr (mem_places.mpr ⟨e',hq⟩)
      rw [hseen] at hmem
      cases hmem
    have hlt := lt_of_turnStart hf he (h.ordered.frames q e' hq) hbody hturn hne
    obtain ⟨_,_,hsame,_,hother⟩ := turn_ne_of_yields (.inr hbody)
      ((hnew hseen).order hdelta _ (mem_since hq hlt))
    obtain ⟨rfl,rfl⟩ := Entry.frame.inj hsame
    exact hother hturn

omit he hf in
/-- An open block whose turn may be closed misses no delta. -/
theorem ended_of_closable (hk : x.Closable e'.turn) (hq : q ∈ x.dropped)
    (hframe : .frame q e' ∈ x.script) (hdelta : e'.deltaOf = some (key,text))
    (hlive : x.store.state.isLive e'.turn = true) : x.ended e'.turn key = true := by
  by_contra hopen
  have hopen : x.ended e'.turn key = false := by simpa using hopen
  cases hown : x.store.state.owner e'.turn key with
  | none => exact h.unowned _ _ hlive hown hopen q e' text hframe rfl hdelta hq
  | some j =>
    obtain ⟨owner,howner,hplaces⟩ := h.owners _ _ j hown
    have hle := (hplaces hopen q e' text hframe rfl hdelta).mp hq
    have hlt := hk.owners key j owner hown howner hopen _ hframe
      (Entry.adds_iff.mpr ⟨q,e',text,rfl,rfl,hdelta⟩) q rfl
    omega

private theorem repeated_isLive (hseen : x.seen stream.pos = true) (hknown : x.Known stream.pos e)
    (i : Nat) (k : String × String) :
    (x.delivered i stream e).store.state.isLive k = x.store.state.isLive k := by
  rw [h.delivered_isLive he hf]
  cases hdelta : e.deltaOf with
  | none =>
    have hrun : (View.run (told x.taken)).after (Entry.shown (.frame stream.pos e)) =
        View.run (told x.taken) := h.run_again he hf hseen hdelta hknown
    have hafter := View.isLive_after (View.run (told x.taken)) (.frame stream.pos e) k
    rw [hrun,← h.isLive_taken] at hafter
    exact hafter.symm
  | some block =>
    obtain ⟨hcloses,haborts,hbody⟩ := open_of_block (mem_blockOf_of_deltaOf hdelta)
    simp [hcloses,haborts,hbody]

private theorem dropped_self (hi : x.streams i = some stream) (hC : Harmless frames x (.deliver i))
    (hq : stream.pos ∈ (x.delivered i stream e).dropped) :
    ∃ key text, e.deltaOf = some (key,text) ∧ safe e.turn key (since stream.pos x.script) = true ∧
      (covered e.turn key (since stream.pos x.script) = true ∨
        x.store.state.isLive e.turn = true) := by
  obtain ⟨hnew,_⟩ := hC stream e hi he
  cases hseen : x.seen stream.pos with
  | true =>
    have hold : stream.pos ∈ x.dropped := by
      revert hq
      simp only [Session.delivered,Session.droppedBy]
      cases e.deltaOf with
      | none => exact id
      | some block =>
        simp only [hseen,if_true]
        split
        · exact id
        · split
          · simp
          · exact id
    obtain ⟨e',key,text,hmem,hdelta,hrest⟩ := h.dropped _ hold
    obtain rfl := Option.some.inj ((h.ordered.frames _ e' hmem).symm.trans he)
    exact ⟨key,text,hdelta,hrest⟩
  | false =>
    have hp := not_mem_places hseen
    have hnot := h.not_dropped hp
    obtain ⟨key,text,hdelta,hmissed⟩ : ∃ key text, e.deltaOf = some (key,text) ∧
        (x.store.state.drops i e = true ∨ x.ended e.turn key = true) := by
      cases hdelta : e.deltaOf with
      | none =>
        rw [delivered_dropped_of_none i stream hdelta] at hq
        exact absurd hq hnot
      | some block =>
        refine ⟨block.1,block.2,rfl,?_⟩
        by_contra hmissed
        simp only [Session.delivered,Session.droppedBy,hdelta,Bool.or_eq_true,hmissed,
          if_false] at hq
        split at hq
        · simp at hq
        · exact hnot hq
    refine ⟨key,text,hdelta,?_⟩
    by_cases hended : x.ended e.turn key = true
    · exact ⟨(hnew hseen).late (key,text) hdelta hended,
        .inl (h.covered_of_ended hf he hdelta hended)⟩
    · have hlive : x.store.state.isLive e.turn = true := by
        have hother := of_decide_eq_true (by
          simpa only [ChatState.drops,hdelta] using hmissed.resolve_right hended)
        obtain ⟨j,hown⟩ := Option.ne_none_iff_exists'.mp hother.1
        exact isLive_of_owner hown
      refine ⟨safe_of_open fun y hy => ?_,.inr hlive⟩
      exact (Entry.stops_of_cuts (h.not_stops hf he hlive y hy)).1

omit he in
private theorem covered_before (hnew : x.Timely i stream.pos e) (hcloses : e.closes = true)
    (hturn : e.turn = e'.turn) (hq : q ∈ x.dropped) (hmem : .frame q e' ∈ x.script)
    (hdelta : e'.deltaOf = some (key,text))
    (hcovered : covered e'.turn key (since q x.script) = true ∨
      x.store.state.isLive e'.turn = true) {A B : List Entry} (hsplit : since q x.script = A ++ B)
    (hafter : ∀ r ∈ places B, stream.pos < r) : covered e'.turn key A = true := by
  have hall : covered e'.turn key (since q x.script) = true := by
    refine hcovered.elim id fun hlive => ?_
    have hclosable := hnew.closes hcloses
    rw [hturn] at hclosable
    exact h.covered_of_ended hf (h.ordered.frames q e' hmem) hdelta
      (h.ended_of_closable hclosable hq hmem hdelta hlive)
  obtain ⟨z,hz,hcovers⟩ := List.any_eq_true.mp hall
  rw [hsplit] at hz
  refine List.any_eq_true.mpr ⟨z,(List.mem_append.mp hz).resolve_right fun hlater => ?_,hcovers⟩
  -- The end of the block does not commute with that of the turn.
  cases z with
  | ended => cases hcovers
  | frame r a =>
    have hin : .frame r a ∈ x.script := (since_sublist q x.script).subset (by
      rw [hsplit]
      exact List.mem_append_right _ hlater)
    have hr : stream.pos < r := hafter r (mem_places.mpr ⟨a,hlater⟩)
    obtain ⟨_,_,hsame,hblock,hother⟩ := turn_ne_of_yields (.inl hcloses)
      (hnew.order (deltaOf_of_ends (.inl hcloses)) _ (mem_since hin hr))
    obtain ⟨rfl,rfl⟩ := Entry.frame.inj hsame
    rcases Bool.or_eq_true_iff.mp hcovers with hfinishes | haborts
    · obtain ⟨_,_,_,hsame,hturn',_⟩ := Entry.finishes_iff.mp hfinishes
      obtain ⟨rfl,rfl⟩ := Entry.frame.inj hsame
      exact hother (hturn'.trans hturn.symm)
    · obtain ⟨key',hkey⟩ := Option.ne_none_iff_exists'.mp hblock
      have haborts : a.aborts = true := haborts
      rw [(open_of_block hkey).2.1] at haborts
      cases haborts

/-- A delta that was left out stays so after a new frame of a greater place. -/
theorem dropped_before (hnew : x.Timely i stream.pos e) (hseen : x.seen stream.pos = false)
    (hlt : q < stream.pos) (hq : q ∈ x.dropped) (hmem : .frame q e' ∈ x.script)
    (hdelta : e'.deltaOf = some (key,text))
    (hsafe : safe e'.turn key (since q x.script) = true)
    (hcovered : covered e'.turn key (since q x.script) = true ∨
      x.store.state.isLive e'.turn = true) :
    safe e'.turn key (since q (x.delivered i stream e).script) = true ∧
      (covered e'.turn key (since q (x.delivered i stream e).script) = true ∨
        (x.delivered i stream e).store.state.isLive e'.turn = true) := by
  have hscript : since q (x.delivered i stream e).script =
      put stream.pos e (since q x.script) := by
    simp only [Session.delivered,hseen,Bool.false_eq_true,if_false]
    exact since_put_of_lt hlt e x.script
  have hsub := (since_sublist q x.script).filterMap Entry.place?
  obtain ⟨A,hsplit,hput,_,hafter⟩ := exists_split (h.ordered.places.sublist hsub)
    (fun hp => not_mem_places hseen (hsub.subset hp)) e
  have hclosed (hcloses : e.closes = true) (hturn : e.turn = e'.turn) :
      covered e'.turn key A = true :=
    h.covered_before hf hnew hcloses hturn hq hmem hdelta hcovered hsplit hafter
  rw [hscript,h.delivered_isLive he hf]
  constructor
  · rw [hput]
    refine safe_insert (hsplit ▸ hsafe) ?_
    cases hcuts : Shown.cuts e'.turn (Entry.shown (.frame stream.pos e)) with
    | false => exact .inl rfl
    | true =>
      obtain ⟨hcloses,hturn⟩ : e.closes = true ∧ e.turn = e'.turn := by
        simpa [Entry.shown,Shown.cuts] using hcuts
      exact .inr (.inr (hclosed hcloses hturn))
  · have hgrows {L : List Entry} (hL : ∀ y ∈ L, y ∈ put stream.pos e (since q x.script))
        (hc : covered e'.turn key L = true) :
        covered e'.turn key (put stream.pos e (since q x.script)) = true := by
      obtain ⟨y,hy,hcovers⟩ := List.any_eq_true.mp hc
      exact List.any_eq_true.mpr ⟨y,hL y hy,hcovers⟩
    rcases hcovered with hc | hlive
    · exact .inl (hgrows (fun y hy => mem_put.mpr (.inr hy)) hc)
    · by_cases hcloses : e.closes = true ∧ e.turn = e'.turn
      · refine .inl (hgrows (fun y hy => mem_put.mpr (.inr ?_)) (hclosed hcloses.1 hcloses.2))
        rw [hsplit]
        exact List.mem_append_left _ hy
      · by_cases haborts : e.aborts = true
        · refine .inl (hgrows (L := [.frame stream.pos e]) (fun y hy => mem_put.mpr (.inl ?_)) ?_)
          · exact List.mem_singleton.mp hy
          · simp [covered,Entry.covers,Entry.aborts,haborts]
        · refine .inr ?_
          have hstays : (e.closes && decide (e.turn = e'.turn) || e.aborts) = false := by
            simpa [haborts] using hcloses
          rw [hlive,hstays]
          rfl

private theorem live_after (hnew : x.Timely i stream.pos e) (hlt : stream.pos < q)
    (hmem : .frame q e' ∈ x.script) (hlive : x.store.state.isLive e'.turn = true) :
    (x.delivered i stream e).store.state.isLive e'.turn = true := by
  have hstays : (e.closes && decide (e.turn = e'.turn) || e.aborts) = false := by
    rw [Bool.eq_false_iff]
    intro hstops
    have hyields (hends : e.closes = true ∨ e.aborts = true) :=
      hnew.order (deltaOf_of_ends hends) _ (mem_since hmem hlt)
    rcases Bool.or_eq_true_iff.mp hstops with hcloses | haborts
    · obtain ⟨hcloses,hturn⟩ := Bool.and_eq_true_iff.mp hcloses
      obtain ⟨_,_,hsame,_,hother⟩ := turn_ne_of_yields (.inl hcloses) (hyields (.inl hcloses))
      obtain ⟨rfl,rfl⟩ := Entry.frame.inj hsame
      exact hother (of_decide_eq_true hturn).symm
    · have hyields := hyields (.inr haborts)
      rw [yields_of_aborts haborts] at hyields
      cases hyields
  rw [h.delivered_isLive he hf,hlive,hstays]
  rfl

private theorem delivered_dropped (hi : x.streams i = some stream)
    (hC : Harmless frames x (.deliver i)) : ∀ p ∈ (x.delivered i stream e).dropped,
      ∃ e' key text, .frame p e' ∈ (x.delivered i stream e).script ∧
        e'.deltaOf = some (key,text) ∧
        safe e'.turn key (since p (x.delivered i stream e).script) = true ∧
        (covered e'.turn key (since p (x.delivered i stream e).script) = true ∨
          (x.delivered i stream e).store.state.isLive e'.turn = true) := by
  obtain ⟨hnew,hagain⟩ := hC stream e hi he
  intro q hq
  by_cases hpos : q = stream.pos
  · subst hpos
    obtain ⟨key,text,hdelta,hsafe,hcovered⟩ := h.dropped_self he hf hi hC hq
    have hsince : since stream.pos (x.delivered i stream e).script = since stream.pos x.script := by
      obtain ⟨A,hA,_⟩ := h.delivered_split he (i := i)
      have hplaces := (h.delivered_ordered he i).places
      rw [hA] at hplaces ⊢
      exact since_of_split hplaces
    have hkind := open_of_block (mem_blockOf_of_deltaOf hdelta)
    refine ⟨e,key,text,(h.mem_delivered_script he).mpr (.inl rfl),hdelta,?_⟩
    rw [hsince,h.delivered_isLive he hf,hkind.1,hkind.2.1]
    exact ⟨hsafe,hcovered.imp_right fun hlive => by simp [hlive]⟩
  · have hold : q ∈ x.dropped := (mem_delivered_dropped hpos).mp hq
    obtain ⟨e',key,text,hmem,hdelta,hsafe,hcovered⟩ := h.dropped q hold
    refine ⟨e',key,text,(h.mem_delivered_script he).mpr (.inr hmem),hdelta,?_⟩
    cases hseen : x.seen stream.pos with
    | true =>
      have hscript : (x.delivered i stream e).script = x.script := by
        simp only [Session.delivered,hseen,if_true]
      rw [hscript,h.repeated_isLive he hf hseen (hagain hseen)]
      exact ⟨hsafe,hcovered⟩
    | false =>
      rcases Nat.lt_or_gt_of_ne hpos with hlt | hlt
      · exact h.dropped_before he hf (hnew hseen) hseen hlt hold hmem hdelta hsafe hcovered
      · have hscript : since q (x.delivered i stream e).script = since q x.script := by
          simp only [Session.delivered,hseen,Bool.false_eq_true,if_false]
          exact since_put_of_gt hlt e x.script
        rw [hscript]
        exact ⟨hsafe,hcovered.imp_right fun hlive => h.live_after he hf (hnew hseen) hlt hmem hlive⟩

omit hf in
/-- The owner of an open block has its delta, and another stream leaves it to the owner. -/
theorem delivered_owned (hi : x.streams i = some stream) (hC : Harmless frames x (.deliver i))
    (hown : x.store.state.owner k key = some j) (hopen : x.ended k key = false)
    {owner : SendStream} (howner : x.streams j = some owner)
    (hplaces : ∀ p e text, .frame p e ∈ x.script → e.turn = k → e.deltaOf = some (key,text) →
      (p ∈ x.dropped ↔ owner.pos ≤ p)) {owner' : SendStream}
    (howner' : (x.delivered i stream e).streams j = some owner')
    (hq : .frame q e' ∈ (x.delivered i stream e).script) (hturn : e'.turn = k)
    (hdelta : e'.deltaOf = some (key,text)) :
    q ∈ (x.delivered i stream e).dropped ↔ owner'.pos ≤ q := by
  obtain ⟨hnew,_⟩ := hC stream e hi he
  rw [delivered_stream] at howner'
  rcases h.delivered_cases he hq with ⟨rfl,rfl⟩ | ⟨hpos,hin⟩
  · have hlive := isLive_of_owner hown
    subst hturn
    by_cases hj : j = i
    · subst hj
      rw [if_pos rfl] at howner'
      obtain rfl := Option.some.inj howner'
      have hdrops : x.store.state.drops j e' = false := by
        simp [ChatState.drops,hdelta,hown]
      have hkept : stream.pos ∉ (x.delivered j stream e').dropped := by
        simp [Session.delivered,Session.droppedBy,hdelta,hdrops,hopen,hlive]
      refine ⟨fun h => absurd h hkept,fun hle => ?_⟩
      have hle : stream.pos + 1 ≤ stream.pos := hle
      omega
    · rw [if_neg hj] at howner'
      obtain rfl := Option.some.inj (howner.symm.trans howner')
      have hdrops : x.store.state.drops i e' = true := by
        simp [ChatState.drops,hdelta,hown,hj]
      cases hseen : x.seen stream.pos with
      | true =>
        have hdropped : (x.delivered i stream e').dropped = x.dropped := by
          simp [Session.delivered,Session.droppedBy,hdelta,hdrops,hseen]
        rw [hdropped]
        exact hplaces _ e' text (h.frame_of_seen he hseen) rfl hdelta
      | false =>
        have hdropped : stream.pos ∈ (x.delivered i stream e').dropped := by
          simp [Session.delivered,Session.droppedBy,hdelta,hdrops,hseen]
        have hdelta' := (hnew hseen).delta (key,text) hdelta hopen
        simp only [hown] at hdelta'
        exact ⟨fun _ => hdelta'.resolve_left hj owner howner,fun _ => hdropped⟩
  · rw [mem_delivered_dropped hpos,hplaces q e' text hin hturn hdelta]
    by_cases hj : j = i
    · subst hj
      rw [if_pos rfl] at howner'
      obtain rfl := Option.some.inj howner'
      obtain rfl := Option.some.inj (howner.symm.trans hi)
      have hne : owner.pos ≤ q ↔ owner.pos + 1 ≤ q := by omega
      exact hne
    · rw [if_neg hj] at howner'
      obtain rfl := Option.some.inj (howner.symm.trans howner')
      rfl

omit hf in
/-- A stream that takes an open block over is behind in none of its deltas. -/
theorem delivered_claimed (hi : x.streams i = some stream) (hC : Harmless frames x (.deliver i))
    (hold : x.store.state.owner e.turn key = none) (hlive : x.store.state.isLive e.turn = true)
    (hblock : e.blockOf = some key) (hopen : (x.delivered i stream e).ended e.turn key = false)
    (hp : .frame p e' ∈ (x.delivered i stream e).script) (hturn : e'.turn = e.turn)
    (hdelta : e'.deltaOf = some (key,text)) :
    p ∈ (x.delivered i stream e).dropped ↔ stream.pos + 1 ≤ p := by
  obtain ⟨hnew,hagain⟩ := hC stream e hi he
  have hnoend : e.endOf = none := by
    by_contra hne
    obtain ⟨block,hend⟩ := Option.ne_none_iff_exists'.mp hne
    have hkey : block.1 = key :=
      Option.some.inj ((ChatEvent.blockOf_of_endOf hend).1.symm.trans hblock)
    have hended : (x.delivered i stream e).ended e.turn block.1 = true := h.ended_delivered he hend
    rw [hkey,hopen] at hended
    cases hended
  have hopen := h.ended_mono he hopen
  rcases h.delivered_cases he hp with ⟨rfl,rfl⟩ | ⟨hpos,hin⟩
  · have hdrops : x.store.state.drops i e' = false := by
      simp [ChatState.drops,hdelta,hold]
    have hkept : stream.pos ∉ (x.delivered i stream e').dropped := by
      simp [Session.delivered,Session.droppedBy,hdelta,hdrops,hopen,hlive]
    exact ⟨fun h => absurd h hkept,fun hle => by omega⟩
  · have hbefore : ¬stream.pos + 1 ≤ p := by
      intro hle
      cases hseen : x.seen stream.pos with
      | true =>
        have hcaught := (hagain hseen).takeover hnoend hlive key hblock hopen hold
        have hlt := hcaught _ hin (Entry.adds_iff.mpr ⟨p,e',text,rfl,hturn,hdelta⟩) p rfl
        omega
      | false =>
        have hsince := mem_since hin hle
        have hyields : (Shown.frame e').yields e = true := by
          cases hdelta' : e.deltaOf with
          | none => exact (hnew hseen).order hdelta' _ hsince
          | some block =>
            have hkey : block.1 = key :=
              Option.some.inj ((mem_blockOf_of_deltaOf hdelta').symm.trans hblock)
            subst hkey
            have hfree := (hnew hseen).delta block hdelta' hopen
            simp only [hold] at hfree
            exact hfree _ hsince
        rw [yields_same_block hblock (mem_blockOf_of_deltaOf hdelta) hturn] at hyields
        cases hyields
    have hnot := h.unowned _ key hlive hold hopen p e' text hin hturn hdelta
    exact ⟨fun hmem => absurd ((mem_delivered_dropped hpos).mp hmem) hnot,
      fun hle => absurd hle hbefore⟩

private theorem delivered_owners (hi : x.streams i = some stream)
    (hC : Harmless frames x (.deliver i)) (k : String × String) (key : BlockKey) (j : Nat)
    (hown : (x.delivered i stream e).store.state.owner k key = some j) :
    ∃ owner, (x.delivered i stream e).streams j = some owner ∧
      ((x.delivered i stream e).ended k key = false → ∀ p e' text,
        .frame p e' ∈ (x.delivered i stream e).script → e'.turn = k →
          e'.deltaOf = some (key,text) →
            (p ∈ (x.delivered i stream e).dropped ↔ owner.pos ≤ p)) := by
  rw [h.delivered_owner he hf (isLive_of_owner hown)] at hown
  cases hold : x.store.state.owner k key with
  | some j' =>
    have hj : j' = j := by
      rw [hold] at hown
      simpa using hown
    subst hj
    obtain ⟨owner,howner,hplaces⟩ := h.owners k key j' hold
    obtain ⟨owner',howner'⟩ : ∃ owner', (x.delivered i stream e).streams j' = some owner' := by
      rw [delivered_stream]
      split
      · exact ⟨_,rfl⟩
      · exact ⟨owner,howner⟩
    refine ⟨owner',howner',fun hopen p e' text hp hturn hdelta => ?_⟩
    have hopen := h.ended_mono he hopen
    exact h.delivered_owned he hi hC hold hopen howner (hplaces hopen) howner' hp hturn hdelta
  | none =>
    rw [hold] at hown
    split at hown
    · rename_i hclaims
      obtain ⟨hlive,rfl,hblock⟩ := hclaims
      have hj : i = j := by simpa using hown
      subst hj
      refine ⟨⟨stream.pos + 1,true⟩,by rw [delivered_stream,if_pos rfl],?_⟩
      exact fun hopen p e' text hp hturn hdelta =>
        h.delivered_claimed he hi hC hold hlive hblock hopen hp hturn hdelta
    · cases hown

private theorem delivered_unowned (hi : x.streams i = some stream)
    (hC : Harmless frames x (.deliver i))
    (hlive : (x.delivered i stream e).store.state.isLive k = true)
    (hown : (x.delivered i stream e).store.state.owner k key = none)
    (hopen : (x.delivered i stream e).ended k key = false)
    (hp : .frame p e' ∈ (x.delivered i stream e).script) (hturn : e'.turn = k)
    (hdelta : e'.deltaOf = some (key,text)) : p ∉ (x.delivered i stream e).dropped := by
  have hblock := mem_blockOf_of_deltaOf hdelta
  rw [h.delivered_owner he hf hlive] at hown
  cases hold : x.store.state.isLive k with
  | false =>
    obtain ⟨hnoblock,hfirst⟩ := h.first_of_started he hf hi hC hold hlive
    rcases (h.mem_delivered_script he).mp hp with hsame | hin
    · obtain ⟨rfl,rfl⟩ := Entry.frame.inj hsame
      rw [hblock] at hnoblock
      cases hnoblock
    · exact absurd hturn (hfirst p e' hin)
  | true =>
    split at hown
    · simp at hown
    · rename_i hother
      rcases h.delivered_cases he hp with ⟨rfl,rfl⟩ | ⟨hpos,hin⟩
      · exact absurd ⟨hold,hturn,hblock⟩ hother
      · rw [mem_delivered_dropped hpos]
        exact h.unowned k key hold hown (h.ended_mono he hopen) p e' text hin hturn hdelta

omit h he hf in
/-- A block is torn by a delta from after its end, or it was and does not end by the frame. -/
theorem mem_torn_delivered (hmem : (k,key) ∈ (x.delivered i stream e).torn) :
    (e.turn = k ∧ (∃ text, e.deltaOf = some (key,text)) ∧ x.store.state.drops i e = false ∧
        x.ended k key = true) ∨
      (k,key) ∈ x.torn ∧ ∀ block, e.turn = k → e.endOf ≠ some (key,block) := by
  revert hmem
  simp only [Session.delivered,Session.tornBy]
  cases hdelta : e.deltaOf with
  | some delta =>
    have hnoend := (ChatEvent.blockOf_of_deltaOf hdelta).2.2
    simp only
    split
    · rename_i hlate
      intro hmem
      rcases List.mem_cons.mp hmem with hsame | hmem
      · obtain ⟨rfl,rfl⟩ := Prod.mk.inj hsame
        obtain ⟨hdrops,hended⟩ := Bool.and_eq_true_iff.mp hlate
        exact .inl ⟨rfl,⟨delta.2,rfl⟩,by simpa using hdrops,hended⟩
      · exact .inr ⟨hmem,fun block _ => by simp [hnoend]⟩
    · exact fun hmem => .inr ⟨hmem,fun block _ => by simp [hnoend]⟩
  | none =>
    cases hend : e.endOf with
    | none => exact fun hmem => .inr ⟨hmem,fun block _ => by simp⟩
    | some terminal =>
      intro hmem
      have hmem := List.mem_filter.mp hmem
      refine .inr ⟨hmem.1,fun block hturn hsame => ?_⟩
      have hkey : terminal.1 = key := congrArg Prod.fst (Option.some.inj hsame)
      simp [hturn,hkey] at hmem

private theorem delivered_torn (hi : x.streams i = some stream)
    (hC : Harmless frames x (.deliver i))
    (k : String × String) (key : BlockKey) (hmem : (k,key) ∈ (x.delivered i stream e).torn) :
    ∃ p e' block, .frame p e' ∈ (x.delivered i stream e).script ∧ e'.turn = k ∧
      e'.endOf = some (key,block) ∧ ((x.delivered i stream e).store.state.isLive k = true →
        ∃ j owner, (x.delivered i stream e).store.state.owner k key = some j ∧
          (x.delivered i stream e).streams j = some owner ∧ owner.pos ≤ p) := by
  rcases mem_torn_delivered hmem with ⟨rfl,⟨text,hdelta⟩,hdrops,hended⟩ | ⟨hold,hnoend⟩
  · -- The end of the block comes after the delta of the frame.
    obtain ⟨q,e',block,hq,hturn,hend⟩ := ended_iff.mp hended
    refine ⟨q,e',block,(h.mem_delivered_script he).mpr (.inr hq),hturn,hend,fun hlive => ?_⟩
    have hblock := mem_blockOf_of_deltaOf hdelta
    have hne : q ≠ stream.pos := by
      rintro rfl
      obtain rfl := Option.some.inj ((h.ordered.frames _ e' hq).symm.trans he)
      rw [(ChatEvent.blockOf_of_endOf hend).2.2] at hdelta
      cases hdelta
    have hlt : stream.pos < q :=
      lt_of_end hf (h.ordered.frames q e' hq) he hend hturn.symm hblock hne
    have hkind := open_of_block hblock
    have hwas : x.store.state.isLive e.turn = true := by
      rw [h.delivered_isLive he hf,hkind.1,hkind.2.1] at hlive
      simpa [hkind.2.2] using hlive
    have hown : (x.delivered i stream e).store.state.owner e.turn key = some i := by
      rw [h.delivered_owner he hf hlive,if_pos ⟨hwas,rfl,hblock⟩]
      simp only [ChatState.drops,hdelta,decide_eq_false_iff_not,not_and_or,not_not] at hdrops
      rcases hdrops with hown | hown <;> simp [hown]
    refine ⟨i,⟨stream.pos + 1,true⟩,hown,?_,hlt⟩
    rw [delivered_stream,if_pos rfl]
  · obtain ⟨q,e',block,hq,hturn,hend,howner⟩ := h.torn k key hold
    refine ⟨q,e',block,(h.mem_delivered_script he).mpr (.inr hq),hturn,hend,fun hlive => ?_⟩
    have hwas : x.store.state.isLive k = true := by
      by_contra hnot
      obtain ⟨_,hfirst⟩ := h.first_of_started he hf hi hC (by simpa using hnot) hlive
      exact hfirst q e' hq hturn
    obtain ⟨j,owner,hown,hj,hle⟩ := howner hwas
    have hown' : (x.delivered i stream e).store.state.owner k key = some j := by
      rw [h.delivered_owner he hf hlive,hown]
      simp
    by_cases hji : j = i
    · subst hji
      obtain rfl := Option.some.inj (hi.symm.trans hj)
      refine ⟨j,⟨stream.pos + 1,true⟩,hown',by rw [delivered_stream,if_pos rfl],?_⟩
      have hne : stream.pos ≠ q := by
        rintro rfl
        obtain rfl := Option.some.inj ((h.ordered.frames _ e' hq).symm.trans he)
        exact hnoend block hturn hend
      have hlt : stream.pos + 1 ≤ q := by omega
      exact hlt
    · exact ⟨j,owner,hown',by rw [delivered_stream,if_neg hji]; exact hj,hle⟩

theorem delivered (hi : x.streams i = some stream) (hC : Harmless frames x (.deliver i)) :
    Follower frames (x.delivered i stream e) where
  ordered := h.delivered_ordered he i
  shown := h.delivered_shown he hf hC hi
  dropped := h.delivered_dropped he hf hi hC
  owners := h.delivered_owners he hf hi hC
  unowned k key hlive hown hopen p e' text hp hturn hdelta :=
    h.delivered_unowned he hf hi hC hlive hown hopen hp hturn hdelta
  torn := h.delivered_torn he hf hi hC
  ids j stream' hj := by
    have hnext : (x.delivered i stream e).store.nextStreamId = x.store.nextStreamId :=
      receive_nextStreamId x.store i stream.consumed e
    rw [hnext]
    rw [delivered_stream] at hj
    split at hj
    · rename_i hji
      exact hji ▸ h.ids i stream hi
    · exact h.ids j stream' hj

end Follower

end Dominion.Web
