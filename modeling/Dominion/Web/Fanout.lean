import Dominion.Web.Delivery

/-! # The fan-out is idempotent

The streams of a session together show what a single stream shows. -/
namespace Dominion.Web

open Dominion.Framework
open Dominion.Chat (ContentBlock HistoryMessage ToolStatus)

variable {frames : List ChatEvent} {x : Session} {i p : Nat} {stream : SendStream} {e : ChatEvent}

/-! ### Streams that open and end -/

namespace Follower

private theorem of_same (h : Follower frames x) {y : Session}
    (hview : y.store.state.view = x.store.state.view)
    (howner : ∀ k key, y.store.state.owner k key = x.store.state.owner k key)
    (hscript : y.script = x.script) (hdropped : y.dropped = x.dropped) (htorn : y.torn = x.torn)
    (hstreams : ∀ j stream, x.streams j = some stream →
      ∃ stream', y.streams j = some stream' ∧ stream'.pos = stream.pos)
    (hids : ∀ j stream, y.streams j = some stream → j ≤ y.store.nextStreamId) :
    Follower frames y := by
  have hlive (k : String × String) : y.store.state.isLive k = x.store.state.isLive k := by
    rw [← isLive_view,← isLive_view,hview]
  have htaken : y.taken = x.taken := by rw [Session.taken,Session.taken,hscript,hdropped]
  have hblocks : y.tornBlocks = x.tornBlocks := by rw [Session.tornBlocks,Session.tornBlocks,htorn]
  have hended (k : String × String) (key : BlockKey) : y.ended k key = x.ended k key := by
    rw [Session.ended,Session.ended,hscript]
  constructor
  case ordered => exact hscript ▸ h.ordered
  case shown =>
    rw [hview,htaken,hblocks]
    exact h.shown
  case dropped =>
    rw [hdropped,hscript]
    intro p hp
    obtain ⟨e,key,text,hmem,hdelta,hsafe,hcovered⟩ := h.dropped p hp
    exact ⟨e,key,text,hmem,hdelta,hsafe,hcovered.imp_right fun hl => (hlive e.turn).trans hl⟩
  case owners =>
    intro k key j hown
    rw [howner] at hown
    obtain ⟨owner,hj,hplaces⟩ := h.owners k key j hown
    obtain ⟨owner',hj',hpos⟩ := hstreams j owner hj
    refine ⟨owner',hj',?_⟩
    rw [hended,hscript,hdropped,hpos]
    exact hplaces
  case unowned =>
    intro k key
    rw [hlive,howner,hended,hscript,hdropped]
    exact h.unowned k key
  case torn =>
    intro k key hmem
    rw [htorn] at hmem
    rw [hlive,howner,hscript]
    obtain ⟨p,e,block,hp,hturn,hend,hrest⟩ := h.torn k key hmem
    refine ⟨p,e,block,hp,hturn,hend,fun hl => ?_⟩
    obtain ⟨j,owner,hown,hj,hle⟩ := hrest hl
    obtain ⟨owner',hj',hpos⟩ := hstreams j owner hj
    exact ⟨j,owner',hown,hj',hpos ▸ hle⟩
  case ids => exact hids

private theorem opened (h : Follower frames x) (text : String) (pos : Nat) :
    Follower frames (x.opened text pos) := by
  refine h.of_same rfl (fun _ _ => rfl) rfl rfl rfl (fun j stream hj => ⟨stream,?_,rfl⟩)
    fun j stream hj => ?_
  · have hne : j ≠ x.store.nextStreamId + 1 := by
      have hle := h.ids j stream hj
      omega
    simpa [Session.opened,hne] using hj
  · by_cases hnew : j = x.store.nextStreamId + 1
    · simp [Session.opened,ChatStore.send,hnew]
    · have hold : x.streams j = some stream := by simpa [Session.opened,hnew] using hj
      have hle := h.ids j stream hold
      simp only [Session.opened,ChatStore.send]
      omega

private theorem received (h : Follower frames x) (hi : x.streams i = some stream) (position : Int) :
    Follower frames (x.received i stream position) := by
  obtain ⟨text,hstate⟩ := receive_state x.store i stream.consumed ⟨"","",.queued position⟩
  have hlive : (x.received i stream position).store.state.live =
      (reduceEvent x.store.state ⟨"","",.queued position⟩ text i).live :=
    congrArg ChatState.live hstate
  have hshown : (x.received i stream position).store.state.shown =
      (reduceEvent x.store.state ⟨"","",.queued position⟩ text i).shown :=
    congrArg ChatState.shown hstate
  refine h.of_same (view_of_shown hshown) (owner_of_live hlive) rfl rfl rfl
    (fun j stream' hj => ?_) fun j stream' hj => ?_
  · by_cases hj' : j = i
    · subst hj'
      obtain rfl := Option.some.inj (hj.symm.trans hi)
      exact ⟨⟨stream'.pos,true⟩,by simp [Session.received],rfl⟩
    · exact ⟨stream',by simpa [Session.received,hj'] using hj,rfl⟩
  · rw [Session.received,receive_nextStreamId]
    by_cases hj' : j = i
    · exact hj' ▸ h.ids i stream hi
    · exact h.ids j stream' (by simpa [Session.received,hj'] using hj)

end Follower

/-! ### Every run -/

namespace Session

end Session

end Dominion.Web
