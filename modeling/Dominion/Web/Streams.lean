import Dominion.Framework.Lts
import Dominion.Web.Repeats

/-! # Concurrent streams

The streams of one session deliver the same frames, each from the place where it was opened and at
its own pace. -/
namespace Dominion.Web

open Dominion.Framework
open Dominion.Chat (ContentBlock HistoryMessage ToolStatus)

/-! ### The session -/

/-- A stream of `send`: the place of its next frame. -/
structure SendStream where
  pos : Nat
  consumed : Bool := false

structure Session where
  store : ChatStore := {}
  /-- The streams that have not ended. -/
  streams : Nat → Option SendStream := fun _ => none
  /-- What the streams have delivered, in the order of the places. -/
  script : List Entry := []
  /-- The places of the deltas that were delivered, and not added to their block. -/
  dropped : List Nat := []
  /-- The blocks with a delta that was added after their end. -/
  torn : List ((String × String) × BlockKey) := []

inductive Action
  /-- A stream is opened at a place of the frames. -/
  | send (text : String) (pos : Nat)
  /-- The stream delivers the receipt of its own text. -/
  | receipt (streamId : Nat) (position : Int)
  /-- The stream delivers its next frame. -/
  | deliver (streamId : Nat)
  /-- The stream ends, with an error or without. -/
  | finish (streamId : Nat) (error : Option String)
  deriving DecidableEq, Repr

namespace Session

/-- The frame of the place was delivered. -/
def seen (x : Session) (p : Nat) : Bool :=
  x.script.any fun y => y.place? = some p

/-- The end of the block was delivered. -/
def ended (x : Session) (k : String × String) (key : BlockKey) : Bool :=
  x.script.any (Entry.finishes k key)

/-- What the store has taken. -/
def taken (x : Session) : List Entry :=
  without x.dropped x.script

def opened (x : Session) (text : String) (pos : Nat) : Session :=
  { x with
    store := x.store.send text
    streams := Function.update x.streams (x.store.nextStreamId + 1) (some ⟨pos,false⟩) }

def received (x : Session) (streamId : Nat) (stream : SendStream) (position : Int) : Session :=
  { x with
    store := x.store.receive streamId stream.consumed ⟨"","",.queued position⟩
    streams := Function.update x.streams streamId (some ⟨stream.pos,true⟩) }

/-- The deltas that are not added to their block after the frame. -/
def droppedBy (x : Session) (streamId p : Nat) (e : ChatEvent) : List Nat :=
  match e.deltaOf with
  | none => x.dropped
  | some (key,_) =>
    if x.store.state.drops streamId e || x.ended e.turn key then
      if x.seen p then x.dropped else p :: x.dropped
    else if x.store.state.isLive e.turn then x.dropped.filter fun q => q ≠ p
    else x.dropped

def tornBy (x : Session) (streamId : Nat) (e : ChatEvent) : List ((String × String) × BlockKey) :=
  match e.deltaOf,e.endOf with
  | some (key,_),_ =>
    if !x.store.state.drops streamId e && x.ended e.turn key then (e.turn,key) :: x.torn else x.torn
  | none,some (key,_) => x.torn.filter fun block => block ≠ (e.turn,key)
  | none,none => x.torn

def delivered (x : Session) (streamId : Nat) (stream : SendStream) (e : ChatEvent) : Session where
  store := x.store.receive streamId stream.consumed e
  streams := Function.update x.streams streamId (some ⟨stream.pos + 1,true⟩)
  script := if x.seen stream.pos then x.script else put stream.pos e x.script
  dropped := x.droppedBy streamId stream.pos e
  torn := x.tornBy streamId e

def finished (x : Session) (streamId : Nat) (stream : SendStream) (error : Option String) :
    Session :=
  { x with
    store := x.store.finish streamId stream.consumed error
    streams := Function.update x.streams streamId none
    script := if x.store.activeStreamId = streamId then x.script ++ [.ended] else x.script }

def step (frames : List ChatEvent) (x : Session) : Action → Option Session
  | .send text pos => some (x.opened text pos)
  | .receipt i position => (x.streams i).map fun stream => x.received i stream position
  | .deliver i =>
    (x.streams i).bind fun stream =>
      frames[stream.pos]?.map fun event => x.delivered i stream event
  | .finish i error => (x.streams i).map fun stream => x.finished i stream error

end Session

/-- The streams of one session. -/
def session (frames : List ChatEvent) : Lts Session Action where
  init x := x = {}
  step := Session.step frames

/-! ### The places at which frames may come -/

namespace Session

/-- The place is after every delivered delta of the block. -/
def Caught (x : Session) (pos : Nat) (k : String × String) (key : BlockKey) : Prop :=
  ∀ y ∈ x.script, y.adds k key = true → ∀ p ∈ y.place?, p < pos

/-- The turn may be closed. -/
structure Closable (x : Session) (k : String × String) : Prop where
  /-- No owner of an open block is behind. -/
  owners : ∀ key j owner, x.store.state.owner k key = some j → x.streams j = some owner →
    x.ended k key = false → x.Caught owner.pos k key
  /-- No draft has a delta from after the end of its block. -/
  drafts : ∀ t ∈ x.store.state.live, t.key = k → ∀ s ∈ t.steps.drop t.fixedSteps, ∀ b ∈ s.blocks,
    (k,(s.step,b.index)) ∉ x.torn

/-- The frame is delivered for the first time. -/
structure Timely (x : Session) (i p : Nat) (e : ChatEvent) : Prop where
  /-- It commutes with whatever has overtaken it. -/
  order : e.deltaOf = none → ∀ y ∈ since p x.script, y.shown.yields e = true
  /-- A delta that no stream owns commutes with whatever has overtaken it, and the owner of a block
  has not passed it. -/
  delta : ∀ block ∈ e.deltaOf, x.ended e.turn block.1 = false →
    match x.store.state.owner e.turn block.1 with
    | none => ∀ y ∈ since p x.script, y.shown.yields e = true
    | some j => j = i ∨ ∀ owner ∈ x.streams j, owner.pos ≤ p
  /-- The turn of a delta whose block has ended was not closed before that. -/
  late : ∀ block ∈ e.deltaOf, x.ended e.turn block.1 = true →
    safe e.turn block.1 (since p x.script) = true
  closes : e.closes = true → x.Closable e.turn

/-- The frame was delivered before. -/
structure Known (x : Session) (p : Nat) (e : ChatEvent) : Prop where
  repeats : MayRepeat e (since p x.script)
  /-- A stream that takes over an open block is not behind. -/
  takeover : e.endOf = none → x.store.state.isLive e.turn = true → ∀ key ∈ e.blockOf,
    x.ended e.turn key = false → x.store.state.owner e.turn key = none → x.Caught p e.turn key

/-- The blocks of the stream are free for the others: it is behind in none. -/
def Leaves (x : Session) (i pos : Nat) : Prop :=
  ∀ k key, x.store.state.owner k key = some i →
    (x.ended k key = false → x.Caught pos k key) ∧ (k,key) ∉ x.torn

end Session

/-- The places of the frames and of the streams are such that a single stream shows the same. -/
def Harmless (frames : List ChatEvent) (x : Session) : Action → Prop
  | .send _ _ => True
  | .receipt _ _ => True
  | .deliver i => ∀ stream e, x.streams i = some stream → frames[stream.pos]? = some e →
      (x.seen stream.pos = false → x.Timely i stream.pos e) ∧
        (x.seen stream.pos = true → x.Known stream.pos e)
  | .finish i _ => ∀ stream, x.streams i = some stream →
      if x.store.activeStreamId = i then ∀ k, x.Closable k else x.Leaves i stream.pos

end Dominion.Web
