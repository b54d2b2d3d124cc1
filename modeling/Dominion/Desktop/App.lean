import Dominion.Framework.Lts
import Mathlib.Data.List.Basic
import Mathlib.Logic.Function.Basic

/-! # The desktop app

The connections of the app, the readers that they start and the results that debug mode holds back.
Every call and every goroutine is split at its reads and writes of shared fields, its locked
sections and its channel operations.  Bridges, channels, holds, readers and calls are numbered; the
network, the timers and the user are the environment's. -/
namespace Dominion.Desktop.App

open Dominion.Framework

/-! ## Holds -/

/-- Why a held result was released; the field `releaseReason` is empty until it is set. -/
inductive Reason
  | unset
  | confirmed
  | debugOff
  | timeout
  | shutdown
  deriving DecidableEq

/-- Where `holdAndRelease` is. -/
inductive Phase
  | waiting
  | notified
  | releasing (reason : Reason)
  | dropping
  | finished
  deriving DecidableEq

/-- A hold, with the reader that waits for it.  What released it and what was reported of it are
kept for the record. -/
structure Hold where
  reader : Nat
  toolID : String
  closings : Nat := 0
  releaseReason : Reason := .unset
  phase : Phase := .waiting
  causes : List Reason := []
  reported : List Reason := []
  deriving DecidableEq

/-- `confirmCh` is closed. -/
def Hold.close (h : Hold) (reason : Reason) : Hold :=
  { h with
    releaseReason := reason
    closings := h.closings + 1
    causes := h.causes ++ [reason] }

/-- The result is held. -/
def Hold.Blocked (h : Hold) : Prop :=
  h.phase = .waiting ∧ h.closings = 0

instance (h : Hold) : Decidable h.Blocked :=
  inferInstanceAs (Decidable (_ ∧ _))

/-! ## Readers and calls -/

/-- Where a reader is; the remaining operations of its frame are kept beside. -/
inductive Stage
  | spawned
  | receiving
  | reading (bridge : Nat)
  | executed (toolID : String)
  | registering (toolID : String)
  | holding (hold : Nat)
  | sending (toolID : String)
  | attempting (toolID : String)
  | exited
  deriving DecidableEq

/-- A reader, with the bridge and the channel of the `Connect` that started it; `done` is the
channel that it will close. -/
structure Reader where
  bridge : Nat
  channel : Nat
  done : Option Nat := none
  stage : Stage := .spawned
  operations : List String := []
  deriving DecidableEq

/-- The next operation of the frame, or the next frame. -/
def Reader.advance (rd : Reader) : Reader :=
  match rd.operations with
  | [] => { rd with stage := .receiving }
  | toolID :: rest => { rd with stage := .executed toolID, operations := rest }

/-- Where a `Connect` or a `CloseAgent` is. -/
inductive CallStage
  | checking
  | closing
  | capturing
  | waiting (channel : Nat)
  | opening
  | confirming (bridge : Nat)
  | storing (bridge : Nat)
  | renewing (bridge : Nat)
  | spawning (bridge channel : Nat)
  | clearing
  | returned
  deriving DecidableEq

/-- A call; `seen` is how often the bridge had been assigned when the call last looked at it. -/
structure Call where
  connects : Bool
  stage : CallStage := .checking
  seen : Nat := 0
  deriving DecidableEq

/-- What follows the hand-over. -/
def Call.handedOver (call : Call) : Call :=
  { call with stage := if call.connects then .opening else .clearing }

/-! ## The app -/

/-- The fields of the app and all objects that were made.  `disabling` counts the calls
`SetDebugMode(false)` that have yet to release the holds, and `disabled` says that one has done so
since debug mode was last enabled; `assigned` counts the assignments of the bridge.  A `Connect`
takes effect when it assigns its bridge, and any call when it closes the bridge that it finds;
`lastEffect` says whether the last effect was that of a `Connect`. -/
structure State where
  debugEnabled : Bool := false
  shutdown : Bool := false
  disabling : Nat := 0
  disabled : Bool := false
  holds : List Hold := []
  held : String → Option Nat := fun _ => none
  /-- Whether each bridge is closed. -/
  bridges : List Bool := []
  bridge : Option Nat := none
  assigned : Nat := 0
  /-- How often each completion channel was closed. -/
  channels : List Nat := []
  recvDone : Option Nat := none
  readers : List Reader := []
  calls : List Call := []
  lastEffect : Option Bool := none
  /-- A nil pointer was dereferenced, or a channel was closed twice. -/
  crashed : Bool := false

/-- The arms of the select of `holdAndRelease`. -/
inductive Arm
  | confirmCh
  | timeout
  | shutdown
  deriving DecidableEq

inductive HoldStep
  | wake (arm : Arm)
  | readReason
  | report
  | drop
  deriving DecidableEq

/-- What an attempt to send the result meets. -/
inductive Sent
  | ok
  | retry
  | failed
  deriving DecidableEq

inductive ReaderStep
  | start
  | receive
  /-- A frame with these operations. -/
  | frame (operations : List String)
  | recvError
  | loadDebug
  | register
  | checkBridge
  | send (sent : Sent)
  deriving DecidableEq

inductive CallStep
  | check
  | close (ok : Bool)
  | capture
  | wait
  | openStream (ok : Bool)
  | firstStatus (ok : Bool)
  | store
  | renew
  | spawn
  | clear
  deriving DecidableEq

inductive Label
  | setDebugMode (enabled : Bool)
  | releaseAllHolds
  | confirmToolResult (toolID : String)
  | shutdown
  | hold (i : Nat) (step : HoldStep)
  | reader (r : Nat) (step : ReaderStep)
  | connect (template sessionID : String)
  | closeAgent
  | call (c : Nat) (step : CallStep)
  deriving DecidableEq

namespace State

variable (s : State)

def setHold (i : Nat) (h : Hold) : State :=
  { s with holds := s.holds.set i h }

def setReader (r : Nat) (rd : Reader) : State :=
  { s with readers := s.readers.set r rd }

def setCall (c : Nat) (call : Call) : State :=
  { s with calls := s.calls.set c call }

/-- The app panics. -/
def crash : State :=
  { s with crashed := true }

/-- The flag is stored; disabling goes on to release the holds. -/
def setDebugMode (enabled : Bool) : State :=
  if enabled then { s with debugEnabled := true, disabled := false }
  else { s with debugEnabled := false, disabling := s.disabling + 1 }

/-- Every entry of the map is closed and deleted; then `SetDebugMode(false)` returns. -/
def releaseAllHolds : Option State :=
  if 0 < s.disabling then
    some { s with
      disabling := s.disabling - 1
      disabled := !s.debugEnabled
      holds := s.holds.mapIdx fun i h =>
        if s.held h.toolID = some i then h.close .debugOff else h
      held := fun _ => none }
  else none

/-- A tool that is not held is logged only. -/
def confirmToolResult (toolID : String) : State :=
  match s.held toolID with
  | none => s
  | some i =>
    { s with
      holds := s.holds.modify i fun h => h.close .confirmed
      held := Function.update s.held toolID none }

/-- The reader sends the result once its hold is over. -/
def dropHold (i : Nat) (h : Hold) : State :=
  { s with
    holds := s.holds.set i { h with phase := .finished }
    held := Function.update s.held h.toolID none
    readers := s.readers.modify h.reader fun rd =>
      if rd.stage = .holding i then { rd with stage := .sending h.toolID } else rd }

def holdStep (i : Nat) (h : Hold) : HoldStep → Option State
  | .wake .confirmCh =>
    if h.phase = .waiting ∧ 0 < h.closings then some (s.setHold i { h with phase := .notified })
    else none
  | .wake .timeout =>
    if h.phase = .waiting then
      some (s.setHold i { h with phase := .releasing .timeout, causes := h.causes ++ [.timeout] })
    else none
  | .wake .shutdown =>
    if h.phase = .waiting ∧ s.shutdown = true then
      some (s.setHold i { h with phase := .releasing .shutdown, causes := h.causes ++ [.shutdown] })
    else none
  | .readReason =>
    if h.phase = .notified then some (s.setHold i { h with phase := .releasing h.releaseReason })
    else none
  | .report =>
    match h.phase with
    | .releasing reason =>
      some (s.setHold i { h with phase := .dropping, reported := h.reported ++ [reason] })
    | _ => none
  | .drop => if h.phase = .dropping then some (s.dropHold i h) else none

/-- The deferred close of the channel that the reader captured. -/
def exit (r : Nat) (rd : Reader) : State :=
  let s := s.setReader r { rd with stage := .exited }
  match rd.done with
  | none => { s with crashed := true }
  | some ch =>
    { s with
      channels := s.channels.modify ch (· + 1)
      crashed := s.crashed || decide (s.channels[ch]? ≠ some 0) }

/-- The hold is registered under the tool id, whatever was registered there. -/
def register (r : Nat) (rd : Reader) (toolID : String) : State :=
  { s.setReader r { rd with stage := .holding s.holds.length } with
    holds := s.holds ++ [{ reader := r, toolID := toolID }]
    held := Function.update s.held toolID (some s.holds.length) }

def readerStep (r : Nat) (rd : Reader) : ReaderStep → Option State
  | .start =>
    if rd.stage = .spawned then
      some (s.setReader r { rd with done := s.recvDone, stage := .receiving })
    else none
  | .receive =>
    if rd.stage = .receiving then
      match s.bridge with
      | none => some s.crash
      | some b =>
        -- A closed bridge has no reader.
        if s.bridges[b]? = some false then some (s.setReader r { rd with stage := .reading b })
        else some (s.exit r rd)
    else none
  | .frame operations =>
    match rd.stage with
    | .reading _ => some (s.setReader r { rd with operations := operations }.advance)
    | _ => none
  | .recvError =>
    match rd.stage with
    | .reading _ => some (s.exit r rd)
    | _ => none
  | .loadDebug =>
    match rd.stage with
    | .executed toolID =>
      some (s.setReader r { rd with
        stage := if s.debugEnabled then .registering toolID else .sending toolID })
    | _ => none
  | .register =>
    match rd.stage with
    | .registering toolID => some (s.register r rd toolID)
    | _ => none
  | .checkBridge =>
    match rd.stage with
    | .sending toolID =>
      if s.bridge = none then some (s.exit r rd)
      else some (s.setReader r { rd with stage := .attempting toolID })
    | _ => none
  | .send sent =>
    match rd.stage with
    | .attempting _ =>
      if s.bridge = none then some s.crash
      else
        match sent with
        | .ok => some (s.setReader r rd.advance)
        | .retry => some s
        | .failed => some (s.exit r rd)
    | _ => none

def callStep (c : Nat) (call : Call) : CallStep → Option State
  | .check =>
    if call.stage = .checking then
      if s.bridge = none then
        some (s.setCall c { call with
          stage := if call.connects then .opening else .returned, seen := s.assigned })
      else some (s.setCall c { call with stage := .closing })
    else none
  | .close ok =>
    if call.stage = .closing then
      match s.bridge with
      | none => some s.crash
      | some b =>
        -- Only `CloseAgent` looks at the error.
        some { s.setCall c { call with
            stage := if call.connects ∨ ok = true then .capturing else .returned
            seen := s.assigned } with
          bridges := s.bridges.set b true
          lastEffect := some false }
    else none
  | .capture =>
    if call.stage = .capturing then
      match s.recvDone with
      | none => some (s.setCall c call.handedOver)
      | some ch => some (s.setCall c { call with stage := .waiting ch })
    else none
  | .wait =>
    match call.stage with
    | .waiting ch =>
      if s.channels[ch]? = some 0 then none else some (s.setCall c call.handedOver)
    | _ => none
  | .openStream ok =>
    if call.stage = .opening then
      some { s.setCall c { call with
          stage := if ok then .confirming s.bridges.length else .returned } with
        bridges := s.bridges ++ [!ok] }
    else none
  | .firstStatus ok =>
    match call.stage with
    | .confirming b =>
      if ok then some (s.setCall c { call with stage := .storing b })
      else some { s.setCall c { call with stage := .returned } with
        bridges := s.bridges.set b true }
    | _ => none
  | .store =>
    match call.stage with
    | .storing b =>
      some { s.setCall c { call with stage := .renewing b } with
        bridge := some b
        assigned := s.assigned + 1
        lastEffect := some true }
    | _ => none
  | .renew =>
    match call.stage with
    | .renewing b =>
      some { s.setCall c { call with stage := .spawning b s.channels.length } with
        channels := s.channels ++ [0]
        recvDone := some s.channels.length }
    | _ => none
  | .spawn =>
    match call.stage with
    | .spawning b ch =>
      some { s.setCall c { call with stage := .returned } with
        readers := s.readers ++ [{ bridge := b, channel := ch }] }
    | _ => none
  | .clear =>
    if call.stage = .clearing then
      some { s.setCall c { call with stage := .returned } with
        bridge := none
        assigned := s.assigned + 1 }
    else none

/-- A `Connect` without a template or a session is refused at once. -/
def connect (template sessionID : String) : State :=
  { s with calls := s.calls ++ [{
      connects := true
      stage := if template = "" ∨ sessionID = "" then .returned else .checking }] }

def closeAgent : State :=
  { s with calls := s.calls ++ [{ connects := false }] }

def step : Label → Option State
  | .setDebugMode enabled => some (s.setDebugMode enabled)
  | .releaseAllHolds => s.releaseAllHolds
  | .confirmToolResult toolID => some (s.confirmToolResult toolID)
  | .shutdown => some { s with shutdown := true }
  | .hold i a => s.holds[i]?.bind fun h => s.holdStep i h a
  | .reader r a => s.readers[r]?.bind fun rd => s.readerStep r rd a
  | .connect template sessionID => some (s.connect template sessionID)
  | .closeAgent => some s.closeAgent
  | .call c a => s.calls[c]?.bind fun call => s.callStep c call a

end State

/-- The app; nothing runs after a panic. -/
def app : Lts State Label where
  init s := s = {}
  step s l := if s.crashed then none else s.step l

/-! ## What a step does -/

section moves

/-- A guarded computation that has a result. -/
theorem of_guard_bind {α : Type} {p : Prop} [Decidable p] {x : Option α} {y : α}
    (h : (if p then x else none) = some y) : p ∧ x = some y := by
  split at h
  · rename_i hp
    exact ⟨hp,h⟩
  · cases h

variable {s s' : State} {i r c : Nat} {h : Hold} {rd : Reader} {call : Call}

inductive HoldMove (s : State) (i : Nat) (h : Hold) : HoldStep → State → Prop
  | notified (hphase : h.phase = .waiting) (hclosed : 0 < h.closings) :
      HoldMove s i h (.wake .confirmCh) (s.setHold i { h with phase := .notified })
  | timeout (hphase : h.phase = .waiting) : HoldMove s i h (.wake .timeout)
      (s.setHold i { h with phase := .releasing .timeout, causes := h.causes ++ [.timeout] })
  | shutdown (hphase : h.phase = .waiting) (hshutdown : s.shutdown = true) :
      HoldMove s i h (.wake .shutdown)
        (s.setHold i { h with phase := .releasing .shutdown, causes := h.causes ++ [.shutdown] })
  | readReason (hphase : h.phase = .notified) :
      HoldMove s i h .readReason (s.setHold i { h with phase := .releasing h.releaseReason })
  | report (reason : Reason) (hphase : h.phase = .releasing reason) : HoldMove s i h .report
      (s.setHold i { h with phase := .dropping, reported := h.reported ++ [reason] })
  | drop (hphase : h.phase = .dropping) : HoldMove s i h .drop (s.dropHold i h)

theorem holdMove {a : HoldStep} (hstep : s.holdStep i h a = some s') : HoldMove s i h a s' := by
  cases a with
  | wake arm =>
    cases arm with
    | confirmCh =>
      obtain ⟨⟨hphase,hclosed⟩,rfl⟩ := of_guard hstep
      exact .notified hphase hclosed
    | timeout =>
      obtain ⟨hphase,rfl⟩ := of_guard hstep
      exact .timeout hphase
    | shutdown =>
      obtain ⟨⟨hphase,hshutdown⟩,rfl⟩ := of_guard hstep
      exact .shutdown hphase hshutdown
  | readReason =>
    obtain ⟨hphase,rfl⟩ := of_guard hstep
    exact .readReason hphase
  | report =>
    simp only [State.holdStep] at hstep
    split at hstep
    · rename_i reason hphase
      cases hstep
      exact .report reason hphase
    · cases hstep
  | drop =>
    obtain ⟨hphase,rfl⟩ := of_guard hstep
    exact .drop hphase

inductive ReaderMove (s : State) (r : Nat) (rd : Reader) : ReaderStep → State → Prop
  | start (hstage : rd.stage = .spawned) : ReaderMove s r rd .start
      (s.setReader r { rd with done := s.recvDone, stage := .receiving })
  | receive {b : Nat} (hstage : rd.stage = .receiving) (hbridge : s.bridge = some b)
      (hopen : s.bridges[b]? = some false) :
      ReaderMove s r rd .receive (s.setReader r { rd with stage := .reading b })
  | closed {b : Nat} (hstage : rd.stage = .receiving) (hbridge : s.bridge = some b)
      (hclosed : s.bridges[b]? ≠ some false) : ReaderMove s r rd .receive (s.exit r rd)
  | frame {b : Nat} (operations : List String) (hstage : rd.stage = .reading b) :
      ReaderMove s r rd (.frame operations)
        (s.setReader r { rd with operations := operations }.advance)
  | recvError {b : Nat} (hstage : rd.stage = .reading b) :
      ReaderMove s r rd .recvError (s.exit r rd)
  | loadDebug {toolID : String} (hstage : rd.stage = .executed toolID) :
      ReaderMove s r rd .loadDebug (s.setReader r { rd with
        stage := if s.debugEnabled then .registering toolID else .sending toolID })
  | register {toolID : String} (hstage : rd.stage = .registering toolID) :
      ReaderMove s r rd .register (s.register r rd toolID)
  | disconnected {toolID : String} (hstage : rd.stage = .sending toolID)
      (hbridge : s.bridge = none) : ReaderMove s r rd .checkBridge (s.exit r rd)
  | checkBridge {toolID : String} (hstage : rd.stage = .sending toolID)
      (hbridge : s.bridge ≠ none) :
      ReaderMove s r rd .checkBridge (s.setReader r { rd with stage := .attempting toolID })
  | sent {toolID : String} (hstage : rd.stage = .attempting toolID) (hbridge : s.bridge ≠ none) :
      ReaderMove s r rd (.send .ok) (s.setReader r rd.advance)
  | retry {toolID : String} (hstage : rd.stage = .attempting toolID) (hbridge : s.bridge ≠ none) :
      ReaderMove s r rd (.send .retry) s
  | failed {toolID : String} (hstage : rd.stage = .attempting toolID) (hbridge : s.bridge ≠ none) :
      ReaderMove s r rd (.send .failed) (s.exit r rd)
  | crash {a : ReaderStep} (hbridge : s.bridge = none)
      (hstage : rd.stage = .receiving ∨ ∃ toolID, rd.stage = .attempting toolID) :
      ReaderMove s r rd a s.crash

theorem readerMove {a : ReaderStep} (hstep : s.readerStep r rd a = some s') :
    ReaderMove s r rd a s' := by
  cases a with
  | start =>
    obtain ⟨hstage,rfl⟩ := of_guard hstep
    exact .start hstage
  | receive =>
    obtain ⟨hstage,hread⟩ := of_guard_bind hstep
    cases hbridge : s.bridge with
    | none =>
      rw [hbridge] at hread
      cases hread
      exact .crash hbridge (.inl hstage)
    | some b =>
      rw [hbridge] at hread
      dsimp only at hread
      split at hread
      · rename_i hopen
        cases hread
        exact .receive hstage hbridge hopen
      · rename_i hclosed
        cases hread
        exact .closed hstage hbridge hclosed
  | frame operations =>
    simp only [State.readerStep] at hstep
    split at hstep
    · rename_i hstage
      cases hstep
      exact .frame operations hstage
    · cases hstep
  | recvError =>
    simp only [State.readerStep] at hstep
    split at hstep
    · rename_i hstage
      cases hstep
      exact .recvError hstage
    · cases hstep
  | loadDebug =>
    simp only [State.readerStep] at hstep
    split at hstep
    · rename_i hstage
      cases hstep
      exact .loadDebug hstage
    · cases hstep
  | register =>
    simp only [State.readerStep] at hstep
    split at hstep
    · rename_i hstage
      cases hstep
      exact .register hstage
    · cases hstep
  | checkBridge =>
    simp only [State.readerStep] at hstep
    split at hstep
    · rename_i hstage
      split at hstep
      · rename_i hbridge
        cases hstep
        exact .disconnected hstage hbridge
      · rename_i hbridge
        cases hstep
        exact .checkBridge hstage hbridge
    · cases hstep
  | send sent =>
    simp only [State.readerStep] at hstep
    split at hstep
    · rename_i toolID hstage
      split at hstep
      · rename_i hbridge
        cases hstep
        exact .crash hbridge (.inr ⟨toolID,hstage⟩)
      · rename_i hbridge
        cases sent with
        | ok =>
          cases hstep
          exact .sent hstage hbridge
        | retry =>
          cases hstep
          exact .retry hstage hbridge
        | failed =>
          cases hstep
          exact .failed hstage hbridge
    · cases hstep

inductive CallMove (s : State) (c : Nat) (call : Call) : CallStep → State → Prop
  | unconnected (hstage : call.stage = .checking) (hbridge : s.bridge = none) :
      CallMove s c call .check
        (s.setCall c { call with
          stage := if call.connects then .opening else .returned, seen := s.assigned })
  | check (hstage : call.stage = .checking) (hbridge : s.bridge ≠ none) :
      CallMove s c call .check (s.setCall c { call with stage := .closing })
  | crash (ok : Bool) (hstage : call.stage = .closing) (hbridge : s.bridge = none) :
      CallMove s c call (.close ok) s.crash
  | close {b : Nat} (ok : Bool) (hstage : call.stage = .closing) (hbridge : s.bridge = some b) :
      CallMove s c call (.close ok) { s.setCall c { call with
          stage := if call.connects ∨ ok = true then .capturing else .returned
          seen := s.assigned } with
        bridges := s.bridges.set b true
        lastEffect := some false }
  | unread (hstage : call.stage = .capturing) (hdone : s.recvDone = none) :
      CallMove s c call .capture (s.setCall c call.handedOver)
  | capture {ch : Nat} (hstage : call.stage = .capturing) (hdone : s.recvDone = some ch) :
      CallMove s c call .capture (s.setCall c { call with stage := .waiting ch })
  | wait {ch : Nat} (hstage : call.stage = .waiting ch) (hclosed : s.channels[ch]? ≠ some 0) :
      CallMove s c call .wait (s.setCall c call.handedOver)
  | openStream (ok : Bool) (hstage : call.stage = .opening) :
      CallMove s c call (.openStream ok) { s.setCall c { call with
          stage := if ok then .confirming s.bridges.length else .returned } with
        bridges := s.bridges ++ [!ok] }
  | firstStatus {b : Nat} (hstage : call.stage = .confirming b) :
      CallMove s c call (.firstStatus true) (s.setCall c { call with stage := .storing b })
  | unconfirmed {b : Nat} (hstage : call.stage = .confirming b) :
      CallMove s c call (.firstStatus false) { s.setCall c { call with stage := .returned } with
        bridges := s.bridges.set b true }
  | store {b : Nat} (hstage : call.stage = .storing b) : CallMove s c call .store
      { s.setCall c { call with stage := .renewing b } with
        bridge := some b
        assigned := s.assigned + 1
        lastEffect := some true }
  | renew {b : Nat} (hstage : call.stage = .renewing b) : CallMove s c call .renew
      { s.setCall c { call with stage := .spawning b s.channels.length } with
        channels := s.channels ++ [0]
        recvDone := some s.channels.length }
  | spawn {b ch : Nat} (hstage : call.stage = .spawning b ch) : CallMove s c call .spawn
      { s.setCall c { call with stage := .returned } with
        readers := s.readers ++ [{ bridge := b, channel := ch }] }
  | clear (hstage : call.stage = .clearing) : CallMove s c call .clear
      { s.setCall c { call with stage := .returned } with
        bridge := none
        assigned := s.assigned + 1 }

theorem callMove {a : CallStep} (hstep : s.callStep c call a = some s') :
    CallMove s c call a s' := by
  cases a with
  | check =>
    obtain ⟨hstage,hcheck⟩ := of_guard_bind hstep
    split at hcheck
    · rename_i hbridge
      cases hcheck
      exact .unconnected hstage hbridge
    · rename_i hbridge
      cases hcheck
      exact .check hstage hbridge
  | close ok =>
    obtain ⟨hstage,hclose⟩ := of_guard_bind hstep
    cases hbridge : s.bridge with
    | none =>
      rw [hbridge] at hclose
      cases hclose
      exact .crash ok hstage hbridge
    | some b =>
      rw [hbridge] at hclose
      cases hclose
      exact .close ok hstage hbridge
  | capture =>
    obtain ⟨hstage,hcapture⟩ := of_guard_bind hstep
    cases hdone : s.recvDone with
    | none =>
      rw [hdone] at hcapture
      cases hcapture
      exact .unread hstage hdone
    | some ch =>
      rw [hdone] at hcapture
      cases hcapture
      exact .capture hstage hdone
  | wait =>
    simp only [State.callStep] at hstep
    split at hstep
    · rename_i hstage
      split at hstep
      · cases hstep
      · rename_i hclosed
        cases hstep
        exact .wait hstage hclosed
    · cases hstep
  | openStream ok =>
    obtain ⟨hstage,rfl⟩ := of_guard hstep
    exact .openStream ok hstage
  | firstStatus ok =>
    simp only [State.callStep] at hstep
    split at hstep
    · rename_i hstage
      cases ok with
      | true =>
        cases hstep
        exact .firstStatus hstage
      | false =>
        cases hstep
        exact .unconfirmed hstage
    · cases hstep
  | store =>
    simp only [State.callStep] at hstep
    split at hstep
    · rename_i hstage
      cases hstep
      exact .store hstage
    · cases hstep
  | renew =>
    simp only [State.callStep] at hstep
    split at hstep
    · rename_i hstage
      cases hstep
      exact .renew hstage
    · cases hstep
  | spawn =>
    simp only [State.callStep] at hstep
    split at hstep
    · rename_i hstage
      cases hstep
      exact .spawn hstage
    · cases hstep
  | clear =>
    obtain ⟨hstage,rfl⟩ := of_guard hstep
    exact .clear hstage

end moves

end Dominion.Desktop.App
