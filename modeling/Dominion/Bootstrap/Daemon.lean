import Dominion.Framework.Lts
import Mathlib.Data.List.Basic
import Mathlib.Logic.Function.Basic

/-! # Daemon supervision

One supervisor goroutine, any number of Stop calls beside it, and workers that do what they like. -/
namespace Dominion.Bootstrap

open Dominion.Framework

/-- An error as `errors.Is` sees it. -/
inductive WorkerError
  | canceled
  | deadlineExceeded
  | other (text : String)
  deriving DecidableEq, Repr

inductive DaemonDecision
  | restart
  | stop
  | fatal
  deriving DecidableEq, Repr

structure DaemonConfig where
  /-- The name as the error texts quote it. -/
  quotedName : String
  initialBackoff : Int
  maxBackoff : Int
  maxRestarts : Int
  deriving DecidableEq, Repr

/-- A context error is a stop only once the context of the daemon is done. -/
def defaultErrorClassifier (ctxDone : Bool) : Option WorkerError → DaemonDecision
  | none => .stop
  | some .canceled => if ctxDone then .stop else .restart
  | some .deadlineExceeded => if ctxDone then .stop else .restart
  | some (.other _) => .restart

/-- A negative limit disables itself. -/
def restartsExhausted (cfg : DaemonConfig) (restartCount : Nat) : Bool :=
  0 ≤ cfg.maxRestarts && cfg.maxRestarts < restartCount

def nextBackoff (cfg : DaemonConfig) (current : Int) : Int :=
  min (current * 2) cfg.maxBackoff

inductive Phase
  /-- Start has not been called. -/
  | idle
  | checking
  | building
  | built (worker : Nat)
  | installed (worker : Nat)
  | running (worker : Nat)
  | left (error : Option WorkerError)
  | policy (error : Option WorkerError)
  | backingOff
  | reporting (error : Option WorkerError)
  | exited
  deriving DecidableEq, Repr

/-- The worker whose Start has been entered. -/
def Phase.active : Phase → List Nat
  | .running worker => [worker]
  | _ => []

inductive StopPhase
  | idle
  | called
  | read (cancel : Bool) (worker : Option Nat)
  | cancelled (worker : Option Nat)
  | waiting
  | returned
  deriving DecidableEq, Repr

inductive BuildResult
  | worker
  | failed (error : WorkerError)
  | panicked (text : String)
  deriving DecidableEq, Repr

inductive StartResult
  | returned (error : Option WorkerError)
  | panicked (text : String)
  deriving DecidableEq, Repr

structure Daemon where
  phase : Phase := .idle
  ctxDone : Bool := false
  /-- The current worker; a worker is named by its Build. -/
  worker : Option Nat := none
  restartCount : Nat := 0
  backoff : Int
  builds : Nat := 0
  /-- The channel of the exit watcher, of capacity one. -/
  done : Option (Option WorkerError) := none
  sends : Nat := 0
  /-- The workers whose Start was entered and has not returned. -/
  active : List Nat := []
  /-- The workers whose Stop was called. -/
  stopped : List Nat := []
  stops : Nat → StopPhase := fun _ => .idle

inductive DaemonStep
  | start
  | parentDone
  | stopCall (k : Nat)
  | stopRead (k : Nat)
  | stopCancel (k : Nat)
  | stopWorker (k : Nat)
  | stopDone (k : Nat)
  | check
  | built (result : BuildResult)
  | install
  | enter
  | leave (result : StartResult)
  | afterStart
  | policy
  | wake
  | interrupted
  | send
  | receive
  deriving DecidableEq, Repr

namespace Daemon

variable (cfg : DaemonConfig) (d : Daemon)

def setStop (k : Nat) (phase : StopPhase) : Daemon :=
  { d with stops := Function.update d.stops k phase }

def stopCall (k : Nat) : Option Daemon :=
  if d.stops k = .idle then some (d.setStop k .called) else none

/-- The two reads under the lock. -/
def stopRead (k : Nat) : Option Daemon :=
  if d.stops k = .called then some (d.setStop k (.read (d.phase ≠ .idle) d.worker)) else none

def stopCancel (k : Nat) : Option Daemon :=
  match d.stops k with
  | .read cancel worker =>
    some ({ d with ctxDone := d.ctxDone || cancel }.setStop k (.cancelled worker))
  | _ => none

def stopWorker (k : Nat) : Option Daemon :=
  match d.stops k with
  | .cancelled worker =>
    some ({ d with stopped := d.stopped ++ worker.toList }.setStop k .waiting)
  | _ => none

def stopDone (k : Nat) : Option Daemon :=
  if d.stops k = .waiting ∧ (d.phase = .idle ∨ d.phase = .exited) then
    some (d.setStop k .returned)
  else none

/-- The head of the loop. -/
def check : Option Daemon :=
  if d.phase = .checking then
    if d.ctxDone then some { d with phase := .exited }
    else some { d with phase := .building, builds := d.builds + 1 }
  else none

def build (result : BuildResult) : Option Daemon :=
  if d.phase = .building then
    match result with
    | .worker => some { d with phase := .built (d.builds - 1) }
    | .failed error => some { d with phase := .policy (some error) }
    | .panicked text => some { d with
        phase := .policy (some (.other ("bootstrap: daemon " ++ cfg.quotedName ++
          " Build panicked: " ++ text))) }
  else none

def install : Option Daemon :=
  match d.phase with
  | .built worker => some { d with phase := .installed worker, worker := some worker }
  | _ => none

def enter : Option Daemon :=
  match d.phase with
  | .installed worker => some { d with phase := .running worker, active := d.active ++ [worker] }
  | _ => none

def leave (result : StartResult) : Option Daemon :=
  match d.phase with
  | .running worker =>
    some { d with
      phase := .left (match result with
        | .returned error => error
        | .panicked text => some (.other ("bootstrap: daemon " ++ cfg.quotedName ++
          " Start panicked: " ++ text)))
      active := d.active.filter (· ≠ worker) }
  | _ => none

/-- The exit of a worker is no error once the context is done. -/
def afterStart : Option Daemon :=
  match d.phase with
  | .left error =>
    if d.ctxDone then some { d with phase := .exited } else some { d with phase := .policy error }
  | _ => none

def applyRestartPolicy : Option Daemon :=
  match d.phase with
  | .policy error =>
    match defaultErrorClassifier d.ctxDone error with
    | .restart =>
      if restartsExhausted cfg (d.restartCount + 1) then
        some { d with phase := .reporting error, restartCount := d.restartCount + 1 }
      else some { d with phase := .backingOff, restartCount := d.restartCount + 1 }
    | .stop => some { d with phase := .exited }
    | .fatal => some { d with phase := .reporting error }
  | _ => none

def wake : Option Daemon :=
  if d.phase = .backingOff then
    some { d with phase := .checking, backoff := nextBackoff cfg d.backoff }
  else none

def interrupted : Option Daemon :=
  if d.phase = .backingOff ∧ d.ctxDone = true then some { d with phase := .exited } else none

/-- The send blocks while the channel is full. -/
def send : Option Daemon :=
  match d.phase with
  | .reporting error =>
    if d.done = none then
      some { d with phase := .exited, done := some error, sends := d.sends + 1 }
    else none
  | _ => none

def step : DaemonStep → Option Daemon
  | .start => if d.phase = .idle then some { d with phase := .checking } else some d
  | .parentDone => some { d with ctxDone := true }
  | .stopCall k => d.stopCall k
  | .stopRead k => d.stopRead k
  | .stopCancel k => d.stopCancel k
  | .stopWorker k => d.stopWorker k
  | .stopDone k => d.stopDone k
  | .check => d.check
  | .built result => d.build cfg result
  | .install => d.install
  | .enter => d.enter
  | .leave result => d.leave cfg result
  | .afterStart => d.afterStart
  | .policy => d.applyRestartPolicy cfg
  | .wake => d.wake cfg
  | .interrupted => d.interrupted
  | .send => d.send
  | .receive => some { d with done := none }

/-- The supervisor runs. -/
def supervised : Bool :=
  d.phase ≠ .idle && d.phase ≠ .exited

end Daemon

def daemonSystem (cfg : DaemonConfig) : Lts Daemon DaemonStep where
  init d := d = { backoff := cfg.initialBackoff }
  step := Daemon.step cfg

/-! ## Which workers must be stopped -/

structure StopJournal where
  /-- Stop was called while the supervisor ran. -/
  called : Bool := false
  /-- The Stop calls before their reads. -/
  calling : List Nat := []
  /-- The workers that ran at such a call or were entered later. -/
  owed : List Nat := []
  /-- The workers that Stop calls have read. -/
  reads : List Nat := []
  /-- No worker escaped the reads of the Stop calls. -/
  clean : Bool := true
  deriving DecidableEq, Repr

/-- No worker that must be stopped is replaced unread, and none is entered with no Stop call left
to read it. -/
def Catches (j : StopJournal) (d : Daemon) : DaemonStep → Bool
  | .install =>
    match d.worker with
    | some worker => decide (worker ∉ j.owed) || decide (worker ∈ j.reads)
    | none => true
  | .enter =>
    match d.phase with
    | .installed worker => !j.called || decide (worker ∈ j.reads) || !j.calling.isEmpty
    | _ => true
  | _ => true

def StopJournal.next (d : Daemon) (l : DaemonStep) (j : StopJournal) : StopJournal :=
  match l with
  | .stopCall k =>
    { j with
      called := j.called || d.supervised
      calling := j.calling ++ [k]
      owed := if d.supervised then j.owed ++ d.active else j.owed }
  | .stopRead k =>
    { j with
      calling := j.calling.filter (· ≠ k)
      reads := j.reads ++ d.worker.toList }
  | .install => { j with clean := j.clean && Catches j d .install }
  | .enter =>
    match d.phase with
    | .installed worker =>
      { j with
        owed := if j.called then j.owed ++ [worker] else j.owed
        clean := j.clean && Catches j d .enter }
    | _ => j
  | _ => j

def observedDaemon (cfg : DaemonConfig) : Lts (Daemon × StopJournal) DaemonStep :=
  (daemonSystem cfg).journaled (fun d l _ j => j.next d l) {}

/-- The worker that the Stop call has read and is about to stop. -/
def StopPhase.held : StopPhase → Option Nat
  | .read _ worker => worker
  | .cancelled worker => worker
  | _ => none

/-- A Stop call has read the worker or is about to. -/
def Pending (d : Daemon) (worker : Nat) : Prop :=
  ∃ k, (d.stops k).held = some worker ∨ d.stops k = .called ∧ d.worker = some worker

/-- Every worker that must be stopped is, or a Stop call is about to. -/
def AllStopped (x : Daemon × StopJournal) : Prop :=
  ∀ worker ∈ x.2.owed, worker ∈ x.1.stopped ∨ Pending x.1 worker

/-! ## The supervisor -/

/-- Whether the Build of this round was called. -/
def Phase.rounds : Phase → Nat
  | .building => 1
  | .built _ => 1
  | .installed _ => 1
  | .running _ => 1
  | .left _ => 1
  | .policy _ => 1
  | _ => 0

/-- Whether this round has called Build and not installed its worker. -/
def Phase.uninstalled : Phase → Nat
  | .building => 1
  | .built _ => 1
  | _ => 0

structure Inv (cfg : DaemonConfig) (d : Daemon) : Prop where
  active : d.active = d.phase.active
  worker : ∀ a, d.phase = .installed a ∨ d.phase = .running a → d.worker = some a
  older : ∀ a, d.worker = some a → a + d.phase.uninstalled < d.builds
  newest : ∀ a, d.phase = .built a → a + 1 = d.builds
  called : d.phase = .building → 0 < d.builds
  count : d.phase ≠ .exited → d.builds = d.restartCount + d.phase.rounds
  limit : 0 ≤ cfg.maxRestarts → (d.builds : Int) ≤ cfg.maxRestarts + 1 ∧
    ((∀ e, d.phase ≠ .reporting e) → d.phase ≠ .exited → (d.restartCount : Int) ≤ cfg.maxRestarts)
  unsent : d.phase ≠ .exited → d.sends = 0 ∧ d.done = none
  sent : d.sends ≤ 1

section supervisor

variable {cfg : DaemonConfig} {d d' : Daemon}

private theorem inv_init : Inv cfg { backoff := cfg.initialBackoff } where
  active := rfl
  worker := by simp
  older := by simp
  newest := by simp
  called := by simp
  count := fun _ => rfl
  limit := fun h => ⟨by simp; omega,fun _ _ => by simpa using h⟩
  unsent := fun _ => ⟨rfl,rfl⟩
  sent := Nat.zero_le _

/-- A step that leaves the supervisor where it is. -/
theorem Inv.same (h : Inv cfg d) (hphase : d'.phase = d.phase) (hworker : d'.worker = d.worker)
    (hcount : d'.restartCount = d.restartCount) (hbuilds : d'.builds = d.builds)
    (hactive : d'.active = d.active) (hsends : d'.sends = d.sends)
    (hdone : d'.done = d.done ∨ d'.done = none) : Inv cfg d' where
  active := by rw [hactive,hphase,h.active]
  worker := by rw [hphase,hworker]; exact h.worker
  older := by rw [hphase,hworker,hbuilds]; exact h.older
  newest := by rw [hphase,hbuilds]; exact h.newest
  called := by rw [hphase,hbuilds]; exact h.called
  count := by rw [hphase,hcount,hbuilds]; exact h.count
  limit := by rw [hphase,hcount,hbuilds]; exact h.limit
  unsent := by
    rw [hphase,hsends]
    intro hne
    obtain ⟨hzero,hnone⟩ := h.unsent hne
    refine ⟨hzero,?_⟩
    rcases hdone with hdone | hdone
    · exact hdone.trans hnone
    · exact hdone
  sent := by rw [hsends]; exact h.sent

/-- The supervisor exits without a send. -/
theorem Inv.exit (h : Inv cfg d) (hphase : d.phase.active = []) :
    Inv cfg { d with phase := .exited } where
  active := h.active.trans hphase
  worker := by simp
  older := fun a ha => Nat.lt_of_le_of_lt (Nat.le_add_right _ _) (h.older a ha)
  newest := by simp
  called := by simp
  count := fun hne => absurd rfl hne
  limit := fun hmax => ⟨(h.limit hmax).1,fun _ hne => absurd rfl hne⟩
  unsent := fun hne => absurd rfl hne
  sent := h.sent

/-- The supervisor goes on within its round. -/
theorem Inv.goOn (h : Inv cfg d) {phase : Phase} {worker : Option Nat} {active : List Nat}
    (hround : phase.rounds = d.phase.rounds) (hlive : d.phase ≠ .exited)
    (hreport : ∀ e, d.phase ≠ .reporting e) (hactive : active = phase.active)
    (hworker : ∀ a, phase = .installed a ∨ phase = .running a → worker = some a)
    (holder : ∀ a, worker = some a → a + phase.uninstalled < d.builds)
    (hnewest : ∀ a, phase = .built a → a + 1 = d.builds) (hcalled : phase ≠ .building) :
    Inv cfg { d with phase := phase, worker := worker, active := active } where
  active := hactive
  worker := hworker
  older := holder
  newest := hnewest
  called := fun hb => absurd hb hcalled
  count := fun _ => (h.count hlive).trans (by rw [hround])
  limit := fun hmax => ⟨(h.limit hmax).1,fun _ _ => (h.limit hmax).2 hreport hlive⟩
  unsent := fun _ => h.unsent hlive
  sent := h.sent

private theorem Inv.check (h : Inv cfg d) (hd : d.check = some d') : Inv cfg d' := by
  unfold Daemon.check at hd
  split at hd
  · rename_i hphase
    split at hd
    · cases hd
      exact h.exit (by rw [hphase]; rfl)
    · cases hd
      have hlive : d.phase ≠ .exited := by simp [hphase]
      have hsame : d.builds = d.restartCount := by
        have hcount := h.count hlive
        rwa [hphase] at hcount
      exact {
        active := by rw [h.active,hphase]; rfl
        worker := by simp
        older := fun a ha => by
          have hlt := h.older a ha
          have hle : a + 1 ≤ d.builds := Nat.le_trans (by omega) hlt
          exact Nat.succ_le_succ hle
        newest := by simp
        called := fun _ => Nat.succ_pos _
        count := fun _ => congrArg (· + 1) hsame
        limit := fun hmax => by
          have hlimit := (h.limit hmax).2 (by simp [hphase]) hlive
          refine ⟨?_,fun _ _ => hlimit⟩
          show ((d.builds + 1 : Nat) : Int) ≤ cfg.maxRestarts + 1
          omega
        unsent := fun _ => h.unsent hlive
        sent := h.sent }
  · cases hd

private theorem Inv.policy (h : Inv cfg d) (hd : d.applyRestartPolicy cfg = some d') :
    Inv cfg d' := by
  unfold Daemon.applyRestartPolicy at hd
  split at hd
  · rename_i error hphase
    have hlive : d.phase ≠ .exited := by simp [hphase]
    have hbuilds : d.builds = d.restartCount + 1 := by
      have hcount := h.count hlive
      rwa [hphase] at hcount
    have hactive : d.active = [] := by rw [h.active,hphase]; rfl
    have holder : ∀ a, d.worker = some a → a < d.builds := fun a ha =>
      Nat.lt_of_le_of_lt (Nat.le_add_right _ _) (h.older a ha)
    split at hd
    · split at hd
      · cases hd
        exact {
          active := hactive
          worker := by simp
          older := holder
          newest := by simp
          called := by simp
          count := fun _ => hbuilds
          limit := fun hmax => ⟨(h.limit hmax).1,fun hreport => absurd rfl (hreport error)⟩
          unsent := fun _ => h.unsent hlive
          sent := h.sent }
      · rename_i hexhausted
        cases hd
        exact {
          active := hactive
          worker := by simp
          older := holder
          newest := by simp
          called := by simp
          count := fun _ => hbuilds
          limit := fun hmax => by
            have hbound : ¬cfg.maxRestarts < ((d.restartCount + 1 : Nat) : Int) := by
              simpa [restartsExhausted,hmax] using hexhausted
            exact ⟨(h.limit hmax).1,fun _ _ => Int.not_lt.mp hbound⟩
          unsent := fun _ => h.unsent hlive
          sent := h.sent }
    · cases hd
      exact h.exit (by rw [hphase]; rfl)
    · rename_i hfatal
      -- The default classifier never answers fatal.
      cases error with
      | none => cases hfatal
      | some e =>
        cases e <;> simp only [defaultErrorClassifier] at hfatal
        · split at hfatal <;> cases hfatal
        · split at hfatal <;> cases hfatal
        · cases hfatal
  · cases hd

private theorem Inv.send (h : Inv cfg d) (hd : d.send = some d') : Inv cfg d' := by
  unfold Daemon.send at hd
  split at hd
  · rename_i error hphase
    obtain ⟨-,rfl⟩ := of_guard hd
    have hlive : d.phase ≠ .exited := by simp [hphase]
    exact {
      active := by rw [h.active,hphase]; rfl
      worker := by simp
      older := fun a ha => Nat.lt_of_le_of_lt (Nat.le_add_right _ _) (h.older a ha)
      newest := by simp
      called := by simp
      count := fun hne => absurd rfl hne
      limit := fun hmax => ⟨(h.limit hmax).1,fun _ hne => absurd rfl hne⟩
      unsent := fun hne => absurd rfl hne
      sent := Nat.succ_le_succ (Nat.le_of_eq (h.unsent hlive).1) }
  · cases hd

private theorem Inv.build (h : Inv cfg d) {result : BuildResult}
    (hd : d.build cfg result = some d') :
    Inv cfg d' := by
  unfold Daemon.build at hd
  split at hd
  · rename_i hphase
    have hpos := h.called hphase
    have holder : ∀ a, d.worker = some a → a + 1 < d.builds := fun a ha => by
      have hlt := h.older a ha
      rwa [hphase] at hlt
    have hactive : d.active = [] := by rw [h.active,hphase]; rfl
    have hfailed : ∀ error, Inv cfg { d with phase := .policy (some error) } := fun error =>
      h.goOn (by rw [hphase]; rfl) (by simp [hphase]) (by simp [hphase]) hactive (by simp)
        (fun a ha => Nat.lt_of_succ_lt (holder a ha)) (by simp) (by simp)
    cases result with
    | worker =>
      cases hd
      exact h.goOn (by rw [hphase]; rfl) (by simp [hphase]) (by simp [hphase]) hactive (by simp)
        holder (fun a ha => by cases ha; omega) (by simp)
    | failed error =>
      cases hd
      exact hfailed error
    | panicked text =>
      cases hd
      exact hfailed _
  · cases hd

private theorem Inv.install (h : Inv cfg d) (hd : d.install = some d') : Inv cfg d' := by
  unfold Daemon.install at hd
  split at hd
  · rename_i worker hphase
    cases hd
    have hnewest := h.newest worker hphase
    exact h.goOn (by rw [hphase]; rfl) (by simp [hphase]) (by simp [hphase])
      (by rw [h.active,hphase]; rfl) (fun a ha => by simpa using ha)
      (fun a ha => by cases ha; exact hnewest ▸ Nat.lt_succ_self _) (by simp) (by simp)
  · cases hd

/-- Past the install the current worker is older than any to come. -/
theorem Inv.current (h : Inv cfg d) (hphase : d.phase.uninstalled = 0) (a : Nat)
    (ha : d.worker = some a) : a < d.builds := by
  have hlt := h.older a ha
  rwa [hphase] at hlt

private theorem Inv.enter (h : Inv cfg d) (hd : d.enter = some d') : Inv cfg d' := by
  unfold Daemon.enter at hd
  split at hd
  · rename_i worker hphase
    cases hd
    have hworker := h.worker worker (Or.inl hphase)
    exact h.goOn (by rw [hphase]; rfl) (by simp [hphase]) (by simp [hphase])
      (by rw [h.active,hphase]; rfl) (fun a ha => by simp at ha; rw [hworker,ha])
      (h.current (by rw [hphase]; rfl)) (by simp) (by simp)
  · cases hd

private theorem Inv.leave (h : Inv cfg d) {result : StartResult}
    (hd : d.leave cfg result = some d') :
    Inv cfg d' := by
  unfold Daemon.leave at hd
  split at hd
  · rename_i worker hphase
    cases hd
    exact h.goOn (by rw [hphase]; rfl) (by simp [hphase]) (by simp [hphase])
      (by rw [h.active,hphase]; simp [Phase.active]) (by simp)
      (h.current (by rw [hphase]; rfl)) (by simp) (by simp)
  · cases hd

private theorem Inv.afterStart (h : Inv cfg d) (hd : d.afterStart = some d') : Inv cfg d' := by
  unfold Daemon.afterStart at hd
  split at hd
  · rename_i error hphase
    split at hd
    · cases hd
      exact h.exit (by rw [hphase]; rfl)
    · cases hd
      exact h.goOn (by rw [hphase]; rfl) (by simp [hphase]) (by simp [hphase])
        (by rw [h.active,hphase]; rfl) (by simp) (h.current (by rw [hphase]; rfl)) (by simp) (by simp)
  · cases hd

private theorem Inv.wake (h : Inv cfg d) (hd : d.wake cfg = some d') : Inv cfg d' := by
  obtain ⟨hphase,rfl⟩ := of_guard hd
  have hbackoff : Inv cfg { d with backoff := nextBackoff cfg d.backoff } :=
    h.same rfl rfl rfl rfl rfl rfl (Or.inl rfl)
  exact hbackoff.goOn (by rw [hphase]; rfl) (by simp [hphase]) (by simp [hphase])
    (by rw [h.active,hphase]; rfl) (by simp) (h.current (by rw [hphase]; rfl)) (by simp) (by simp)

/-- The steps of the Stop calls leave the supervisor alone. -/
theorem stop_frame {l : DaemonStep} (hd : d.step cfg l = some d')
    (hl : (∃ k, l = .stopCall k) ∨ (∃ k, l = .stopRead k) ∨ (∃ k, l = .stopCancel k) ∨
      (∃ k, l = .stopWorker k) ∨ ∃ k, l = .stopDone k) :
    d'.phase = d.phase ∧ d'.worker = d.worker ∧ d'.restartCount = d.restartCount ∧
      d'.builds = d.builds ∧ d'.active = d.active ∧ d'.sends = d.sends ∧ d'.done = d.done := by
  rcases hl with ⟨k,rfl⟩ | ⟨k,rfl⟩ | ⟨k,rfl⟩ | ⟨k,rfl⟩ | ⟨k,rfl⟩
  · obtain ⟨-,rfl⟩ := of_guard hd
    exact ⟨rfl,rfl,rfl,rfl,rfl,rfl,rfl⟩
  · obtain ⟨-,rfl⟩ := of_guard hd
    exact ⟨rfl,rfl,rfl,rfl,rfl,rfl,rfl⟩
  · have hcancel : d.stopCancel k = some d' := hd
    unfold Daemon.stopCancel at hcancel
    split at hcancel
    · cases hcancel
      exact ⟨rfl,rfl,rfl,rfl,rfl,rfl,rfl⟩
    · cases hcancel
  · have hworker : d.stopWorker k = some d' := hd
    unfold Daemon.stopWorker at hworker
    split at hworker
    · cases hworker
      exact ⟨rfl,rfl,rfl,rfl,rfl,rfl,rfl⟩
    · cases hworker
  · obtain ⟨-,rfl⟩ := of_guard hd
    exact ⟨rfl,rfl,rfl,rfl,rfl,rfl,rfl⟩

private theorem Inv.stop (h : Inv cfg d) {l : DaemonStep} (hd : d.step cfg l = some d')
    (hl : (∃ k, l = .stopCall k) ∨ (∃ k, l = .stopRead k) ∨ (∃ k, l = .stopCancel k) ∨
      (∃ k, l = .stopWorker k) ∨ ∃ k, l = .stopDone k) : Inv cfg d' := by
  obtain ⟨hphase,hworker,hcount,hbuilds,hactive,hsends,hdone⟩ := stop_frame hd hl
  exact h.same hphase hworker hcount hbuilds hactive hsends (Or.inl hdone)

private theorem Inv.start (h : Inv cfg d) (hd : d.step cfg .start = some d') : Inv cfg d' := by
  have hstart : (if d.phase = .idle then some { d with phase := .checking } else some d) =
      some d' := hd
  split at hstart
  · rename_i hphase
    cases hstart
    exact h.goOn (by rw [hphase]; rfl) (by simp [hphase]) (by simp [hphase])
      (by rw [h.active,hphase]; rfl) (by simp) (h.current (by rw [hphase]; rfl)) (by simp) (by simp)
  · cases hstart
    exact h

private theorem Inv.step (h : Inv cfg d) {l : DaemonStep} (hd : d.step cfg l = some d') :
    Inv cfg d' := by
  cases l with
  | start => exact h.start hd
  | parentDone =>
    cases hd
    exact h.same rfl rfl rfl rfl rfl rfl (Or.inl rfl)
  | stopCall k => exact h.stop hd (by simp)
  | stopRead k => exact h.stop hd (by simp)
  | stopCancel k => exact h.stop hd (by simp)
  | stopWorker k => exact h.stop hd (by simp)
  | stopDone k => exact h.stop hd (by simp)
  | check => exact h.check hd
  | built result => exact h.build hd
  | install => exact h.install hd
  | enter => exact h.enter hd
  | leave result => exact h.leave hd
  | afterStart => exact h.afterStart hd
  | policy => exact h.policy hd
  | wake => exact h.wake hd
  | interrupted =>
    obtain ⟨⟨hphase,-⟩,rfl⟩ := of_guard hd
    exact h.exit (by rw [hphase]; rfl)
  | send => exact h.send hd
  | receive =>
    cases hd
    exact h.same rfl rfl rfl rfl rfl rfl (Or.inr rfl)

/-- The worker that runs is the current one. -/
theorem Inv.worker_of_active (h : Inv cfg d) {a : Nat} (ha : a ∈ d.active) : d.worker = some a := by
  rw [h.active] at ha
  cases hphase : d.phase with
  | running worker =>
    have he : a = worker := by simpa [hphase,Phase.active] using ha
    exact h.worker a (Or.inr (by rw [hphase,he]))
  | _ => simp [hphase,Phase.active] at ha

end supervisor

/-! ## The Stop calls -/

section stops

variable {cfg : DaemonConfig} {d d' : Daemon}

/-- A step of the supervisor that starts and replaces no worker. -/
structure Quiet (d d' : Daemon) : Prop where
  stops : d'.stops = d.stops
  stopped : d'.stopped = d.stopped
  worker : d'.worker = d.worker
  active : ∀ a ∈ d'.active, a ∈ d.active

private theorem Quiet.phase {phase : Phase} : Quiet d { d with phase := phase } :=
  ⟨rfl,rfl,rfl,fun _ ha => ha⟩

theorem quiet_policy (hd : d.applyRestartPolicy cfg = some d') : Quiet d d' := by
  unfold Daemon.applyRestartPolicy at hd
  split at hd
  · split at hd
    · split at hd
      · cases hd
        exact ⟨rfl,rfl,rfl,fun _ ha => ha⟩
      · cases hd
        exact ⟨rfl,rfl,rfl,fun _ ha => ha⟩
    · cases hd
      exact .phase
    · cases hd
      exact .phase
  · cases hd

theorem quiet_build {result : BuildResult} (hd : d.build cfg result = some d') : Quiet d d' := by
  unfold Daemon.build at hd
  split at hd
  · cases result <;> cases hd <;> exact .phase
  · cases hd

theorem quiet_leave {result : StartResult} (hd : d.leave cfg result = some d') : Quiet d d' := by
  unfold Daemon.leave at hd
  split at hd
  · cases hd
    exact ⟨rfl,rfl,rfl,fun _ ha => List.mem_of_mem_filter ha⟩
  · cases hd

theorem quiet_afterStart (hd : d.afterStart = some d') : Quiet d d' := by
  unfold Daemon.afterStart at hd
  split at hd
  · split at hd <;> cases hd <;> exact .phase
  · cases hd

theorem quiet_check (hd : d.check = some d') : Quiet d d' := by
  unfold Daemon.check at hd
  split at hd
  · split at hd
    · cases hd
      exact .phase
    · cases hd
      exact ⟨rfl,rfl,rfl,fun _ ha => ha⟩
  · cases hd

theorem quiet_send (hd : d.send = some d') : Quiet d d' := by
  unfold Daemon.send at hd
  split at hd
  · obtain ⟨-,rfl⟩ := of_guard hd
    exact ⟨rfl,rfl,rfl,fun _ ha => ha⟩
  · cases hd

theorem quiet_start (hd : d.step cfg .start = some d') : Quiet d d' := by
  have hstart : (if d.phase = .idle then some { d with phase := .checking } else some d) =
      some d' := hd
  split at hstart
  · cases hstart
    exact .phase
  · cases hstart
    exact ⟨rfl,rfl,rfl,fun _ ha => ha⟩

@[simp] theorem setStop_self (k : Nat) (phase : StopPhase) : (d.setStop k phase).stops k = phase := by
  simp [Daemon.setStop]

@[simp] theorem setStop_other {k i : Nat} (phase : StopPhase) (hne : i ≠ k) :
    (d.setStop k phase).stops i = d.stops i := by
  simp [Daemon.setStop,hne]

structure Stopping (cfg : DaemonConfig) (x : Daemon × StopJournal) : Prop where
  inv : Inv cfg x.1
  calling : ∀ k, k ∈ x.2.calling ↔ x.1.stops k = .called
  held : ∀ k a, (x.1.stops k).held = some a → a ∈ x.2.reads
  stopped : ∀ a ∈ x.1.stopped, a ∈ x.2.reads
  reads : ∀ a ∈ x.2.reads, a ∈ x.1.stopped ∨ ∃ k, (x.1.stops k).held = some a
  running : x.2.called = true → ∀ a ∈ x.1.active, a ∈ x.2.owed
  owed : x.2.clean = true → ∀ a ∈ x.2.owed, a ∈ x.2.reads ∨
    x.2.calling ≠ [] ∧ x.1.worker = some a

variable {j j' : StopJournal}

private theorem stopping_init : Stopping cfg ({ backoff := cfg.initialBackoff },{}) where
  inv := inv_init
  calling := by simp
  held := by simp [StopPhase.held]
  stopped := by simp
  reads := by simp
  running := by simp
  owed := by simp

private theorem Stopping.quiet (h : Stopping cfg (d,j)) (hinv : Inv cfg d') (hq : Quiet d d') :
    Stopping cfg (d',j) where
  inv := hinv
  calling := by
    intro k
    rw [hq.stops]
    exact h.calling k
  held := by
    intro k a ha
    apply h.held k a
    rwa [hq.stops] at ha
  stopped := by
    rw [hq.stopped]
    exact h.stopped
  reads := by
    intro a ha
    rw [hq.stops,hq.stopped]
    exact h.reads a ha
  running := fun hcalled a ha => h.running hcalled a (hq.active a ha)
  owed := by
    rw [hq.worker]
    exact h.owed

private theorem held_setStop {k : Nat} {phase : StopPhase} (hheld : phase.held = (d.stops k).held)
    (i : Nat) : ((d.setStop k phase).stops i).held = (d.stops i).held := by
  by_cases hik : i = k
  · rw [hik,setStop_self,hheld]
  · rw [setStop_other phase hik]

/-- A Stop call goes on with the worker it has read. -/
theorem Stopping.move (h : Stopping cfg (d,j)) {k : Nat} {phase : StopPhase}
    (hinv : Inv cfg (d.setStop k phase)) (hheld : phase.held = (d.stops k).held)
    (hcalled : phase ≠ .called) (hwas : d.stops k ≠ .called) :
    Stopping cfg (d.setStop k phase,j) := by
  have hsame := held_setStop hheld
  exact {
    inv := hinv
    calling := by
      intro i
      by_cases hik : i = k
      · subst hik
        rw [setStop_self]
        exact ⟨fun hi => absurd ((h.calling i).mp hi) hwas,fun hi => absurd hi hcalled⟩
      · rw [setStop_other phase hik]
        exact h.calling i
    held := by
      intro i a ha
      rw [hsame i] at ha
      exact h.held i a ha
    stopped := h.stopped
    reads := by
      intro a ha
      rcases h.reads a ha with hstopped | ⟨i,hi⟩
      · exact Or.inl hstopped
      · exact Or.inr ⟨i,by rw [hsame i]; exact hi⟩
    running := h.running
    owed := h.owed }

private theorem Stopping.stopCall (h : Stopping cfg (d,j)) {k : Nat} (hd : d.stopCall k = some d')
    (hinv : Inv cfg d') : Stopping cfg (d',j.next d (.stopCall k)) := by
  obtain ⟨hidle,rfl⟩ := of_guard hd
  have hheld : StopPhase.called.held = (d.stops k).held := by
    rw [hidle]
    rfl
  have hsame := held_setStop hheld
  exact {
    inv := hinv
    calling := by
      intro i
      show i ∈ j.calling ++ [k] ↔ _
      by_cases hik : i = k
      · simp [hik]
      · rw [setStop_other .called hik,List.mem_append,h.calling i]
        simp [hik]
    held := by
      intro i a ha
      rw [hsame i] at ha
      exact h.held i a ha
    stopped := h.stopped
    reads := by
      intro a ha
      rcases h.reads a ha with hstopped | ⟨i,hi⟩
      · exact Or.inl hstopped
      · exact Or.inr ⟨i,by rw [hsame i]; exact hi⟩
    running := by
      intro hcalled a ha
      show a ∈ if d.supervised then j.owed ++ d.active else j.owed
      by_cases hs : d.supervised = true
      · rw [if_pos hs]
        exact List.mem_append_right _ ha
      · rw [if_neg hs]
        have hbefore : j.called = true := by simpa [StopJournal.next,hs] using hcalled
        exact h.running hbefore a ha
    owed := by
      intro hclean a ha
      have hcalling : (j.next d (.stopCall k)).calling ≠ [] := by simp [StopJournal.next]
      have hcases : a ∈ j.owed ∨ a ∈ d.active := by
        have hmem : a ∈ if d.supervised then j.owed ++ d.active else j.owed := ha
        split at hmem
        · exact List.mem_append.mp hmem
        · exact Or.inl hmem
      rcases hcases with hold | hnew
      · rcases h.owed hclean a hold with hread | ⟨-,hworker⟩
        · exact Or.inl hread
        · exact Or.inr ⟨hcalling,hworker⟩
      · exact Or.inr ⟨hcalling,h.inv.worker_of_active hnew⟩ }

private theorem Stopping.stopRead (h : Stopping cfg (d,j)) {k : Nat} (hd : d.stopRead k = some d')
    (hinv : Inv cfg d') : Stopping cfg (d',j.next d (.stopRead k)) := by
  obtain ⟨hcalled,rfl⟩ := of_guard hd
  have hreads : ∀ a, a ∈ (j.next d (.stopRead k)).reads ↔ a ∈ j.reads ∨ d.worker = some a := by
    intro a
    simp [StopJournal.next]
  exact {
    inv := hinv
    calling := by
      intro i
      show i ∈ j.calling.filter (· ≠ k) ↔ _
      by_cases hik : i = k
      · simp [hik]
      · rw [setStop_other _ hik,← h.calling i]
        simp [hik]
    held := by
      intro i a ha
      rw [hreads]
      by_cases hik : i = k
      · rw [hik,setStop_self] at ha
        exact Or.inr ha
      · rw [setStop_other _ hik] at ha
        exact Or.inl (h.held i a ha)
    stopped := fun a ha => (hreads a).mpr (Or.inl (h.stopped a ha))
    reads := by
      intro a ha
      rcases (hreads a).mp ha with hold | hnew
      · rcases h.reads a hold with hstopped | ⟨i,hi⟩
        · exact Or.inl hstopped
        · -- The call that reads now held nothing before.
          have hik : i ≠ k := fun he => by rw [he,hcalled] at hi; cases hi
          exact Or.inr ⟨i,by rw [setStop_other _ hik]; exact hi⟩
      · exact Or.inr ⟨k,by rw [setStop_self]; exact hnew⟩
    running := h.running
    owed := by
      intro hclean a ha
      rcases h.owed hclean a ha with hread | ⟨-,hworker⟩
      · exact Or.inl ((hreads a).mpr (Or.inl hread))
      · exact Or.inl ((hreads a).mpr (Or.inr hworker)) }

private theorem Stopping.stopCancel (h : Stopping cfg (d,j)) {k : Nat}
    (hd : d.stopCancel k = some d') (hinv : Inv cfg d') : Stopping cfg (d',j) := by
  unfold Daemon.stopCancel at hd
  split at hd
  · rename_i cancel worker hphase
    cases hd
    have hdone : Stopping cfg ({ d with ctxDone := d.ctxDone || cancel },j) :=
      h.quiet (h.inv.same rfl rfl rfl rfl rfl rfl (Or.inl rfl)) ⟨rfl,rfl,rfl,fun _ ha => ha⟩
    exact hdone.move hinv (by rw [hphase]; rfl) (by simp) (by rw [hphase]; simp)
  · cases hd

private theorem Stopping.stopWorker (h : Stopping cfg (d,j)) {k : Nat}
    (hd : d.stopWorker k = some d') (hinv : Inv cfg d') : Stopping cfg (d',j) := by
  unfold Daemon.stopWorker at hd
  split at hd
  · rename_i worker hphase
    cases hd
    have hread : ∀ a, worker = some a → a ∈ j.reads := by
      intro a ha
      exact h.held k a (by rw [hphase,ha]; rfl)
    exact {
      inv := hinv
      calling := by
        intro i
        by_cases hik : i = k
        · rw [hik,setStop_self,h.calling k,hphase]
          simp
        · rw [setStop_other _ hik]
          exact h.calling i
      held := by
        intro i a ha
        by_cases hik : i = k
        · rw [hik,setStop_self] at ha
          cases ha
        · rw [setStop_other _ hik] at ha
          exact h.held i a ha
      stopped := by
        intro a ha
        rcases List.mem_append.mp ha with hold | hnew
        · exact h.stopped a hold
        · exact hread a (by simpa using hnew)
      reads := by
        intro a ha
        rcases h.reads a ha with hold | ⟨i,hi⟩
        · exact Or.inl (List.mem_append_left _ hold)
        · by_cases hik : i = k
          · rw [hik,hphase] at hi
            have hworker : worker = some a := hi
            exact Or.inl (List.mem_append_right _ (by simp [hworker]))
          · exact Or.inr ⟨i,by rw [setStop_other _ hik]; exact hi⟩
      running := h.running
      owed := h.owed }
  · cases hd

private theorem Stopping.stopDone (h : Stopping cfg (d,j)) {k : Nat} (hd : d.stopDone k = some d')
    (hinv : Inv cfg d') : Stopping cfg (d',j) := by
  obtain ⟨⟨hphase,-⟩,rfl⟩ := of_guard hd
  exact h.move hinv (by rw [hphase]; rfl) (by simp) (by rw [hphase]; simp)

private theorem Stopping.install (h : Stopping cfg (d,j)) (hd : d.install = some d')
    (hinv : Inv cfg d') : Stopping cfg (d',j.next d .install) := by
  unfold Daemon.install at hd
  split at hd
  · rename_i worker hphase
    cases hd
    exact {
      inv := hinv
      calling := h.calling
      held := h.held
      stopped := h.stopped
      reads := h.reads
      running := h.running
      owed := by
        intro hclean a ha
        obtain ⟨hbefore,hcatches⟩ := Bool.and_eq_true_iff.mp hclean
        rcases h.owed hbefore a ha with hread | ⟨-,hworker⟩
        · exact Or.inl hread
        · have howed : a ∈ j.owed := ha
          have hcurrent : d.worker = some a := hworker
          have hread : a ∈ j.reads := by simpa [Catches,hcurrent,howed] using hcatches
          exact Or.inl hread }
  · cases hd

private theorem Stopping.enter (h : Stopping cfg (d,j)) (hd : d.enter = some d')
    (hinv : Inv cfg d') : Stopping cfg (d',j.next d .enter) := by
  unfold Daemon.enter at hd
  split at hd
  · rename_i worker hphase
    cases hd
    have hnext : j.next d .enter = { j with
        owed := if j.called then j.owed ++ [worker] else j.owed
        clean := j.clean && Catches j d .enter } := by
      simp only [StopJournal.next,hphase]
    have hworker := h.inv.worker worker (Or.inl hphase)
    rw [hnext]
    exact {
      inv := hinv
      calling := h.calling
      held := h.held
      stopped := h.stopped
      reads := h.reads
      running := by
        intro hcalled a ha
        show a ∈ if j.called then j.owed ++ [worker] else j.owed
        rw [if_pos hcalled]
        rcases List.mem_append.mp ha with hold | hnew
        · exact List.mem_append_left _ (h.running hcalled a hold)
        · exact List.mem_append_right _ hnew
      owed := by
        intro hclean a ha
        obtain ⟨hbefore,hcatches⟩ := Bool.and_eq_true_iff.mp hclean
        have hmem : a ∈ if j.called then j.owed ++ [worker] else j.owed := ha
        split at hmem
        · rename_i hcalled
          rcases List.mem_append.mp hmem with hold | hnew
          · exact h.owed hbefore a hold
          · have he : a = worker := by simpa using hnew
            rw [he]
            have hcaught : worker ∈ j.reads ∨ j.calling ≠ [] := by
              simpa [Catches,hphase,hcalled] using hcatches
            exact hcaught.imp id fun hcalling => ⟨hcalling,hworker⟩
        · exact h.owed hbefore a hmem }
  · cases hd

private theorem Stopping.step (h : Stopping cfg (d,j)) {l : DaemonStep}
    (hd : d.step cfg l = some d') :
    Stopping cfg (d',j.next d l) := by
  have hinv := h.inv.step hd
  cases l with
  | start => exact h.quiet hinv (quiet_start hd)
  | parentDone =>
    cases hd
    exact h.quiet hinv ⟨rfl,rfl,rfl,fun _ ha => ha⟩
  | stopCall k => exact h.stopCall hd hinv
  | stopRead k => exact h.stopRead hd hinv
  | stopCancel k => exact h.stopCancel hd hinv
  | stopWorker k => exact h.stopWorker hd hinv
  | stopDone k => exact h.stopDone hd hinv
  | check => exact h.quiet hinv (quiet_check hd)
  | built result => exact h.quiet hinv (quiet_build hd)
  | install => exact h.install hd hinv
  | enter => exact h.enter hd hinv
  | leave result => exact h.quiet hinv (quiet_leave hd)
  | afterStart => exact h.quiet hinv (quiet_afterStart hd)
  | policy => exact h.quiet hinv (quiet_policy hd)
  | wake =>
    obtain ⟨-,rfl⟩ := of_guard hd
    exact h.quiet hinv ⟨rfl,rfl,rfl,fun _ ha => ha⟩
  | interrupted =>
    obtain ⟨-,rfl⟩ := of_guard hd
    exact h.quiet hinv .phase
  | send => exact h.quiet hinv (quiet_send hd)
  | receive =>
    cases hd
    exact h.quiet hinv ⟨rfl,rfl,rfl,fun _ ha => ha⟩

private theorem Stopping.allStopped {x : Daemon × StopJournal} (h : Stopping cfg x)
    (hclean : x.2.clean = true) : AllStopped x := by
  intro a ha
  rcases h.owed hclean a ha with hread | ⟨hcalling,hworker⟩
  · rcases h.reads a hread with hstopped | ⟨k,hk⟩
    · exact Or.inl hstopped
    · exact Or.inr ⟨k,Or.inl hk⟩
  · obtain ⟨k,hk⟩ := List.exists_mem_of_ne_nil _ hcalling
    exact Or.inr ⟨k,Or.inr ⟨(h.calling k).mp hk,hworker⟩⟩

/-- Every Stop call is past its call of the worker's Stop. -/
def StopsWait (d : Daemon) : Prop :=
  ∀ k, d.stops k = .idle ∨ d.stops k = .waiting ∨ d.stops k = .returned

private theorem StopsWait.not_pending {a : Nat} (hwait : StopsWait d) : ¬Pending d a := by
  rintro ⟨k,hpending⟩
  rcases hwait k with hk | hk | hk <;> simp [hk,StopPhase.held] at hpending

private theorem Stopping.unread {x : Daemon × StopJournal} (h : Stopping cfg x) {a : Nat}
    (hread : a ∉ x.2.reads) (hcalled : ∀ k, x.1.stops k = .called → x.1.worker ≠ some a) :
    ¬(a ∈ x.1.stopped ∨ Pending x.1 a) := by
  rintro (hstopped | ⟨k,hheld | ⟨hphase,hworker⟩⟩)
  · exact hread (h.stopped a hstopped)
  · exact hread (h.held k a hheld)
  · exact hcalled k hphase hworker

private theorem Stopping.lost_install (h : Stopping cfg (d,j)) (hd : d.install = some d')
    (hlost : Catches j d .install = false) : ¬AllStopped (d',j.next d .install) := by
  have hafter := h.install hd (h.inv.install hd)
  unfold Daemon.install at hd
  split at hd
  · rename_i worker hphase
    cases hd
    cases hworker : d.worker with
    | none => simp [Catches,hworker] at hlost
    | some a =>
      obtain ⟨howed,hread⟩ : a ∈ j.owed ∧ a ∉ j.reads := by simpa [Catches,hworker] using hlost
      -- The worker that is being installed is younger.
      have hne : worker ≠ a := by
        have holder : a + d.phase.uninstalled < d.builds := h.inv.older a hworker
        have hnewest : worker + 1 = d.builds := h.inv.newest worker hphase
        simp only [hphase,Phase.uninstalled] at holder
        omega
      intro hall
      exact hafter.unread hread (fun k _ he => hne (Option.some.inj he)) (hall a howed)
  · cases hd

private theorem Stopping.lost_enter (h : Stopping cfg (d,j)) (hd : d.enter = some d')
    (hlost : Catches j d .enter = false) : ¬AllStopped (d',j.next d .enter) := by
  have hafter := h.enter hd (h.inv.enter hd)
  unfold Daemon.enter at hd
  split at hd
  · rename_i worker hphase
    cases hd
    obtain ⟨⟨hcalled,hread⟩,hcalling⟩ : (j.called = true ∧ worker ∉ j.reads) ∧ j.calling = [] := by
      simpa [Catches,hphase] using hlost
    intro hall
    have hnone : ∀ k, d.stops k ≠ .called := by
      intro k hk
      have hmem : k ∈ j.calling := (h.calling k).mpr hk
      rw [hcalling] at hmem
      exact List.not_mem_nil hmem
    have hread' : worker ∉ (j.next d .enter).reads := by
      simpa only [StopJournal.next,hphase] using hread
    have howed : worker ∈ (j.next d .enter).owed := by simp [StopJournal.next,hphase,hcalled]
    exact hafter.unread hread' (fun k hk => absurd hk (hnone k)) (hall worker howed)
  · cases hd

private theorem next_clean {l : DaemonStep} : (j.next d l).clean = (j.clean && Catches j d l) := by
  cases l with
  | install => rfl
  | enter => cases hphase : d.phase <;> simp [StopJournal.next,Catches,hphase]
  | _ => simp [StopJournal.next,Catches]

private theorem Stopping.lost {l : DaemonStep} (h : Stopping cfg (d,j))
    (hd : d.step cfg l = some d')
    (hlost : Catches j d l = false) : ¬AllStopped (d',j.next d l) := by
  cases l with
  | install => exact h.lost_install hd hlost
  | enter => exact h.lost_enter hd hlost
  | _ => cases hlost

private theorem inductive_stopping :
    Lts.Inductive (observedDaemon cfg) (fun _ _ => True) (Stopping cfg) where
  init x hx := by
    obtain ⟨hd,hj⟩ := hx
    have he : x = ({ backoff := cfg.initialBackoff },{}) := Prod.ext hd hj
    rw [he]
    exact stopping_init
  step x l y hx _ hstep := by
    obtain ⟨hs,hj⟩ := Lts.journaled_step.mp hstep
    have hy : y = (y.1,x.2.next x.1 l) := Prod.ext rfl hj
    rw [hy]
    exact Stopping.step hx hs

end stops

/-- In every run at most one worker runs, at most `maxRestarts` restarts happen, and the only send
on the channel finds it empty.  As long as no worker escaped the reads of the Stop calls, each worker
that must be stopped is, the one that runs while all Stop calls wait included; the first step
that lets one escape leaves it unstopped. -/
theorem daemon_supervises (cfg : DaemonConfig) : ∀ x, Lts.Reach (observedDaemon cfg) x →
    (x.1.active.length ≤ 1 ∧
      (0 ≤ cfg.maxRestarts → (x.1.builds : Int) ≤ cfg.maxRestarts + 1) ∧
      x.1.sends ≤ 1 ∧ (∀ error, x.1.phase = .reporting error → x.1.done = none)) ∧
    (x.2.clean = true → AllStopped x ∧
      (StopsWait x.1 → (∀ worker ∈ x.2.owed, worker ∈ x.1.stopped) ∧
        (x.2.called = true → ∀ worker ∈ x.1.active, worker ∈ x.1.stopped))) ∧
    ∀ l y, x.2.clean = true → (observedDaemon cfg).step x l = some y → y.2.clean = false →
      ¬AllStopped y := by
  intro x hx
  have h := inductive_stopping.of_reachUnder hx
  refine ⟨⟨?_,fun hmax => (h.inv.limit hmax).1,h.inv.sent,?_⟩,fun hclean => ?_,?_⟩
  · rw [h.inv.active]
    cases x.1.phase <;> simp [Phase.active]
  · intro error hphase
    exact (h.inv.unsent (by simp [hphase])).2
  · have hall := h.allStopped hclean
    refine ⟨hall,fun hwait => ?_⟩
    have howed : ∀ worker ∈ x.2.owed, worker ∈ x.1.stopped := by
      intro worker hworker
      exact (hall worker hworker).resolve_right hwait.not_pending
    exact ⟨howed,fun hcalled worker hworker => howed worker (h.running hcalled worker hworker)⟩
  · intro l y hclean hstep hlost
    obtain ⟨hs,hj⟩ := Lts.journaled_step.mp hstep
    have hy : y = (y.1,x.2.next x.1 l) := Prod.ext rfl hj
    rw [hj,next_clean,hclean,Bool.true_and] at hlost
    rw [hy]
    exact Stopping.lost h hs hlost

/-! ## Two runs -/

def demoDaemon : DaemonConfig :=
  { quotedName := "\"agent\"", initialBackoff := 1, maxBackoff := 30, maxRestarts := 5 }

/-- The phases of the only Stop call, which read this worker. -/
def oneStop (worker : Option Nat) : Nat → StopPhase :=
  let called := Function.update (fun _ => .idle) 0 .called
  let read := Function.update called 0 (.read true worker)
  let cancelled := Function.update read 0 (.cancelled worker)
  Function.update cancelled 0 .waiting

private theorem oneStop_waits {d : Daemon} {worker : Option Nat} (hd : d.stops = oneStop worker) :
    StopsWait d := by
  intro k
  rw [hd]
  by_cases hk : k = 0
  · simp [oneStop,hk]
  · simp [oneStop,hk]

def stoppedWhileRunning : Daemon × StopJournal :=
  ({ phase := .running 1, ctxDone := true, worker := some 1, restartCount := 1, backoff := 2,
     builds := 2, active := [1], stopped := [1], stops := oneStop (some 1) },
   { called := true, owed := [1], reads := [1] })

/-- A worker fails, the next one runs and is stopped. -/
theorem daemon_supervises_demo : Lts.Reach (observedDaemon demoDaemon) stoppedWhileRunning ∧
    ∀ worker ∈ stoppedWhileRunning.1.active, worker ∈ stoppedWhileRunning.1.stopped := by
  have hx : Lts.Reach (observedDaemon demoDaemon) stoppedWhileRunning :=
    Lts.reach_of_run (s := (({ backoff := 1 },{}) : Daemon × StopJournal))
      [.start,.check,.built .worker,.install,.enter,.leave (.returned (some (.other "lost"))),
        .afterStart,.policy,.wake,.check,.built .worker,.install,.enter,.stopCall 0,.stopRead 0,
        .stopCancel 0,.stopWorker 0] (.init ⟨rfl,rfl⟩) rfl
  have hall := (daemon_supervises demoDaemon stoppedWhileRunning hx).2.1 rfl
  exact ⟨hx,(hall.2 (oneStop_waits rfl)).2 rfl⟩

def stoppedWhileBuilding : Daemon × StopJournal :=
  ({ phase := .running 0, ctxDone := true, worker := some 0, backoff := 1, builds := 1,
     active := [0], stops := oneStop none },
   { called := true, owed := [0], clean := false })

/-- Stop reads no worker while the first one is being built; it is installed and entered after. -/
theorem worker_built_late_is_not_stopped : ¬∀ x, Lts.Reach (observedDaemon demoDaemon) x →
    StopsWait x.1 → x.2.called = true → ∀ worker ∈ x.1.active, worker ∈ x.1.stopped := by
  intro h
  have hx : Lts.Reach (observedDaemon demoDaemon) stoppedWhileBuilding :=
    Lts.reach_of_run (s := (({ backoff := 1 },{}) : Daemon × StopJournal))
      [.start,.check,.stopCall 0,.stopRead 0,.stopCancel 0,.stopWorker 0,.built .worker,.install,
        .enter] (.init ⟨rfl,rfl⟩) rfl
  have hstopped := h stoppedWhileBuilding hx (oneStop_waits rfl) rfl 0 List.mem_cons_self
  exact List.not_mem_nil hstopped

end Dominion.Bootstrap
