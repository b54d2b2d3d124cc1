import Dominion.Framework.Lts
import Dominion.Framework.Counting
import Dominion.Deploy.Domain.Queue

/-! # Dispatch of queued environments to workers

Any number of workers dequeue from one queue while producers and timers enqueue into it.  The
receive of a token, the exchange of the item for a mark and `Complete` are separate steps. -/
namespace Dominion.Deploy.Domain

open Dominion.Framework

/-- Where a worker stands in its `Dequeue`/`Complete` cycle. -/
inductive Dequeuer where
  | idle
  | received (envName : EnvironmentName)
  | holding (item : WorkItem)
  deriving DecidableEq

namespace Dequeuer

def hasReceived (n : EnvironmentName) : Dequeuer → Bool
  | received envName => envName == n
  | _ => false

def holds (n : EnvironmentName) : Dequeuer → Bool
  | holding item => item.envName == n
  | _ => false

@[simp] theorem hasReceived_received (n m : EnvironmentName) :
    (received m).hasReceived n = decide (n = m) := by
  simp [hasReceived,eq_comm,BEq.beq]

@[simp] theorem holds_holding (n : EnvironmentName) (item : WorkItem) :
    (holding item).holds n = decide (n = item.envName) := by
  simp [holds,eq_comm,BEq.beq]

@[simp] theorem hasReceived_idle (n : EnvironmentName) : idle.hasReceived n = false := rfl

@[simp] theorem hasReceived_holding (n : EnvironmentName) (item : WorkItem) :
    (holding item).hasReceived n = false := rfl

@[simp] theorem holds_idle (n : EnvironmentName) : idle.holds n = false := rfl

@[simp] theorem holds_received (n m : EnvironmentName) : (received m).holds n = false := rfl

end Dequeuer

structure Dispatch where
  queue : Queue
  workers : List Dequeuer

namespace Dispatch

inductive Label where
  | startWorker
  | enqueueNow (item : WorkItem)
  | send (envName : EnvironmentName)
  | receive (worker : Nat)
  | markInFlight (worker : Nat)
  | complete (worker : Nat)

def step (s : Dispatch) : Label → Option Dispatch
  | .startWorker => some { s with workers := s.workers ++ [.idle] }
  | .enqueueNow item => some { s with queue := s.queue.enqueueNow item }
  | .send envName => (s.queue.send envName).map fun q => { s with queue := q }
  | .receive worker =>
    match s.workers[worker]? with
    | some .idle => s.queue.receive.map fun r => ⟨r.2,s.workers.set worker (.received r.1)⟩
    | _ => none
  | .markInFlight worker =>
    match s.workers[worker]? with
    | some (.received envName) =>
      match s.queue.markInFlight envName with
      | some (item,q) => some ⟨q,s.workers.set worker (.holding item)⟩
      | none => some { s with workers := s.workers.set worker .idle }
    | _ => none
  | .complete worker =>
    match s.workers[worker]? with
    | some (.holding item) =>
      some ⟨s.queue.complete item.envName,s.workers.set worker .idle⟩
    | _ => none

def system : Lts Dispatch Label where
  init s := s = ⟨newQueue,[]⟩
  step := step

/-- The dequeuers that took a token of `n` and have not yet looked its item up. -/
def received (s : Dispatch) (n : EnvironmentName) : Nat :=
  s.workers.countP (Dequeuer.hasReceived n)

def held (s : Dispatch) (n : EnvironmentName) : Nat :=
  s.workers.countP (Dequeuer.holds n)

/-- The dispatch invariant: the queue accounts for the workers' tokens and marks. -/
def Accounted (s : Dispatch) : Prop :=
  s.queue.Accounts s.received s.held

variable {s s' : Dispatch} {n : EnvironmentName} {w : Nat}

private theorem received_set {b : Dequeuer} (h : s.workers[w]? = some b) (q : Queue)
    (d : Dequeuer) (m : EnvironmentName) :
    Dispatch.received ⟨q,s.workers.set w d⟩ m + (if b.hasReceived m then 1 else 0) =
      s.received m + (if d.hasReceived m then 1 else 0) :=
  countP_set_add h

private theorem held_set {b : Dequeuer} (h : s.workers[w]? = some b) (q : Queue)
    (d : Dequeuer) (m : EnvironmentName) :
    Dispatch.held ⟨q,s.workers.set w d⟩ m + (if b.holds m then 1 else 0) =
      s.held m + (if d.holds m then 1 else 0) :=
  countP_set_add h

private theorem accounted_startWorker (h : s.Accounted) :
    Accounted { s with workers := s.workers ++ [.idle] } := by
  have hr : Dispatch.received { s with workers := s.workers ++ [.idle] } = s.received := by
    funext m
    simp [received]
  have hh : Dispatch.held { s with workers := s.workers ++ [.idle] } = s.held := by
    funext m
    simp [held]
  unfold Accounted
  rw [hr,hh]
  exact h

private theorem accounted_receive {q : Queue} (h : s.Accounted)
    (hw : s.workers[w]? = some .idle) (hq : s.queue.receive = some (n,q)) :
    Accounted ⟨q,s.workers.set w (.received n)⟩ := by
  have hh : Dispatch.held ⟨q,s.workers.set w (.received n)⟩ = s.held := by
    funext m
    simpa using held_set hw q (.received n) m
  unfold Accounted
  rw [hh]
  refine Queue.accounts_receive h hq ?_
  intro m
  have hr := received_set hw q (.received n) m
  simpa using hr

private theorem accounted_markInFlight {q : Queue} {item : WorkItem} (h : s.Accounted)
    (hw : s.workers[w]? = some (.received n)) (hq : s.queue.markInFlight n = some (item,q))
    (hname : item.envName = n) : Accounted ⟨q,s.workers.set w (.holding item)⟩ := by
  refine Queue.accounts_markInFlight h hq ?_ ?_
  · intro m
    have hr := received_set hw q (.holding item) m
    simpa using hr.symm
  · intro m
    have hh := held_set hw q (.holding item) m
    simpa [hname] using hh

theorem received_pos (hw : s.workers[w]? = some (.received n)) : 0 < s.received n :=
  countP_pos_of_getElem? hw (by simp)

private theorem held_pos {item : WorkItem} (hw : s.workers[w]? = some (.holding item)) :
    0 < s.held item.envName :=
  countP_pos_of_getElem? hw (by simp)

private theorem accounted_complete {item : WorkItem} (h : s.Accounted)
    (hw : s.workers[w]? = some (.holding item)) :
    Accounted ⟨s.queue.complete item.envName,s.workers.set w .idle⟩ := by
  have hr : Dispatch.received ⟨s.queue.complete item.envName,s.workers.set w .idle⟩ =
      s.received := by
    funext m
    simpa using received_set hw (s.queue.complete item.envName) .idle m
  unfold Accounted
  rw [hr]
  refine Queue.accounts_complete h (held_pos hw) ?_
  intro m
  have hh := held_set hw (s.queue.complete item.envName) .idle m
  simpa using hh.symm

theorem accounted_step (h : s.Accounted) (l : Label) (hs : s.step l = some s') :
    s'.Accounted := by
  cases l with
  | startWorker =>
    cases hs
    exact accounted_startWorker h
  | enqueueNow item =>
    cases hs
    exact Queue.accounts_enqueueNow h item
  | send envName =>
    obtain ⟨q,hq,rfl⟩ := Option.map_eq_some_iff.mp hs
    exact Queue.accounts_send h hq
  | receive worker =>
    simp only [step] at hs
    split at hs
    · rename_i hw
      obtain ⟨⟨envName,q⟩,hq,rfl⟩ := Option.map_eq_some_iff.mp hs
      exact accounted_receive h hw hq
    · cases hs
  | markInFlight worker =>
    simp only [step] at hs
    split at hs
    · rename_i envName hw
      obtain ⟨item,q,hq,hname,-⟩ := Queue.markInFlight_of_received h (received_pos hw)
      simp only [hq] at hs
      cases hs
      exact accounted_markInFlight h hw hq hname
    · cases hs
  | complete worker =>
    simp only [step] at hs
    split at hs
    · rename_i item hw
      cases hs
      exact accounted_complete h hw
    · cases hs

theorem accounted_inductive : Lts.Inductive system (fun _ _ => True) Accounted where
  init s hs := by
    cases hs
    exact Queue.accounts_newQueue
  step s l s' h _ hs := accounted_step h l hs

theorem accounted_of_reach (h : system.Reach s) : s.Accounted :=
  accounted_inductive.of_reachUnder h

theorem held_le_one (h : s.Accounted) (n : EnvironmentName) : s.held n ≤ 1 := by
  rw [h.held n]
  split <;> omega

theorem holder_unique {i j : Nat} {a b : WorkItem} (h : s.Accounted)
    (hi : s.workers[i]? = some (.holding a)) (hj : s.workers[j]? = some (.holding b))
    (hab : a.envName = b.envName) : i = j :=
  index_unique_of_countP_le_one (held_le_one h a.envName) hi hj (by simp) (by simp [hab])

/-- A received token is exchanged for the item of its name, which no worker holds. -/
theorem markInFlight_hands (h : s.Accounted) (hw : s.workers[w]? = some (.received n)) :
    ∃ item q, s.step (.markInFlight w) = some ⟨q,s.workers.set w (.holding item)⟩ ∧
      item.envName = n ∧ ∀ (j : Nat) b, s.workers[j]? = some (.holding b) → b.envName ≠ n := by
  obtain ⟨item,q,hq,hname,hheld⟩ := Queue.markInFlight_of_received h (received_pos hw)
  refine ⟨item,q,?_,hname,?_⟩
  · simp only [step,hw,hq]
  · intro j b hb hbn
    have hpos := held_pos hb
    rw [hbn,hheld] at hpos
    exact Nat.lt_irrefl 0 hpos

theorem inFlight_iff_held (h : s.Accounted) :
    s.queue.inFlight n = true ↔ ∃ (w : Nat) (item : WorkItem),
      s.workers[w]? = some (.holding item) ∧ item.envName = n := by
  have hn := h.held n
  constructor
  · intro hflight
    rw [if_pos hflight] at hn
    obtain ⟨w,d,hw,hd⟩ := exists_getElem?_of_countP_pos (p := Dequeuer.holds n) (l := s.workers)
      (by change 0 < s.held n; omega)
    cases d with
    | idle => simp at hd
    | received m => simp at hd
    | holding item => exact ⟨w,item,hw,by simpa [eq_comm] using hd⟩
  · rintro ⟨w,item,hw,rfl⟩
    have hpos := held_pos hw
    by_contra hflight
    rw [if_neg hflight] at hn
    omega

/-- Mutual exclusion of the holders, one token for each queued item counted in the channel, in
the senders or in the hands of a dequeuer, and follow-ups only behind an in-flight mark. -/
theorem dispatch_invariant (h : system.Reach s) (n : EnvironmentName) :
    (∀ (i j : Nat) (a b : WorkItem), s.workers[i]? = some (.holding a) →
      s.workers[j]? = some (.holding b) → a.envName = n → b.envName = n → i = j) ∧
    (∀ w : Nat, s.workers[w]? = some (.received n) → ∃ item q,
      s.step (.markInFlight w) = some ⟨q,s.workers.set w (.holding item)⟩ ∧ item.envName = n ∧
      ∀ (j : Nat) b, s.workers[j]? = some (.holding b) → b.envName ≠ n) ∧
    s.queue.tokens n + s.received n = (if (s.queue.items n).isSome then 1 else 0) ∧
    ((s.queue.followUps n).isSome → s.queue.inFlight n = true ∧
      ∃ (w : Nat) (item : WorkItem), s.workers[w]? = some (.holding item) ∧ item.envName = n) ∧
    ¬((s.queue.items n).isSome ∧ s.queue.inFlight n = true) := by
  have ha := accounted_of_reach h
  refine ⟨?_,?_,ha.tokens n,?_,?_⟩
  · intro i j a b hi hj han hbn
    exact holder_unique ha hi hj (han.trans hbn.symm)
  · intro w hw
    exact markInFlight_hands ha hw
  · intro hf
    have hflight := ha.followUps n hf
    exact ⟨hflight,(inFlight_iff_held ha).mp hflight⟩
  · rintro ⟨hitem,hflight⟩
    rw [ha.items n hitem] at hflight
    cases hflight

/-- One worker takes the token of an item and has not yet marked it. -/
def receivedRun : List Label :=
  [.startWorker,.enqueueNow ⟨demoName,0,.user⟩,.send demoName,.receive 0]

theorem dispatch_invariant_receivedRun : ∃ s, system.run ⟨newQueue,[]⟩ receivedRun = some s ∧
    s.queue.tokens demoName + s.received demoName =
      (if (s.queue.items demoName).isSome then 1 else 0) := by
  refine ⟨_,rfl,?_⟩
  exact (dispatch_invariant (Lts.reach_of_run receivedRun (.init rfl) rfl) demoName).2.2.1

/-- Between the receive of `Dequeue` and its `markInFlight` the queued item has no token left in
the channel or in a sender. -/
theorem queued_item_without_token : ¬∀ s, system.Reach s → ∀ n,
    s.queue.tokens n = if (s.queue.items n).isSome then 1 else 0 := by
  intro h
  obtain ⟨s,hrun,htokens,hitem⟩ : ∃ s, system.run ⟨newQueue,[]⟩ receivedRun = some s ∧
      s.queue.tokens demoName = 0 ∧ (s.queue.items demoName).isSome = true := ⟨_,rfl,rfl,rfl⟩
  have hs := h s (Lts.reach_of_run receivedRun (.init rfl) hrun) demoName
  rw [htokens,if_pos hitem] at hs
  cases hs

end Dispatch

end Dominion.Deploy.Domain
