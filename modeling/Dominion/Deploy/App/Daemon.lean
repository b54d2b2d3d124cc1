import Dominion.Deploy.Domain.Dispatch

/-! # The worker daemon and crash recovery

The daemon keeps one deploy worker.  When processing panics the worker is gone while the queue
object lives on; `Build` then runs `Recover`, which enqueues every environment that
`ListNeedingReconcile` returned, and starts a fresh worker on the same queue.  Producers and
timers enqueue at any time. -/
namespace Dominion.Deploy.App

open Dominion.Framework Dominion.Deploy.Domain

/-- The supervised worker slot. -/
inductive Phase where
  /-- No worker: before the first build, and between a crash or a failed build and the next. -/
  | down
  /-- `Recover` has listed the environments and has yet to enqueue `todo`. -/
  | recovering (listed todo : List EnvironmentName)
  | recovered (listed : List EnvironmentName)
  | running (worker : Dequeuer)

/-- The worker has no token in hand and no mark. -/
def Phase.quiet : Phase → Bool
  | .running .idle => true
  | .running _ => false
  | _ => true

structure Daemon where
  queue : Queue
  phase : Phase
  /-- History: the environments in flight when a worker crashed. -/
  crashedOn : List EnvironmentName

namespace Daemon

inductive Label where
  | enqueueNow (item : WorkItem)
  | send (envName : EnvironmentName)
  | listNeedingReconcile (envs : List EnvironmentName)
  | recoverEnqueue
  | recoverReturn
  | buildFail
  | start
  | receive
  | markInFlight
  | complete
  | crash

def step (s : Daemon) : Label → Option Daemon
  | .enqueueNow item => some { s with queue := s.queue.enqueueNow item }
  | .send envName => (s.queue.send envName).map fun q => { s with queue := q }
  | .listNeedingReconcile envs =>
    match s.phase with
    | .down => some { s with phase := .recovering envs envs }
    | _ => none
  | .recoverEnqueue =>
    match s.phase with
    | .recovering listed (envName :: todo) =>
      some { s with queue := s.queue.enqueue envName, phase := .recovering listed todo }
    | _ => none
  | .recoverReturn =>
    match s.phase with
    | .recovering listed [] => some { s with phase := .recovered listed }
    | _ => none
  | .buildFail =>
    match s.phase with
    | .recovering _ _ => some { s with phase := .down }
    | _ => none
  | .start =>
    match s.phase with
    | .recovered _ => some { s with phase := .running .idle }
    | _ => none
  | .receive =>
    match s.phase with
    | .running .idle =>
      s.queue.receive.map fun r => { s with queue := r.2, phase := .running (.received r.1) }
    | _ => none
  | .markInFlight =>
    match s.phase with
    | .running (.received envName) =>
      match s.queue.markInFlight envName with
      | some (item,q) => some { s with queue := q, phase := .running (.holding item) }
      | none => some { s with phase := .running .idle }
    | _ => none
  | .complete =>
    match s.phase with
    | .running (.holding item) =>
      some { s with queue := s.queue.complete item.envName, phase := .running .idle }
    | _ => none
  | .crash =>
    match s.phase with
    | .running .idle => some { s with phase := .down }
    | .running (.holding item) =>
      some { s with phase := .down, crashedOn := item.envName :: s.crashedOn }
    | _ => none

def initial : Daemon := ⟨newQueue,.down,[]⟩

def system : Lts Daemon Label where
  init s := s = initial
  step := step

/-- The live worker, if any. -/
def worker (s : Daemon) : Option Dequeuer :=
  match s.phase with
  | .running worker => some worker
  | _ => none

def received (s : Daemon) (n : EnvironmentName) : Nat :=
  if s.worker.any (Dequeuer.hasReceived n) then 1 else 0

/-- The in-flight marks of `n`: the live worker's and those that crashed workers left. -/
def held (s : Daemon) (n : EnvironmentName) : Nat :=
  (if s.worker.any (Dequeuer.holds n) then 1 else 0) + s.crashedOn.count n

/-- Until `Recover` returns, what it has enqueued stays pending: no worker is live. -/
def RecoverKeeps (s : Daemon) : Prop :=
  match s.phase with
  | .recovering listed todo => ∀ n ∈ listed, n ∈ todo ∨ s.queue.Pending n
  | .recovered listed => ∀ n ∈ listed, s.queue.Pending n
  | _ => True

structure Inv (s : Daemon) : Prop where
  accounts : s.queue.Accounts s.received s.held
  keeps : s.RecoverKeeps

variable {s s' : Daemon} {q : Queue} {n : EnvironmentName} {item : WorkItem}

/-- A step that changes neither the worker slot nor `crashedOn`, and loses no pending name. -/
private theorem inv_queue (h : s.Inv) (ha : q.Accounts s.received s.held)
    (hp : ∀ n, s.queue.Pending n → q.Pending n) : Inv { s with queue := q } := by
  refine ⟨ha,?_⟩
  have hk := h.keeps
  unfold RecoverKeeps at hk ⊢
  cases hphase : s.phase with
  | down => trivial
  | running worker => trivial
  | recovering listed todo =>
    simp only [hphase] at hk ⊢
    intro n hn
    exact (hk n hn).imp_right (hp n)
  | recovered listed =>
    simp only [hphase] at hk ⊢
    intro n hn
    exact hp n (hk n hn)

private theorem received_of_quiet (h : s.phase.quiet = true) : s.received = fun _ => 0 := by
  funext m
  unfold received worker
  split <;> simp_all [Phase.quiet]
  split at h <;> simp_all

private theorem held_of_quiet (h : s.phase.quiet = true) :
    s.held = fun m => s.crashedOn.count m := by
  funext m
  unfold held worker
  split <;> simp_all [Phase.quiet]
  split at h <;> simp_all

private theorem inv_phase {phase : Phase} (h : s.Inv) (hs : s.phase.quiet = true)
    (hp : phase.quiet = true) (hk : RecoverKeeps { s with phase := phase }) :
    Inv { s with phase := phase } := by
  refine ⟨?_,hk⟩
  have ha := h.accounts
  rw [received_of_quiet hs,held_of_quiet hs] at ha
  rw [received_of_quiet (s := { s with phase := phase }) hp,
    held_of_quiet (s := { s with phase := phase }) hp]
  exact ha

private theorem inv_send (h : s.Inv) (hs : s.queue.send n = some q) :
    Inv { s with queue := q } :=
  inv_queue h (Queue.accounts_send h.accounts hs) fun m hm => (Queue.pending_send hs m).mpr hm

private theorem inv_recoverEnqueue {listed todo : List EnvironmentName} (h : s.Inv)
    (hphase : s.phase = .recovering listed (n :: todo)) :
    Inv { s with queue := s.queue.enqueue n, phase := .recovering listed todo } := by
  have hk := h.keeps
  simp only [RecoverKeeps,hphase] at hk
  refine ⟨?_,?_⟩
  · have ha := Queue.accounts_enqueueNow h.accounts ⟨n,0,.user⟩
    have hq : s.phase.quiet = true := by rw [hphase]; rfl
    rw [received_of_quiet hq,held_of_quiet hq] at ha
    rw [received_of_quiet (by rfl),held_of_quiet (by rfl)]
    exact ha
  · simp only [RecoverKeeps]
    intro m hm
    rcases hk m hm with hm | hm
    · rcases List.mem_cons.mp hm with rfl | hm
      · exact Or.inr (Queue.enqueueNow_pending s.queue ⟨m,0,.user⟩)
      · exact Or.inl hm
    · exact Or.inr (Queue.pending_enqueueNow hm _)

private theorem inv_receive (h : s.Inv) (hphase : s.phase = .running .idle)
    (hq : s.queue.receive = some (n,q)) :
    Inv { s with queue := q, phase := .running (.received n) } := by
  refine ⟨?_,trivial⟩
  have hh : held { s with queue := q, phase := .running (.received n) } = s.held := by
    funext m
    simp [held,worker,hphase]
  rw [hh]
  refine Queue.accounts_receive h.accounts hq ?_
  intro m
  simp [received,worker,hphase]

private theorem inv_markInFlight (h : s.Inv) (hphase : s.phase = .running (.received n))
    (hq : s.queue.markInFlight n = some (item,q)) (hname : item.envName = n) :
    Inv { s with queue := q, phase := .running (.holding item) } := by
  refine ⟨?_,trivial⟩
  refine Queue.accounts_markInFlight h.accounts hq ?_ ?_
  · intro m
    simp [received,worker,hphase]
  · intro m
    simp only [held,worker,hphase,hname,Option.any_some,Dequeuer.holds_holding,
      Dequeuer.holds_received,decide_eq_true_eq,Bool.false_eq_true,if_false]
    omega

private theorem inv_complete (h : s.Inv) (hphase : s.phase = .running (.holding item)) :
    Inv { s with queue := s.queue.complete item.envName, phase := .running .idle } := by
  refine ⟨?_,trivial⟩
  have hr : received { s with queue := s.queue.complete item.envName, phase := .running .idle } =
      s.received := by
    funext m
    simp [received,worker,hphase]
  rw [hr]
  refine Queue.accounts_complete h.accounts ?_ ?_
  · have hmark : 0 < s.held item.envName := by
      simp only [held,worker,hphase,Option.any_some,Dequeuer.holds_holding,decide_true,if_true]
      omega
    exact hmark
  · intro m
    simp only [held,worker,hphase,Option.any_some,Dequeuer.holds_holding,Dequeuer.holds_idle,
      decide_eq_true_eq,Bool.false_eq_true,if_false]
    omega

/-- A crash moves the worker's mark to the history. -/
private theorem inv_crash (h : s.Inv) (hphase : s.phase = .running (.holding item)) :
    Inv { s with phase := .down, crashedOn := item.envName :: s.crashedOn } := by
  refine ⟨?_,trivial⟩
  have hr : received { s with phase := .down, crashedOn := item.envName :: s.crashedOn } =
      s.received := by
    funext m
    simp [received,worker,hphase]
  have hh : held { s with phase := .down, crashedOn := item.envName :: s.crashedOn } =
      s.held := by
    funext m
    simp only [held,worker,hphase,Option.any_none,Option.any_some,Dequeuer.holds_holding,
      decide_eq_true_eq,Bool.false_eq_true,if_false,List.count_cons]
    by_cases hm : m = item.envName
    · subst m
      simp only [if_true,beq_self_eq_true]
      omega
    · have hb : (item.envName == m) = false := by simpa [BEq.beq] using Ne.symm hm
      simp only [hm,hb,Bool.false_eq_true,if_false,Nat.add_zero]
  rw [hr,hh]
  exact h.accounts

theorem inv_step (h : s.Inv) (l : Label) (hs : s.step l = some s') : s'.Inv := by
  cases l with
  | enqueueNow item =>
    cases hs
    exact inv_queue h (Queue.accounts_enqueueNow h.accounts item)
      fun n hn => Queue.pending_enqueueNow hn item
  | send envName =>
    obtain ⟨q,hq,rfl⟩ := Option.map_eq_some_iff.mp hs
    exact inv_send h hq
  | listNeedingReconcile envs =>
    simp only [step] at hs
    split at hs <;> cases hs
    rename_i hphase
    exact inv_phase h (by rw [hphase]; rfl) rfl fun n hn => Or.inl hn
  | recoverEnqueue =>
    simp only [step] at hs
    split at hs <;> cases hs
    rename_i hphase
    exact inv_recoverEnqueue h hphase
  | recoverReturn =>
    simp only [step] at hs
    split at hs <;> cases hs
    rename_i listed hphase
    have hk := h.keeps
    simp only [RecoverKeeps,hphase] at hk
    apply inv_phase h (by rw [hphase]; rfl) rfl
    intro n hn
    rcases hk n hn with hm | hp
    · cases hm
    · exact hp
  | buildFail =>
    simp only [step] at hs
    split at hs <;> cases hs
    rename_i hphase
    exact inv_phase h (by rw [hphase]; rfl) rfl trivial
  | start =>
    simp only [step] at hs
    split at hs <;> cases hs
    rename_i hphase
    exact inv_phase h (by rw [hphase]; rfl) rfl trivial
  | receive =>
    simp only [step] at hs
    split at hs
    · rename_i hphase
      obtain ⟨⟨n,q⟩,hq,rfl⟩ := Option.map_eq_some_iff.mp hs
      exact inv_receive h hphase hq
    · cases hs
  | markInFlight =>
    simp only [step] at hs
    split at hs
    · rename_i n hphase
      have hpos : 0 < s.received n := by simp [received,worker,hphase]
      obtain ⟨item,q,hq,hname,-⟩ := Queue.markInFlight_of_received h.accounts hpos
      simp only [hq] at hs
      cases hs
      exact inv_markInFlight h hphase hq hname
    · cases hs
  | complete =>
    simp only [step] at hs
    split at hs <;> cases hs
    rename_i item hphase
    exact inv_complete h hphase
  | crash =>
    simp only [step] at hs
    split at hs
    · rename_i hphase
      cases hs
      exact inv_phase h (by rw [hphase]; rfl) rfl trivial
    · rename_i item hphase
      cases hs
      exact inv_crash h hphase
    · cases hs

theorem inv_inductive : Lts.Inductive system (fun _ _ => True) Inv where
  init s hs := by
    cases hs
    exact ⟨Queue.accounts_newQueue,trivial⟩
  step s l s' h _ hs := inv_step h l hs

theorem inv_of_reach (h : system.Reach s) : s.Inv :=
  inv_inductive.of_reachUnder h

/-- The mark a crash leaves is never lifted: the environment is not queued again in any later
state. -/
theorem crashedOn_never_queued (h : system.Reach s) (hn : n ∈ s.crashedOn) :
    s.queue.items n = none ∧ s.queue.inFlight n = true := by
  have ha := (inv_of_reach h).accounts
  have hcount := List.count_pos_iff.mpr hn
  have hheld := ha.held n
  have hflight : s.queue.inFlight n = true := by
    by_contra hf
    rw [if_neg hf] at hheld
    unfold held at hheld
    omega
  refine ⟨?_,hflight⟩
  by_contra hi
  have hfree := ha.items n (Option.isSome_iff_ne_none.mpr hi)
  rw [hflight] at hfree
  cases hfree

/-- An entry in `items` with a token on its way, and not parked behind a mark that no live
worker holds. -/
def Dispatchable (s : Daemon) (n : EnvironmentName) : Prop :=
  (s.queue.items n).isSome ∧ 0 < s.queue.tokens n ∧
    ¬((s.queue.followUps n).isSome ∧ s.queue.inFlight n = true ∧
      s.worker.any (Dequeuer.holds n) = false)

/-- When `Recover` returns, all the environments it listed are dispatchable if and only if no
earlier worker crashed on one of them. -/
theorem recovered_dispatchable_iff {listed : List EnvironmentName} (h : system.Reach s)
    (hphase : s.phase = .recovered listed) :
    (∀ n ∈ listed, s.Dispatchable n) ↔ ∀ n ∈ listed, n ∉ s.crashedOn := by
  have hinv := inv_of_reach h
  have hk := hinv.keeps
  simp only [RecoverKeeps,hphase] at hk
  constructor
  · intro hd n hn hcrash
    have hitem := (hd n hn).1
    rw [(crashedOn_never_queued h hcrash).1] at hitem
    cases hitem
  · intro hc n hn
    have hheld : s.held n = 0 := by
      simp [held,worker,hphase,List.count_eq_zero_of_not_mem (hc n hn)]
    have hreceived : s.received n = 0 := by
      simp [received,worker,hphase]
    have hfree : ¬s.queue.inFlight n = true := by
      intro hf
      have ha := hinv.accounts.held n
      rw [if_pos hf,hheld] at ha
      cases ha
    have hitem : (s.queue.items n).isSome := by
      rcases hk n hn with hi | hu
      · exact hi
      · exact absurd (hinv.accounts.followUps n hu) hfree
    have htokens := hinv.accounts.tokens n
    rw [if_pos hitem,hreceived] at htokens
    refine ⟨hitem,by omega,?_⟩
    rintro ⟨-,hf,-⟩
    exact hfree hf

/-- A worker panics while it processes an environment, and the daemon recovers with what the
repository lists then. -/
def crashRun (recovered : EnvironmentName) : List Label :=
  [.listNeedingReconcile [],.recoverReturn,.start,.enqueueNow ⟨demoName,0,.user⟩,.send demoName,
    .receive,.markInFlight,.crash,.listNeedingReconcile [recovered],.recoverEnqueue,.recoverReturn]

def otherName : EnvironmentName := ⟨"dev","other",by decide⟩

/-- A crash on one environment leaves the others dispatchable. -/
theorem recovered_dispatchable_demo : ∃ s, system.run initial (crashRun otherName) = some s ∧
    s.crashedOn = [demoName] ∧ ∀ n ∈ [otherName], s.Dispatchable n := by
  have hclean : ∀ n ∈ [otherName], n ∉ [demoName] := by decide
  exact ⟨_,rfl,rfl,(recovered_dispatchable_iff
    (Lts.reach_of_run (crashRun otherName) (.init rfl) rfl) rfl).mpr hclean⟩

theorem recovered_not_dispatchable : ¬∀ s, system.Reach s → ∀ listed,
    s.phase = .recovered listed → ∀ n ∈ listed, s.Dispatchable n := by
  intro h
  obtain ⟨s,hrun,hphase,hitem⟩ : ∃ s, system.run initial (crashRun demoName) = some s ∧
      s.phase = .recovered [demoName] ∧ s.queue.items demoName = none := ⟨_,rfl,rfl,rfl⟩
  have hs := h s (Lts.reach_of_run (crashRun demoName) (.init rfl) hrun) [demoName] hphase demoName
    (List.mem_singleton.mpr rfl)
  have hqueued := hs.1
  rw [hitem] at hqueued
  cases hqueued

end Daemon

end Dominion.Deploy.App
