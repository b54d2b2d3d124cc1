import Mathlib.Data.Nat.Basic
import Dominion.Framework.LastMax
import Dominion.Deploy.Domain.Dispatch

/-! # Conflicting requests of one environment

Between two dequeues of an environment its requests meet in one cell, whether they arrive queued or
behind the in-flight mark: the next dequeue returns the last of the highest priority. -/
namespace Dominion.Deploy.Domain

open Dominion.Framework

namespace WorkItem

/-- Users come before retries and retries before polls. -/
def priority (item : WorkItem) : Nat :=
  match item.source with
  | .poll => 0
  | .retry => 1
  | .user => 2

theorem canOverride_iff (existing incoming : WorkItem) :
    canOverride existing incoming = true ↔ existing.priority ≤ incoming.priority := by
  unfold canOverride priority
  cases incoming.source <;> cases existing.source <;> simp

theorem priority_le_two (item : WorkItem) : item.priority ≤ 2 := by
  unfold priority
  cases item.source <;> simp

theorem priority_eq_two (item : WorkItem) : item.priority = 2 ↔ item.source = .user := by
  unfold priority
  cases item.source <;> simp

end WorkItem

namespace Queue

variable {q q' : Queue} {received held : EnvironmentName → Nat} {n : EnvironmentName}
  {item : WorkItem}

/-- The item that waits for the next dequeue of a name, queued or parked. -/
def waiting (q : Queue) (n : EnvironmentName) : Option WorkItem :=
  (q.items n).or (q.followUps n)

theorem keepMax_eq (existing item : WorkItem) :
    keepMax WorkItem.priority (some existing) item =
      if canOverride existing item then some item else some existing := by
  simp only [keepMax,WorkItem.canOverride_iff]

theorem waiting_enqueueNow (h : q.Accounts received held) (item : WorkItem) :
    (q.enqueueNow item).waiting = Function.update q.waiting item.envName
      (keepMax WorkItem.priority (q.waiting item.envName) item) := by
  funext m
  unfold enqueueNow
  by_cases hm : m = item.envName
  · subst m
    rw [Function.update_self]
    cases hi : q.items item.envName with
    | some queuedItem =>
      have hwaiting : q.waiting item.envName = some queuedItem := by rw [waiting,hi]; rfl
      rw [hwaiting,keepMax_eq]
      dsimp only
      split
      · simp [waiting]
      · exact hwaiting
    | none =>
      have hwaiting : q.waiting item.envName = q.followUps item.envName := by rw [waiting,hi]; rfl
      rw [hwaiting]
      dsimp only
      by_cases hflight : q.inFlight item.envName = true
      · rw [if_pos hflight]
        cases hf : q.followUps item.envName with
        | none => simp [waiting,hi,keepMax]
        | some followUpItem =>
          rw [keepMax_eq]
          dsimp only
          split
          · simp [waiting,hi]
          · rw [hwaiting,hf]
      · have hnone : q.followUps item.envName = none := by
          by_contra hsome
          exact hflight (h.followUps _ (Option.isSome_iff_ne_none.mpr hsome))
        rw [if_neg hflight,hnone]
        simp [waiting,put,keepMax]
  · rw [Function.update_of_ne hm]
    cases q.items item.envName with
    | some queuedItem =>
      dsimp only
      split
      · simp [waiting,Function.update_of_ne hm]
      · rfl
    | none =>
      dsimp only
      split
      · cases q.followUps item.envName with
        | none => simp [waiting,Function.update_of_ne hm]
        | some followUpItem =>
          dsimp only
          split
          · simp [waiting,Function.update_of_ne hm]
          · rfl
      · simp [waiting,put,Function.update_of_ne hm]

theorem waiting_send (h : q.send n = some q') : q'.waiting = q.waiting := by
  obtain ⟨hitems,hfollow,-⟩ := send_frame h
  funext m
  rw [waiting,waiting,hitems,hfollow]

theorem waiting_receive (h : q.receive = some (n,q')) : q'.waiting = q.waiting := by
  unfold receive at h
  split at h
  · cases h
  · cases h
    rfl

/-- The dequeued item is the one that waited, and nothing of its name waits after it. -/
theorem waiting_markInFlight (h : q.Accounts received held)
    (hm : q.markInFlight n = some (item,q')) :
    q.waiting n = some item ∧ q'.waiting = Function.update q.waiting n none := by
  unfold markInFlight at hm
  split at hm
  · cases hm
  · rename_i item' hitem
    cases hm
    have hfree : q.inFlight n = false := h.items n (by rw [hitem]; rfl)
    have hnone : q.followUps n = none := by
      by_contra hsome
      rw [h.followUps n (Option.isSome_iff_ne_none.mpr hsome)] at hfree
      cases hfree
    constructor
    · rw [waiting,hitem]
      rfl
    · funext m
      by_cases he : m = n
      · subst m
        simp [waiting,hnone]
      · simp [waiting,Function.update_of_ne he]

/-- A promotion keeps what waits. -/
theorem waiting_complete (h : q.Accounts received held) (hflight : q.inFlight n = true) :
    (q.complete n).waiting = q.waiting := by
  have hitems : q.items n = none := by
    by_contra hsome
    rw [h.items n (Option.isSome_iff_ne_none.mpr hsome)] at hflight
    cases hflight
  unfold complete
  cases hf : q.followUps n with
  | none => simp only [hf]; rfl
  | some followUpItem =>
    simp only [hf,hitems,Option.isSome_none,Function.update_self,Bool.or_self,Bool.false_eq_true,
      if_false]
    funext m
    by_cases he : m = n
    · subst m
      simp [waiting,put,hf,hitems]
    · simp [waiting,put,Function.update_of_ne he]

end Queue

namespace Dispatch

/-- The items enqueued for each name since its last dequeue. -/
abbrev Requests := EnvironmentName → List WorkItem

def observe (_ : Dispatch) (l : Label) (s' : Dispatch) (requests : Requests) : Requests :=
  match l with
  | .enqueueNow item =>
    Function.update requests item.envName (requests item.envName ++ [item])
  | .markInFlight worker =>
    match s'.workers[worker]? with
    | some (.holding item) => Function.update requests item.envName []
    | _ => requests
  | _ => requests

/-- The dispatch beside the requests since the last dequeues. -/
def observed : Lts (Dispatch × Requests) Label :=
  system.journaled observe fun _ => []

/-- What waits is what one cell keeps of the requests. -/
def Resolved (x : Dispatch × Requests) : Prop :=
  ∀ n, x.1.queue.waiting n = (x.2 n).foldl (keepMax WorkItem.priority) none

variable {x : Dispatch × Requests} {s' : Dispatch} {n : EnvironmentName} {w : Nat}

theorem resolved_step (ha : x.1.Accounted) (h : Resolved x) (l : Label)
    (hs : x.1.step l = some s') : Resolved (s',observe x.1 l s' x.2) := by
  intro n
  cases l with
  | startWorker =>
    cases hs
    exact h n
  | enqueueNow item =>
    cases hs
    show (x.1.queue.enqueueNow item).waiting n = _
    rw [Queue.waiting_enqueueNow ha]
    by_cases hn : n = item.envName
    · subst n
      simp only [observe,Function.update_self,List.foldl_append,List.foldl_cons,List.foldl_nil,
        h item.envName]
    · simpa only [observe,Function.update_of_ne hn] using h n
  | send envName =>
    obtain ⟨q,hq,rfl⟩ := Option.map_eq_some_iff.mp hs
    show q.waiting n = _
    rw [Queue.waiting_send hq]
    exact h n
  | receive worker =>
    simp only [step] at hs
    split at hs
    · obtain ⟨⟨envName,q⟩,hq,rfl⟩ := Option.map_eq_some_iff.mp hs
      show q.waiting n = _
      rw [Queue.waiting_receive hq]
      exact h n
    · cases hs
  | markInFlight worker =>
    simp only [step] at hs
    split at hs
    · rename_i envName hw
      obtain ⟨item,q,hq,hname,-⟩ := Queue.markInFlight_of_received ha (received_pos hw)
      simp only [hq] at hs
      cases hs
      have hlength : worker < x.1.workers.length := (List.getElem?_eq_some_iff.mp hw).1
      have hwaiting := (Queue.waiting_markInFlight ha hq).2
      show q.waiting n = _
      rw [hwaiting]
      simp only [observe,List.getElem?_set_self hlength,hname]
      by_cases hn : n = envName
      · subst n
        simp only [Function.update_self,List.foldl_nil]
      · simpa only [Function.update_of_ne hn] using h n
    · cases hs
  | complete worker =>
    simp only [step] at hs
    split at hs
    · rename_i item hw
      cases hs
      have hflight := (inFlight_iff_held ha).mpr ⟨worker,item,hw,rfl⟩
      show (x.1.queue.complete item.envName).waiting n = _
      rw [Queue.waiting_complete ha hflight]
      exact h n
    · cases hs

theorem resolved_inductive :
    Lts.Inductive observed (fun _ _ => True) fun x => x.1.Accounted ∧ Resolved x where
  init x hx := by
    obtain ⟨hinit,hrequests⟩ := hx
    refine ⟨accounted_inductive.init _ hinit,fun n => ?_⟩
    have hqueue : x.1 = ⟨newQueue,[]⟩ := hinit
    rw [hqueue,hrequests]
    rfl
  step x l x' h _ hs := by
    obtain ⟨hstep,hrequests⟩ := Lts.journaled_step.mp hs
    refine ⟨accounted_step h.1 l hstep,?_⟩
    have hresolved := resolved_step h.1 h.2 l hstep
    rw [← hrequests] at hresolved
    exact hresolved

/-- The next dequeue of a name returns the last of the highest priority among the items enqueued for
it since the last one: a user's item if there is one, with the retry count that users start from. -/
theorem dequeue_returns_last_highest (hx : observed.Reach x)
    (hw : x.1.workers[w]? = some (.received n)) :
    ∃ item q, x.1.step (.markInFlight w) = some ⟨q,x.1.workers.set w (.holding item)⟩ ∧
      item.envName = n ∧ LastMax WorkItem.priority (x.2 n) item ∧
      ((∃ i ∈ x.2 n, i.source = .user) → item.source = .user ∧
        ((∀ i ∈ x.2 n, i.source = .user → i = ⟨n,0,.user⟩) → item.retryCount = 0)) := by
  obtain ⟨ha,hresolved⟩ := resolved_inductive.of_reachUnder hx
  obtain ⟨item,q,hq,hname,-⟩ := Queue.markInFlight_of_received ha (received_pos hw)
  have hlast : LastMax WorkItem.priority (x.2 n) item :=
    lastMax_of_foldl ((hresolved n).symm.trans (Queue.waiting_markInFlight ha hq).1)
  refine ⟨item,q,by simp only [step,hw,hq],hname,hlast,?_⟩
  rintro ⟨i,hi,huser⟩
  have hsource : item.source = .user := by
    have hle := hlast.rank_le i hi
    rw [(WorkItem.priority_eq_two i).mpr huser] at hle
    exact (WorkItem.priority_eq_two item).mp (Nat.le_antisymm item.priority_le_two hle)
  refine ⟨hsource,fun hzero => ?_⟩
  rw [hzero item hlast.mem hsource]

/-- A poll, a user's request and a retry arrive behind the mark, and a poll after the promotion. -/
def conflictRun : List Label :=
  [.startWorker,.enqueueNow ⟨demoName,0,.user⟩,.send demoName,.receive 0,.markInFlight 0,
    .enqueueNow ⟨demoName,0,.poll⟩,.enqueueNow ⟨demoName,0,.user⟩,.enqueueNow ⟨demoName,3,.retry⟩,
    .complete 0,.enqueueNow ⟨demoName,0,.poll⟩,.send demoName,.receive 0]

/-- The requests that `conflictRun` leaves to the next dequeue. -/
def conflictRequests : List WorkItem :=
  [⟨demoName,0,.poll⟩,⟨demoName,0,.user⟩,⟨demoName,3,.retry⟩,⟨demoName,0,.poll⟩]

theorem dequeue_returns_last_highest_conflictRun :
    ∃ x, observed.Reach x ∧ x.2 demoName = conflictRequests ∧ ∃ item q,
      x.1.step (.markInFlight 0) = some ⟨q,x.1.workers.set 0 (.holding item)⟩ ∧
        item = ⟨demoName,0,.user⟩ := by
  have hrun : ((observed.run (⟨newQueue,[]⟩,fun _ => []) conflictRun).any fun x =>
      decide (x.2 demoName = conflictRequests ∧ x.1.workers[0]? = some (.received demoName))) =
        true := by decide
  have hinit : observed.Reach (⟨newQueue,[]⟩,fun _ => []) := .init ⟨rfl,rfl⟩
  obtain ⟨x,hx,hp⟩ := Lts.reach_of_run_any conflictRun hinit hrun
  obtain ⟨hrequests,hworker⟩ := of_decide_eq_true hp
  obtain ⟨item,q,hstep,hname,-,huser⟩ := dequeue_returns_last_highest hx hworker
  rw [hrequests] at huser
  obtain ⟨hsource,hzero⟩ := huser ⟨⟨demoName,0,.user⟩,by simp [conflictRequests],rfl⟩
  have hcount := hzero (by simp [conflictRequests])
  refine ⟨x,hx,hrequests,item,q,hstep,?_⟩
  cases item
  cases hname
  cases hsource
  cases hcount
  rfl

end Dispatch

end Dominion.Deploy.Domain
