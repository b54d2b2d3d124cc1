import Dominion.Deploy.System.ReconcileOutline

/-! # The service meets its protocol

The outlines of the commands and of the worker's loop make the invariant hold in every run, every
call meet its contract, and every clean iteration leave its environment covered. -/
namespace Dominion.Deploy

open Dominion.Framework Dominion.Deploy.Domain World

/-- The reconciler answered the iteration with results or counted retries only. -/
def Worker.Iteration.Clean (it : Worker.Iteration) : Prop :=
  (∀ err, it.processed = .error err → err.is .errRetryCounted = true) ∧
    ∀ err, it.exhausted ≠ some (.error err)

/-- What an iteration leaves behind. -/
def Left (n : EnvironmentName) (w : World) : Prop :=
  w.Covered n ∧ w.Idle n

variable {n : EnvironmentName} {item : WorkItem} {w : World}

theorem left_stable : protocol.Stable .worker (Left n) :=
  covered_stable.and idle_stable

private theorem coming_complete (h : w.Coming n) (m : EnvironmentName) :
    Coming { w with queue := w.queue.complete m } n :=
  h.imp_right fun h => h.imp_left fun hp => Queue.pending_complete hp m

private theorem resultPost_complete {r : Except Err ProcessResult} (h : ResultPost n r w)
    (m : EnvironmentName) : ResultPost n r { w with queue := w.queue.complete m } := by
  cases r with
  | ok result =>
    refine ⟨fun ht => ?_,h.2⟩
    rcases h.1 ht with hs | hc | hl
    · exact Or.inl hs
    · exact Or.inr (Or.inl (coming_complete hc m))
    · exact Or.inr (Or.inr hl)
  | error err =>
    intro hcounted
    obtain ⟨d,hd,hstate⟩ := h hcounted
    exact ⟨d,hd,hstate.imp_left fun hs => ⟨hs.1,hs.2.imp_right fun hc => coming_complete hc m⟩⟩

private theorem sat_complete (r : Except Err ProcessResult) :
    protocol.Sat .worker (complete n) (ResultPost n r) fun _ w => ResultPost n r w ∧ w.Idle n := by
  refine .perform (resultPost_stable r) (fun _ => (resultPost_stable r).and idle_stable)
    (fun _ _ _ => trivial) ?_
  intro c ans w w' _ h hexec
  cases c with
  | done =>
    cases hexec
    exact ⟨resultPost_complete h n,Queue.complete_idle w.queue n⟩
  | _ => cases hexec

private theorem sat_enqueueAfter (item : WorkItem) (hname : item.envName = n) (delay : Nat) :
    protocol.Sat .worker (enqueueAfter item delay) (fun w => w.Idle n) fun _ => Left n := by
  refine .perform idle_stable (fun _ => left_stable) (fun _ _ _ => trivial) ?_
  intro c ans w w' _ h hexec
  cases c with
  | done =>
    by_cases hd : delay = 0
    · simp only [machine,exec,hd,if_true] at hexec
      cases hexec
      refine ⟨Or.inr (Or.inl (Or.inr (Or.inl ?_))),?_,Queue.enqueueNow_followUps h.1 h.2 item⟩
      · exact hname ▸ Queue.enqueueNow_pending w.queue item
      · simp only [Queue.enqueueNow_inFlight]
        exact h.1
    · simp only [machine,exec,hd,if_false] at hexec
      cases hexec
      exact ⟨Or.inr (Or.inl (Or.inr (Or.inr ⟨item,List.mem_cons_self,hname⟩))),h⟩
  | _ => cases hexec

private theorem sat_maybeRequeue (result : ProcessResult) :
    protocol.Sat .worker (Worker.maybeRequeue item (some result))
      (fun w => ResultPost item.envName (.ok result) w ∧ w.Idle item.envName)
      fun _ => Left item.envName := by
  have hstable := (resultPost_stable (n := item.envName) (.ok result)).and
    (idle_stable (n := item.envName))
  unfold Worker.maybeRequeue
  dsimp only
  split
  · rename_i hterminal
    exact .pure hstable fun w _ h => ⟨h.1.1 hterminal,h.2⟩
  · rename_i hterminal
    split
    · exact (sat_enqueueAfter _ rfl _).strengthen hstable fun _ _ h => h.2
    · rename_i hgo
      refine .pure hstable fun w _ h => ?_
      exact absurd (h.1.2 (by simpa using hterminal)) hgo

/-- The calls of `MarkRetryExhausted`: it never touches the queue. -/
private def StoreCall (op : Call) : Prop :=
  (∃ n, op = .findOne n) ∨ ∃ f u, op = .updateOne f u

private theorem uses_get : (MongoRepository.get n).Uses StoreCall := by
  refine .bind (.perform (Or.inl ⟨n,rfl⟩)) ?_
  intro ans
  cases ans with
  | error err => exact trivial
  | ok found => cases found <;> exact trivial

private theorem uses_transition (generation : Nat) (fromState : EnvironmentState)
    (st : EnvironmentStatus) (result : ProcessResult) :
    (ReconcileService.transition n generation fromState st result).Uses StoreCall := by
  refine .bind (.bind (.perform (Or.inr ⟨_,_,rfl⟩)) ?_) ?_
  · intro ans
    cases ans with
    | error err => exact trivial
    | ok matchedCount =>
      dsimp only
      split
      · refine .bind (.perform (Or.inl ⟨n,rfl⟩)) ?_
        intro found
        cases found with
        | error err => exact trivial
        | ok doc =>
          cases doc with
          | none => exact trivial
          | some doc =>
            dsimp only
            split <;> exact trivial
      · exact trivial
  · intro written
    cases written with
    | error err =>
      dsimp only
      split <;> exact trivial
    | ok _ => exact trivial

private theorem uses_markRetryExhausted :
    (ReconcileService.markRetryExhausted n).Uses StoreCall := by
  refine .bind uses_get ?_
  intro found
  cases found with
  | error err =>
    dsimp only
    split <;> exact trivial
  | ok env => exact uses_transition _ _ _ _

private theorem idle_storeCall {op : Call} {c : Choice} {a : op.Answer} {w w' : World}
    (hop : StoreCall op) (h : w.Idle n) (hexec : machine.exec .worker op c w = some (a,w')) :
    w'.Idle n := by
  have heffect : Effect w .worker op w' := exec_effect hexec
  have hqueue : w'.queue = w.queue := by
    rcases hop with ⟨m,rfl⟩ | ⟨f,u,rfl⟩
    · cases heffect <;> rfl
    · cases heffect with
      | idle => rfl
      | write hd => exact (write_frame _ _ _).2.2.2.2.2.1
  unfold Idle
  rw [hqueue]
  exact h

private theorem sat_exhaust :
    protocol.Sat .worker (Worker.exhaust item)
      (fun w => w.Exhaustible item.envName ∧ w.Idle item.envName)
      fun r w => (∀ err, r ≠ .error err) → Left item.envName w := by
  refine Protocol.Sat.bind (Protocol.Sat.frame sat_markRetryExhausted uses_markRetryExhausted
    idle_stable fun op c a w w' hop _ h hexec => idle_storeCall hop h hexec) ?_
  intro exhausted
  cases exhausted with
  | ok result =>
    refine Protocol.Sat.bind (sat_maybeRequeue result) ?_
    intro _
    exact .pure left_stable fun w _ h _ => h
  | error err =>
    have hstable := (resultPost_stable (n := item.envName) (.error err)).and
      (idle_stable (n := item.envName))
    exact .pure hstable fun w _ _ hne => absurd rfl (hne err)

/-- What an iteration of the loop leaves behind. -/
def IterationPost (it : Worker.Iteration) (w : World) : Prop :=
  it.Clean → Left it.item.envName w

theorem sat_process (maxRetries : Nat) :
    protocol.Sat .worker (Worker.process maxRetries item) (fun _ => True) IterationPost := by
  refine Protocol.Sat.bind sat_processOne ?_
  intro processed
  refine Protocol.Sat.bind (sat_complete processed) ?_
  intro _
  have hstable := (resultPost_stable (n := item.envName) processed).and
    (idle_stable (n := item.envName))
  cases processed with
  | ok result =>
    refine Protocol.Sat.bind (sat_maybeRequeue result) ?_
    intro _
    exact .pure left_stable fun w _ h _ => h
  | error err =>
    dsimp only
    split
    · rename_i hcounted
      split
      · refine Protocol.Sat.bind (Protocol.Sat.strengthen sat_exhaust hstable
          fun w _ h => ⟨h.1 hcounted,h.2⟩) ?_
        intro exhausted
        refine .pure (left_stable.imp _) fun w _ h hclean => h fun e he => ?_
        exact hclean.2 e (by rw [he])
      · refine Protocol.Sat.bind (Protocol.Sat.strengthen (sat_enqueueAfter (n := item.envName)
          ⟨item.envName,item.retryCount + 1,.retry⟩ rfl _) hstable fun w _ h => h.2) ?_
        intro _
        exact .pure left_stable fun w _ h _ => h
    · rename_i hcounted
      refine .pure hstable fun w _ _ hclean => ?_
      exact absurd (hclean.1 err rfl) hcounted

/-- What the threads leave behind when they return. -/
def post (_ : Tid) (reply : Reply) (w : World) : Prop :=
  match reply with
  | .iteration (some it) => IterationPost it w
  | _ => True

theorem sat_iterate (maxRetries : Nat) :
    protocol.Sat .worker (Worker.iterate maxRetries) (fun _ => True)
      fun it w => post .worker (.iteration it) w := by
  refine Protocol.Sat.bind (sat_call fun _ => trivial) ?_
  intro envName
  refine Protocol.Sat.bind (sat_call fun _ => trivial) ?_
  intro found
  cases found with
  | none => exact .pure trivial_stable fun _ _ _ => trivial
  | some item =>
    refine Protocol.Sat.bind (sat_process maxRetries) ?_
    intro it
    exact .pure (left_stable.imp _) fun w _ h => h

/-- An outline extended by the wrapping of its result in a reply. -/
private theorem sat_reply {α : Type} {t : Tid} {c : Prog α} (wrap : α → Reply)
    (h : protocol.Sat t c (fun _ => True) fun a w => post t (wrap a) w)
    (hstable : ∀ a, protocol.Stable t (post t (wrap a))) :
    protocol.Sat t (do return wrap (← c) : Prog Reply) (fun _ => True) (post t) :=
  .bind h fun a => .pure (hstable a) fun _ _ h => h

theorem sound (maxRetries : Nat) :
    protocol.Sound (program maxRetries) (fun w => w = World.initial) post where
  init w hw := hw ▸ inv_initial
  call t op c a w w' hi hc hexec := inv_effect hi hc (exec_effect hexec)
  tick e w w' hi he := inv_tick hi he
  program t r c hc := by
    cases t with
    | api i =>
      cases r with
      | create name envType description desiredState =>
        cases hc
        exact sat_reply .environment (sat_create envType description desiredState)
          fun _ => trivial_stable
      | update name desiredState =>
        cases hc
        exact sat_reply .environment (sat_update desiredState) fun _ => trivial_stable
      | delete name =>
        cases hc
        exact sat_reply .done sat_delete fun _ => trivial_stable
      | iterate => cases hc
    | worker =>
      cases r with
      | iterate =>
        cases hc
        refine sat_reply .iteration (sat_iterate maxRetries) ?_
        intro it
        cases it with
        | none => exact trivial_stable
        | some it => exact left_stable.imp _
      | _ => cases hc

end Dominion.Deploy
