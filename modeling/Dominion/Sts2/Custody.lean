import Dominion.Sts2.Driver
import Mathlib.Data.List.Nodup
import Mathlib.Data.List.Perm.Basic

/-! # Every message is taken once

A submitted message is in the log, in the set captured at a cancel, in the inbox or in the held
set, in this order of submission.  A cancel of a turn that has claimed a steered message, and one
whose inbox has a message that was not steered into the turn, break this; so does a message
submitted while older ones wait outside the inbox. -/
namespace Dominion.Sts2

open Dominion.Framework
open Dominion.Saolei (TurnFailure)

/-- Every submitted message is in exactly one place once the driver is quiescent, none is claimed
twice, and the log is in the order of submission. -/
structure TakenOnce (w : World) : Prop where
  placed : w.driver.activeTurn.isNone → ∀ message ∈ w.submitted,
    w.driver.agent.log.count message + w.driver.held.count message +
      w.driver.agent.inbox.count message = 1
  once : w.driver.agent.log.Nodup
  ordered : w.driver.agent.log.Sublist w.submitted

/-- No cancel finds an inbox other than the steered messages, or any message after the turn has
concluded; no message is submitted while a captured set waits for the cancelled turn to conclude,
or while held ones wait for the concluded turn to be cleared. -/
def Orderly (w : World) : Label → Prop
  | .cancel => w.driver.abortRequested = false →
    (w.driver.awaiting = true → w.driver.agent.inbox = w.driver.steered) ∧
      (w.driver.concluded = true → w.driver.agent.inbox = [])
  | .submit _ => (w.driver.awaiting = true → w.driver.captured = []) ∧
      (w.driver.concluded = true → w.driver.held = [])
  | _ => True

instance (w : World) : (l : Label) → Decidable (Orderly w l)
  | .cancel => inferInstanceAs (Decidable (w.driver.abortRequested = false →
    (w.driver.awaiting = true → w.driver.agent.inbox = w.driver.steered) ∧
      (w.driver.concluded = true → w.driver.agent.inbox = [])))
  | .submit _ => inferInstanceAs (Decidable ((w.driver.awaiting = true → w.driver.captured = []) ∧
      (w.driver.concluded = true → w.driver.held = [])))
  | .wake | .boundary | .settle | .fail _ | .stop | .conclude | .clearActive =>
    inferInstanceAs (Decidable True)

/-- The pending steered messages end the inbox.  Before them it has the batch that the coming wake
claims; the other steered messages are claimed, or in the batch. -/
structure Tail (d : Driver) (claimed batch pending : List UserMessage) : Prop where
  steered : d.steered = claimed ++ pending
  inbox : d.agent.inbox = batch ++ pending
  claimed : ∀ message ∈ claimed, message ∈ d.agent.log ++ batch
  woken : ∀ n, d.agent.status = .woken n → batch.length = n
  unwoken : d.activeTurn = some .awaitingIdle → (∀ n, d.agent.status ≠ .woken n) → batch = []

/-- What the runs keep whose steps are all orderly. -/
structure Custody (w : World) : Prop where
  distinct : (w.submitted.map (·.id)).Nodup
  account : w.driver.agent.log ++ w.driver.captured ++ w.driver.agent.inbox ++ w.driver.held =
    w.submitted
  idle : w.driver.activeTurn ≠ some .awaitingIdle → w.driver.agent.status = .idle
  unheld : w.driver.activeTurn = some .awaitingIdle → w.driver.held = []
  captured : w.driver.captured ≠ [] → w.driver.activeTurn = some .awaitingIdle ∧
    w.driver.abortRequested = true ∧ w.driver.steered = [] ∧ w.driver.agent.inbox = []
  tail : ∃ claimed batch pending, Tail w.driver claimed batch pending
  late : ∀ outcome, w.driver.activeTurn = some (.concluded outcome) →
    ∀ message ∈ w.driver.steered, message ∈ w.driver.agent.inbox

section driver

variable {d : Driver} {agent : Agent} {message : UserMessage}

private theorem foldl_inject (messages : List UserMessage) :
    messages.foldl Agent.inject agent = { agent with inbox := agent.inbox ++ messages } := by
  induction messages generalizing agent with
  | nil => simp
  | cons message messages ih => simp [ih,Agent.inject]

private theorem submit_quiescent (h : d.activeTurn = none) :
    d.submit message = .ok { d with
      held := []
      frozen := false
      abortRequested := false
      abortHeld := none
      lastTurnFailure := none
      agent := { d.agent with
        inbox := d.agent.inbox ++ d.held ++ [message]
        status := .woken (d.agent.inbox ++ d.held ++ [message]).length }
      activeTurn := some .awaitingIdle } := by
  simp [Driver.submit,Driver.startTurn,Driver.runTurn,h,foldl_inject,Agent.followup,
    Nat.add_assoc]

private theorem submit_active (h : d.activeTurn ≠ none) :
    d.submit message =
      .ok { d with agent := d.agent.steer message, steered := d.steered ++ [message] } := by
  simp [Driver.submit,Option.isSome_iff_ne_none.mpr h]

private theorem foldl_remove (messages : List UserMessage) (h : agent.inbox = messages) :
    messages.foldl (fun a message => a.remove message.id) agent = { agent with inbox := [] } := by
  induction messages generalizing agent with
  | nil => rw [List.foldl_nil,← h]
  | cons message messages ih =>
    have hrest : (agent.remove message.id).inbox = messages := by
      simp [Agent.remove,h]
    rw [List.foldl_cons,ih hrest]
    rfl

private theorem takeUnclaimed_eq {claimed pending : List UserMessage}
    (hinbox : agent.inbox = pending)
    (hclaimed : ∀ message ∈ claimed, message.id ∉ pending.map (·.id)) :
    Driver.takeUnclaimed agent (claimed ++ pending) = (pending,{ agent with inbox := [] }) := by
  have hfilter : (claimed ++ pending).filter (·.id ∈ agent.inbox.map (·.id)) = pending := by
    have hnone : claimed.filter (·.id ∈ pending.map (·.id)) = [] := by
      simpa [List.filter_eq_nil_iff] using hclaimed
    have hall : pending.filter (·.id ∈ pending.map (·.id)) = pending := by
      rw [List.filter_eq_self]
      intro message hm
      simpa using ⟨message,hm,rfl⟩
    rw [hinbox,List.filter_append,hnone,hall,List.nil_append]
  simp only [Driver.takeUnclaimed,hfilter,foldl_remove pending hinbox]

end driver

section steps

variable {w w' : World} {message : UserMessage}

private theorem claimed_not_pending {claimed pending : List UserMessage} (h : Custody w)
    (hinbox : w.driver.agent.inbox = pending)
    (hclaimed : ∀ message ∈ claimed, message ∈ w.driver.agent.log) :
    ∀ message ∈ claimed, message.id ∉ pending.map (·.id) := by
  intro message hm hp
  have hids := h.distinct
  rw [← h.account,hinbox] at hids
  simp only [List.map_append,List.append_assoc] at hids
  have hlog : message.id ∈ w.driver.agent.log.map (·.id) :=
    List.mem_map_of_mem (hclaimed message hm)
  have hrest := List.disjoint_of_nodup_append hids hlog
  exact hrest (by simp [hp])

private theorem Tail.steered_mem {d : Driver} {claimed batch pending : List UserMessage}
    (h : Tail d claimed batch pending) :
    ∀ message ∈ d.steered, message ∈ d.agent.log ++ d.agent.inbox := by
  intro message hm
  rw [h.steered,List.mem_append] at hm
  rw [h.inbox,← List.append_assoc,List.mem_append]
  exact hm.imp (h.claimed message) id

private theorem submit_step (hs : w.submit message = some w') :
    message.id ∉ w.submitted.map (·.id) ∧ ∃ driver, w.driver.submit message = .ok driver ∧
      w' = { w with driver := driver, submitted := w.submitted ++ [message] } := by
  rw [World.submit] at hs
  split at hs
  · rename_i hfresh
    split at hs
    · rename_i driver hdriver
      exact ⟨hfresh,driver,hdriver,(Option.some.inj hs).symm⟩
    · cases hs
  · cases hs

private theorem submit_custody (h : Custody w) (hC : Orderly w (.submit message))
    (hs : w.submit message = some w') : Custody w' := by
  obtain ⟨hfresh,driver,hok,rfl⟩ := submit_step hs
  have hdistinct : ((w.submitted ++ [message]).map (·.id)).Nodup := by
    rw [List.map_append,List.nodup_append]
    refine ⟨h.distinct,by simp,fun id hid id' hid' he => hfresh ?_⟩
    have hid' : id' = message.id := by simpa using hid'
    exact hid' ▸ he ▸ hid
  obtain ⟨claimed,batch,pending,htail⟩ := h.tail
  cases hturn : w.driver.activeTurn with
  | none =>
    have hcaptured : w.driver.captured = [] := by
      by_contra hne
      cases hturn ▸ (h.captured hne).1
    rw [submit_quiescent hturn] at hok
    cases hok
    refine ⟨hdistinct,?_,by simp,by simp,by simp [Driver.captured],?_,by simp⟩
    · rw [← h.account,hcaptured]
      simp [Driver.captured]
    · refine ⟨w.driver.steered,w.driver.agent.inbox ++ w.driver.held ++ [message],[],?_⟩
      refine ⟨by simp,by simp,fun m hm => ?_,by simp,by simp⟩
      have hmem := htail.steered_mem m hm
      simp only [List.mem_append] at hmem ⊢
      exact hmem.imp id fun hin => Or.inl (Or.inl hin)
  | some turn =>
    rw [submit_active (by simp [hturn])] at hok
    cases hok
    have hopen : w.driver.captured = [] ∧ w.driver.held = [] := by
      cases turn with
      | awaitingIdle => exact ⟨hC.1 (by rw [Driver.awaiting,hturn]),h.unheld hturn⟩
      | concluded outcome =>
        refine ⟨?_,hC.2 (by rw [Driver.concluded,hturn])⟩
        by_contra hne
        cases hturn ▸ (h.captured hne).1
    have haccount := h.account
    rw [hopen.1,hopen.2,List.append_nil,List.append_nil] at haccount
    refine ⟨hdistinct,?_,h.idle,h.unheld,fun hne => absurd hopen.1 hne,?_,?_⟩
    · show w.driver.agent.log ++ w.driver.captured ++ (w.driver.agent.inbox ++ [message]) ++
        w.driver.held = _
      rw [hopen.1,hopen.2,← haccount]
      simp
    · refine ⟨claimed,batch,pending ++ [message],?_,?_,htail.claimed,htail.woken,htail.unwoken⟩
      · show w.driver.steered ++ [message] = _
        rw [htail.steered,List.append_assoc]
      · show w.driver.agent.inbox ++ [message] = _
        rw [htail.inbox,List.append_assoc]
    · intro outcome hconcluded m hm
      have hm : m ∈ w.driver.steered ++ [message] := hm
      show m ∈ w.driver.agent.inbox ++ [message]
      rw [List.mem_append] at hm ⊢
      exact hm.imp (h.late outcome hconcluded m) id

private theorem cancel_custody (h : Custody w) (hC : Orderly w .cancel) : Custody w.cancel := by
  rw [World.cancel,Driver.cancel]
  split
  · obtain ⟨claimed,batch,pending,htail⟩ := h.tail
    have htail' : Tail { w.driver with frozen := true } claimed batch pending :=
      ⟨htail.steered,htail.inbox,htail.claimed,htail.woken,htail.unwoken⟩
    exact ⟨h.distinct,h.account,h.idle,h.unheld,h.captured,⟨_,_,_,htail'⟩,h.late⟩
  · rename_i hactive
    rw [not_or,Bool.not_eq_true w.driver.abortRequested] at hactive
    obtain ⟨hsome,hfirst⟩ := hactive
    have hcaptured : w.driver.captured = [] := by
      by_contra hne
      exact absurd (h.captured hne).2.1 (by simp [hfirst])
    have hC := hC hfirst
    have haccount := h.account
    have hinbox : w.driver.agent.inbox = w.driver.steered ∧
        (w.driver.activeTurn = some .awaitingIdle ∨ w.driver.steered = []) := by
      cases hturn : w.driver.activeTurn with
      | none => simp [hturn] at hsome
      | some turn =>
        cases turn with
        | awaitingIdle => exact ⟨hC.1 (by rw [Driver.awaiting,hturn]),Or.inl rfl⟩
        | concluded outcome =>
          have hempty := hC.2 (by rw [Driver.concluded,hturn])
          have hnone : w.driver.steered = [] := by
            rw [List.eq_nil_iff_forall_not_mem]
            intro m hm
            have hin := h.late outcome hturn m hm
            rw [hempty] at hin
            cases hin
          exact ⟨hempty.trans hnone.symm,Or.inr hnone⟩
    refine ⟨h.distinct,?_,fun hne => ?_,h.unheld,fun hne => ?_,⟨[],[],[],?_⟩,by simp⟩
    · rw [← haccount,hcaptured,hinbox.1]
      simp [Driver.captured,Agent.cancel]
    · simp [Agent.cancel,h.idle hne]
    · exact ⟨hinbox.2.resolve_right hne,rfl,rfl,rfl⟩
    · refine ⟨rfl,rfl,by simp,fun n hn => ?_,by simp⟩
      by_cases hidle : w.driver.agent.status = .idle <;> simp [Agent.cancel,hidle] at hn

/-- Outside a turn nothing is claimed, and no turn ends. -/
theorem Custody.awaiting (h : Custody w) (hs : w.driver.agent.status ≠ .idle) :
    w.driver.activeTurn = some .awaitingIdle := by
  by_contra hne
  exact hs (h.idle hne)

/-- The agent claims the delivered batch at a wake, and the whole inbox at a boundary. -/
theorem claim_custody {n : Nat} {status : AgentStatus} (h : Custody w)
    (hbusy : w.driver.agent.status ≠ .idle) (hstatus : ∀ n, status ≠ .woken n)
    (hn : w.driver.agent.status = .woken n ∨ n = w.driver.agent.inbox.length) :
    Custody (w.withAgent (w.driver.agent.claim n status)) := by
  have hturn := h.awaiting hbusy
  refine ⟨h.distinct,?_,fun hne => absurd hturn hne,h.unheld,fun hne => ?_,?_,fun outcome ho => ?_⟩
  · have htaken : w.driver.agent.log ++ w.driver.agent.inbox.take n ++ w.driver.captured ++
        w.driver.agent.inbox.drop n =
        w.driver.agent.log ++ w.driver.captured ++ w.driver.agent.inbox := by
      by_cases hne : w.driver.captured = []
      · simp [hne]
      · simp [(h.captured hne).2.2.2]
    calc
      _ = w.driver.agent.log ++ w.driver.agent.inbox.take n ++ w.driver.captured ++
          w.driver.agent.inbox.drop n ++ w.driver.held := rfl
      _ = w.submitted := by rw [htaken,h.account]
  · obtain ⟨_,hrequested,hsteered,hinbox⟩ := h.captured hne
    exact ⟨hturn,hrequested,hsteered,by simp [World.withAgent,Agent.claim,hinbox]⟩
  · obtain ⟨claimed,batch,pending,htail⟩ := h.tail
    rcases hn with hwoken | hall
    · have hbatch := htail.woken n hwoken
      refine ⟨claimed,[],pending,htail.steered,?_,?_,fun m hm => absurd hm (hstatus m),by simp⟩
      · simp [World.withAgent,Agent.claim,htail.inbox,← hbatch]
      · simpa [World.withAgent,Agent.claim,htail.inbox,← hbatch] using htail.claimed
    · refine ⟨w.driver.steered,[],[],?_,?_,?_,fun m hm => absurd hm (hstatus m),by simp⟩
      · simp [World.withAgent]
      · simp [World.withAgent,Agent.claim,hall]
      · simpa [World.withAgent,Agent.claim,hall] using htail.steered_mem
  · cases hturn.symm.trans ho

private theorem wake_custody (h : Custody w) (hs : w.wake = some w') : Custody w' := by
  rw [World.wake] at hs
  split at hs
  · rename_i delivered hwoken
    cases hs
    exact claim_custody h (by simp [hwoken]) (by simp) (Or.inl hwoken)
  · cases hs

private theorem boundary_custody (h : Custody w) (hs : w.boundary = some w') : Custody w' := by
  obtain ⟨hstatus,rfl⟩ := of_guard hs
  apply claim_custody h
  · rcases hstatus with hs | hs <;> simp [hs]
  · rcases hstatus with hs | hs <;> simp [hs]
  · exact Or.inr rfl

private theorem ended_custody {failure : Option TurnFailure} (h : Custody w)
    (hbusy : w.driver.agent.status ≠ .idle) (hstatus : ∀ n, w.driver.agent.status ≠ .woken n) :
    Custody { w with driver := { w.driver with
      agent := { w.driver.agent with status := .idle }
      lastTurnFailure := failure } } := by
  obtain ⟨claimed,batch,pending,htail⟩ := h.tail
  have hbatch := htail.unwoken (h.awaiting hbusy) hstatus
  refine ⟨h.distinct,h.account,fun _ => rfl,h.unheld,h.captured,⟨claimed,batch,pending,?_⟩,h.late⟩
  exact ⟨htail.steered,htail.inbox,htail.claimed,by simp,fun _ _ => hbatch⟩

private theorem settle_custody (h : Custody w) (hs : w.settle = some w') : Custody w' := by
  obtain ⟨⟨hrunning,_⟩,rfl⟩ := of_guard hs
  exact ended_custody h (by simp [hrunning]) (by simp [hrunning])

private theorem fail_custody {failure : TurnFailure} (h : Custody w)
    (hs : w.fail failure = some w') :
    Custody w' := by
  obtain ⟨hrunning,rfl⟩ := of_guard hs
  exact ended_custody h (by simp [hrunning]) (by simp [hrunning])

private theorem stop_custody (h : Custody w) (hs : w.stop = some w') : Custody w' := by
  obtain ⟨hstopping,rfl⟩ := of_guard hs
  exact ended_custody h (by simp [hstopping]) (by simp [hstopping])

/-- At the end of a turn the driver takes exactly the inbox into custody. -/
theorem taken_of_idle (h : Custody w) (hturn : w.driver.activeTurn = some .awaitingIdle)
    (hidle : w.driver.agent.status = .idle) :
    Driver.takeUnclaimed w.driver.agent w.driver.steered =
      (w.driver.agent.inbox,{ w.driver.agent with inbox := [] }) := by
  obtain ⟨claimed,batch,pending,htail⟩ := h.tail
  have hbatch : batch = [] := htail.unwoken hturn (by simp [hidle])
  have hinbox : w.driver.agent.inbox = pending := by simpa [hbatch] using htail.inbox
  have hclaimed := claimed_not_pending h hinbox (by simpa [hbatch] using htail.claimed)
  rw [htail.steered,takeUnclaimed_eq hinbox hclaimed,hinbox]

private theorem conclude_custody (h : Custody w) (hs : w.conclude = some w') : Custody w' := by
  rw [World.conclude] at hs
  split at hs
  · rename_i hturn
    obtain ⟨hidle,rfl⟩ := of_guard hs
    have htaken := taken_of_idle h hturn hidle
    have haccount := h.account
    have hheld := h.unheld hturn
    simp only [Driver.conclude,htaken]
    cases hrequested : w.driver.abortRequested with
    | true =>
      have hone : w.driver.agent.inbox ++ w.driver.captured =
          w.driver.captured ++ w.driver.agent.inbox := by
        by_cases hne : w.driver.captured = []
        · simp [hne]
        · simp [(h.captured hne).2.2.2]
      refine ⟨h.distinct,?_,fun _ => hidle,by simp,by simp [Driver.captured],⟨[],[],[],?_⟩,by simp⟩
      · calc
          _ = w.driver.agent.log ++ [] ++ [] ++
              (w.driver.agent.inbox ++ w.driver.captured ++ w.driver.held) := rfl
          _ = w.submitted := by simp [hone,← haccount]
      · exact ⟨rfl,rfl,by simp,fun n hn => by simp [hidle] at hn,by simp⟩
    | false =>
      have hcaptured : w.driver.captured = [] := by
        by_contra hne
        simpa [hrequested] using (h.captured hne).2.1
      cases hfailure : w.driver.lastTurnFailure with
      | some failure =>
        refine ⟨h.distinct,?_,fun _ => hidle,by simp,fun hne => absurd hcaptured hne,
          ⟨[],[],[],?_⟩,by simp⟩
        · calc
            _ = w.driver.agent.log ++ w.driver.captured ++ [] ++
                (w.driver.agent.inbox ++ w.driver.held) := rfl
            _ = w.submitted := by simp [hcaptured,← haccount]
        · exact ⟨rfl,rfl,by simp,fun n hn => by simp [hidle] at hn,by simp⟩
      | none =>
        refine ⟨h.distinct,haccount,fun _ => hidle,by simp,fun hne => absurd hcaptured hne,
          ⟨[],w.driver.agent.inbox,[],?_⟩,by simp⟩
        exact ⟨rfl,by simp,by simp,fun n hn => by simp [hidle] at hn,by simp⟩
  · cases hs

private theorem clearActive_custody (h : Custody w) (hs : w.clearActive = some w') :
    Custody w' := by
  rw [World.clearActive] at hs
  split at hs
  · rename_i outcome hturn
    cases hs
    have hidle := h.idle (by simp [hturn])
    obtain ⟨claimed,batch,pending,htail⟩ := h.tail
    refine ⟨h.distinct,h.account,fun _ => hidle,by simp,fun hne => ?_,⟨claimed,batch,pending,?_⟩,
      by simp⟩
    · cases hturn.symm.trans (h.captured hne).1
    · exact ⟨htail.steered,htail.inbox,htail.claimed,htail.woken,by simp⟩
  · cases hs

end steps

private theorem custody_inductive : Lts.Inductive system Orderly Custody where
  init w hw := by
    obtain rfl : w = {} := hw
    refine ⟨by simp,by simp [Driver.captured],by simp,by simp,by simp [Driver.captured],
      ⟨[],[],[],?_⟩,by simp⟩
    exact ⟨rfl,rfl,by simp,by simp,by simp⟩
  step w l w' h hC hs := by
    cases l with
    | submit message => exact submit_custody h hC hs
    | cancel =>
      cases hs
      exact cancel_custody h hC
    | wake => exact wake_custody h hs
    | boundary => exact boundary_custody h hs
    | settle => exact settle_custody h hs
    | fail failure => exact fail_custody h hs
    | stop => exact stop_custody h hs
    | conclude => exact conclude_custody h hs
    | clearActive => exact clearActive_custody h hs

private theorem Custody.takenOnce {w : World} (h : Custody w) : TakenOnce w := by
  have hnodup : w.submitted.Nodup := h.distinct.of_map
  have hsublist : w.driver.agent.log.Sublist w.submitted := by
    rw [← h.account,List.append_assoc,List.append_assoc]
    exact List.sublist_append_left ..
  refine ⟨fun hquiet message hm => ?_,hnodup.sublist hsublist,hsublist⟩
  have hcaptured : w.driver.captured = [] := by
    by_contra hne
    simp [(h.captured hne).1] at hquiet
  have hcount := List.count_eq_one_of_mem hnodup hm
  rw [← h.account,hcaptured,List.append_nil,List.count_append,List.count_append] at hcount
  omega

/-- In every run of orderly steps each message is taken exactly once, in order. -/
theorem taken_once {w : World} (hw : system.ReachUnder Orderly w) : TakenOnce w :=
  (custody_inductive.of_reachUnder hw).takenOnce

/-- Steering that a cancel cut off is replayed by the next delivery. -/
theorem taken_once_demo : ∃ w, system.ReachUnder Orderly w ∧
    w.driver.agent.log.map (·.id) = ["1","2","3","4"] ∧ TakenOnce w := by
  have hinit : system.ReachUnder Orderly {} := .init rfl
  have hrun : (system.runUnder (fun w l => decide (Orderly w l)) {}
      [.submit ⟨"1","first"⟩,.wake,.submit ⟨"2","steered"⟩,.cancel,.stop,.conclude,.clearActive,
        .submit ⟨"3","resume"⟩,.wake,.submit ⟨"4","late"⟩,.boundary,.settle,.conclude,
        .clearActive]).any
      (fun w => w.driver.agent.log.map (·.id) = ["1","2","3","4"]) = true := by
    decide
  obtain ⟨w,hw,hlog⟩ :=
    Lts.reachUnder_of_runUnder_any (fun w l hC => of_decide_eq_true hC) _ hinit hrun
  exact ⟨w,hw,of_decide_eq_true hlog,taken_once hw⟩

/-- A step boundary claims a steered message, and the cancel that follows delivers it again. -/
theorem consumed_steering_replayed : ¬ ∀ w, system.Reach w → TakenOnce w := by
  intro hall
  have hinit : system.Reach {} := .init rfl
  have hrun : (system.run {} [.submit ⟨"1","first"⟩,.wake,.submit ⟨"2","consumed"⟩,.boundary,.cancel,
      .stop,.conclude,.clearActive,.submit ⟨"3","resume"⟩,.wake]).any
      (fun w => decide ¬ w.driver.agent.log.Nodup) = true := by
    decide
  obtain ⟨w,hw,htwice⟩ := Lts.reach_of_run_any _ hinit hrun
  exact of_decide_eq_true htwice (hall w hw).once

end Dominion.Sts2
