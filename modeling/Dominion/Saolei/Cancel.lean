import Dominion.Saolei.Driving

/-! # Cancel

`cancel` looks at the flow's last outcome and not at the members: a frozen flow may have a
recovery turn or a restarted activity in flight, and there `cancel` does nothing. -/
namespace Dominion.Saolei

open Dominion.Framework

/-- The settlements of a cancelled turn. -/
def Settlement.aborts : Settlement → Prop
  | fulfilled outcome => outcome = .aborted
  | rejected _ => True

private theorem Settlement.record_paused {st : Settlement} (h : st.aborts) (f : SaoleiFlow) :
    (f.record st.outcome).paused = true := by
  cases st with
  | rejected message => rfl
  | fulfilled outcome =>
    cases h
    rfl

namespace TeamOrchestrator

/-- Every undisturbed step but a delivery or a disposal. -/
def Undelivered (s : TeamOrchestrator) (l : Label) : Prop :=
  match l with
  | .submit _ _ => False
  | .dispose => False
  | l => s.Undisturbed l

/-- A cancelled turn: in flight and marked, or settled as aborted. -/
inductive Aborting (s : TeamOrchestrator) (b : MemberId) (turn : Turn) : Prop
  | marked (m : AgentMember) (hm : s.members b = .agent m) (hturn : m.activeTurn = some turn)
      (habort : m.abortRequested = true)
  | settled (st : Settlement) (hst : s.turns turn.id = some st) (haborts : st.aborts)

/-- The end of a cancelled turn while nothing is delivered: once it has settled, it is owed to the
decision entry, or has frozen the flow. -/
structure Ending (s : TeamOrchestrator) (b : MemberId) (turn : Turn) : Prop where
  aborting : s.Aborting b turn
  rests : (s.turns turn.id).isSome → s.owed = some turn.id ∨
    (s.flow.paused = true ∧ (s.pump = none ∨ s.pump = some .returned))

variable {s s' : TeamOrchestrator} {b : MemberId} {turn : Turn}

/-- What `cancel` does to a turn in flight of a flow that is not frozen. -/
theorem cancel_inFlight (h : s.Inv) (hlive : s.disposed = false) (hpaused : s.flow.paused = false)
    {m : AgentMember} (hm : s.members b = .agent m) (hturn : m.activeTurn = some turn)
    (inbox : List UserMessage) :
    (s.cancel inbox).2.members b = .agent m.abort.cancelAgent := by
  have hflight := inFlight_of_agent hm hturn
  have hb : s.flow.activeMemberId = b := (h.driven b turn hflight).2.1
  have hbusy : m.busy = true := by
    unfold AgentMember.busy
    rw [hturn]
    rfl
  unfold cancel
  simp only [hlive,h.live hlive,hpaused,hb,hm,hbusy,Bool.false_eq_true,if_false,Bool.not_true,
    if_true,setMember,Function.update_self]

private theorem abort_marks {m : AgentMember} (hturn : m.activeTurn = some turn) :
    m.abort.cancelAgent.activeTurn = some turn ∧
      m.abort.cancelAgent.abortRequested = true ∧
      m.abort.cancelAgent.agent.cancels = m.agent.cancels + 1 := by
  have hsome : m.activeTurn.isSome = true := by
    rw [hturn]
    rfl
  unfold AgentMember.abort
  rw [if_pos hsome]
  exact ⟨hturn,rfl,rfl⟩

private theorem cancel_paused (hlive : s.disposed = false) (hmaterialized : s.materialized = true)
    (hpaused : s.flow.paused = true) (inbox : List UserMessage) : (s.cancel inbox).2 = s := by
  unfold cancel
  simp only [hlive,hmaterialized,hpaused,Bool.false_eq_true,if_false,Bool.not_true,if_true]

private theorem cancel_idle (hlive : s.disposed = false) (hmaterialized : s.materialized = true)
    (hpaused : s.flow.paused = false) (hidle : s.inFlight s.flow.activeMemberId = none)
    (inbox : List UserMessage) : (s.cancel inbox).2.flow.paused = true := by
  unfold cancel
  simp only [hlive,hmaterialized,hpaused,Bool.false_eq_true,if_false,Bool.not_true]
  split
  · rename_i m hm
    have hbusy : m.busy = false := by
      unfold inFlight at hidle
      rw [hm] at hidle
      unfold AgentMember.busy
      rw [show m.activeTurn = none from hidle]
      rfl
    simp only [hbusy,Bool.false_eq_true,if_false]
    rfl
  · rfl

private theorem cancel_keeps (inbox : List UserMessage) :
    (s.cancel inbox).2.turns = s.turns ∧ (s.cancel inbox).2.disposed = s.disposed ∧
      (s.cancel inbox).2.owed = s.owed := by
  unfold cancel
  split
  · exact ⟨rfl,rfl,rfl⟩
  · split
    · exact ⟨rfl,rfl,rfl⟩
    · split
      · exact ⟨rfl,rfl,rfl⟩
      · dsimp only
        split
        · rename_i m hm
          split
          · refine ⟨rfl,rfl,owed_congr rfl rfl rfl fun b => ?_⟩
            refine Eq.trans (inFlight_setMember_same ?_ b) rfl
            unfold inFlight
            rw [hm]
            exact (Member.abort_cancelAgent (.agent m)).1
          · exact ⟨rfl,rfl,rfl⟩
        · exact ⟨rfl,rfl,rfl⟩

private theorem resume_aborted (h : s.Inv) (hlive : s.disposed = false) {st : Settlement}
    (howed : s.owed = some turn.id) (hst : s.turns turn.id = some st) (haborts : st.aborts)
    (answer : Except String (List UserMessage)) : ∃ t, s.resume answer = some t ∧
      t.turns = s.turns ∧ t.flow.paused = true ∧ t.pump = some .returned := by
  obtain ⟨wake,p,hresume,hwake⟩ := resume_feed h hlive howed hst answer
  have hpaused := Settlement.record_paused haborts s.flow
  have hwake' : wake = some st.outcome := by
    rcases hwake with hwake | ⟨-,hsettled⟩
    · exact hwake
    · rw [hsettled] at hpaused
      cases hpaused
  let s₁ : TeamOrchestrator := { s with pendingOutcome := p }
  rw [hresume,hwake',feed_frozen (s := s₁) st.outcome hpaused (some turn.id)]
  exact ⟨_,rfl,rfl,(Flow.decide_frozen s.flow _ hpaused).2.1,rfl⟩

/-- A settled turn of which the cancel took effect has aborted. -/
theorem Aborting.settles (h : s.Inv) (ha : s.Aborting b turn) {st : Settlement}
    (hst : s.turns turn.id = some st) : st.aborts := by
  cases ha with
  | marked m hm hturn habort =>
    rw [(h.driven b turn (inFlight_of_agent hm hturn)).2.2] at hst
    cases hst
  | settled st' hst' haborts =>
    rw [hst] at hst'
    cases hst'
    exact haborts

private theorem Aborting.frame (ha : s.Aborting b turn) (hturns : s'.turns = s.turns)
    (hmember : ∀ m, s.members b = .agent m → m.activeTurn = some turn → m.abortRequested = true →
      ∃ m', s'.members b = .agent m' ∧ m'.activeTurn = some turn ∧ m'.abortRequested = true) :
    s'.Aborting b turn := by
  cases ha with
  | marked m hm hturn habort =>
    obtain ⟨m',hm',hturn',habort'⟩ := hmember m hm hturn habort
    exact .marked m' hm' hturn' habort'
  | settled st hst haborts => exact .settled st (hturns ▸ hst) haborts

private theorem execute_keeps {answer : Except String (List UserMessage)} :
    (s.execute answer).disposed = s.disposed ∧ (s.execute answer).turns = s.turns := by
  unfold execute
  dsimp only
  split <;> exact ⟨rfl,rfl⟩

private theorem feed_keeps {wake : Option Outcome} {turn : Option Nat}
    {answer : Except String (List UserMessage)} :
    (s.feed wake turn answer).disposed = s.disposed ∧
      (s.feed wake turn answer).turns = s.turns := by
  unfold feed
  dsimp only
  split
  · exact execute_keeps
  · exact ⟨rfl,rfl⟩

private theorem runPump_keeps {answer : Except String (List UserMessage)} :
    (s.runPump answer).disposed = s.disposed ∧ (s.runPump answer).turns = s.turns := by
  unfold runPump
  split
  · exact ⟨rfl,rfl⟩
  · split
    · exact ⟨rfl,rfl⟩
    · exact feed_keeps

private theorem requestPump_keeps {answer : Except String (List UserMessage)} :
    (s.requestPump answer).disposed = s.disposed ∧ (s.requestPump answer).turns = s.turns := by
  unfold requestPump
  split
  · exact ⟨rfl,rfl⟩
  · exact runPump_keeps

private theorem resume_keeps {answer : Except String (List UserMessage)}
    (hstep : s.resume answer = some s') : s'.disposed = s.disposed ∧ s'.turns = s.turns := by
  unfold resume at hstep
  split at hstep
  · obtain ⟨st,-,rfl⟩ := Option.map_eq_some_iff.mp hstep
    cases st with
    | rejected message => exact ⟨rfl,rfl⟩
    | fulfilled outcome =>
      dsimp only
      split
      · exact ⟨rfl,rfl⟩
      · exact feed_keeps
  · obtain ⟨st,-,rfl⟩ := Option.map_eq_some_iff.mp hstep
    split
    · exact ⟨rfl,rfl⟩
    · exact runPump_keeps
  · cases hstep
    exact ⟨rfl,rfl⟩
  · cases hstep

private theorem submit_turns (message : UserMessage) (answer : Except String (List UserMessage)) :
    (s.submit message answer).2.turns = s.turns := by
  unfold submit
  split
  · rfl
  · split
    · rfl
    · dsimp only
      split
      · rfl
      · split
        · rfl
        · exact requestPump_keeps.2

/-- No job of the pump touches a member while a turn is in flight: it awaits the turn, or takes
over the delivery that started it. -/
theorem resume_inFlight (h : s.Inv) (hflight : s.inFlight b = some turn)
    {answer : Except String (List UserMessage)} (hstep : s.resume answer = some s') :
    s'.members = s.members := by
  obtain ⟨howed,-,hnone⟩ := h.driven b turn hflight
  rcases Bool.eq_false_or_eq_true s.externalPending with hexternal | hexternal
  · unfold resume at hstep
    split at hstep
    · rename_i hawait
      rw [h.external_of_awaitSettled hawait] at hexternal
      cases hexternal
    · obtain ⟨st,-,rfl⟩ := Option.map_eq_some_iff.mp hstep
      split
      · rfl
      · unfold runPump
        split
        · rfl
        · rfl
    · cases hstep
      rfl
    · cases hstep
  · rw [owed_of_pump hexternal] at howed
    obtain ⟨pump,hpump,hawaits⟩ := Option.bind_eq_some_iff.mp howed
    unfold resume at hstep
    rw [hpump] at hstep
    cases pump with
    | returned => cases hawaits
    | awaitSettled b' awaited =>
      cases turn?_eq_some hawaits
      dsimp only at hstep
      rw [show s.settlement (.turn turn.id) = none from hnone] at hstep
      cases hstep
    | awaitExecute b' awaited =>
      cases turn?_eq_some hawaits
      dsimp only at hstep
      rw [show s.settlement (.turn turn.id) = none from hnone] at hstep
      cases hstep

private theorem aborting_submit (h : s.Inv) (ha : s.Aborting b turn) (message : UserMessage)
    (answer : Except String (List UserMessage)) :
    (s.submit message answer).2.Aborting b turn := by
  apply ha.frame (submit_turns message answer)
  intro m hm hturn habort
  have hb := (h.driven b turn (inFlight_of_agent hm hturn)).2.1
  have hbusy : (Member.agent m).busy = true := congrArg Option.isSome hturn
  unfold submit
  split
  · exact ⟨m,hm,hturn,habort⟩
  · split
    · exact ⟨m,hm,hturn,habort⟩
    · simp only [hb,hm,hbusy,Member.deliver,AgentMember.deliver,hturn,Option.isSome_some,if_true]
      cases answer with
      | error err => exact ⟨m,hm,hturn,habort⟩
      | ok drained => exact ⟨_,Function.update_self _ _ _,rfl,habort⟩

private theorem marked_setMember {b' : MemberId} {m : AgentMember} {m' : Member}
    (hm : s.members b = .agent m) (hturn : m.activeTurn = some turn)
    (habort : m.abortRequested = true)
    (hsame : b' = b → ∃ m'', m' = .agent m'' ∧ m''.activeTurn = some turn ∧
      m''.abortRequested = true) :
    ∃ m'', (s.setMember b' m').members b = .agent m'' ∧ m''.activeTurn = some turn ∧
      m''.abortRequested = true := by
  unfold setMember
  by_cases hb : b = b'
  · subst b'
    obtain ⟨m'',rfl,hturn',habort'⟩ := hsame rfl
    exact ⟨m'',Function.update_self _ _ _,hturn',habort'⟩
  · exact ⟨m,(Function.update_of_ne hb _ _).trans hm,hturn,habort⟩

private theorem cancelAgent_marked {b' : MemberId} {m : AgentMember}
    (hm : s.members b = .agent m) (hturn : m.activeTurn = some turn) (hb : b' = b) :
    ∃ m', (s.members b').abort.cancelAgent = .agent m' ∧ m'.activeTurn = some turn ∧
      m'.abortRequested = true := by
  subst b'
  rw [hm]
  exact ⟨_,rfl,(abort_marks hturn).1,(abort_marks hturn).2.1⟩

private theorem aborting_cancel (ha : s.Aborting b turn) (inbox : List UserMessage) :
    (s.cancel inbox).2.Aborting b turn := by
  apply ha.frame (cancel_keeps inbox).1
  intro m hm hturn habort
  unfold cancel
  split
  · exact ⟨m,hm,hturn,habort⟩
  · split
    · exact ⟨m,hm,hturn,habort⟩
    · split
      · exact ⟨m,hm,hturn,habort⟩
      · dsimp only
        split
        · rename_i m' hm'
          split
          · refine marked_setMember hm hturn habort fun hb => ?_
            have hmarked := cancelAgent_marked hm hturn hb
            rw [hm'] at hmarked
            exact hmarked
          · exact ⟨m,hm,hturn,habort⟩
        · exact ⟨m,hm,hturn,habort⟩

private theorem aborting_dispose (ha : s.Aborting b turn) : s.dispose.Aborting b turn := by
  have hturns : s.dispose.turns = s.turns := by
    unfold dispose
    split
    · rfl
    · dsimp only
      split <;> rfl
  apply ha.frame hturns
  intro m hm hturn habort
  unfold dispose
  split
  · exact ⟨m,hm,hturn,habort⟩
  · dsimp only
    split
    · exact marked_setMember hm hturn habort (cancelAgent_marked hm hturn)
    · exact ⟨m,hm,hturn,habort⟩

private theorem aborting_pump (h : s.Inv) (ha : s.Aborting b turn)
    {answer : Except String (List UserMessage)} (hstep : s.resume answer = some s') :
    s'.Aborting b turn := by
  apply ha.frame (resume_keeps hstep).2
  intro m hm hturn habort
  rw [resume_inFlight h (inFlight_of_agent hm hturn) hstep]
  exact ⟨m,hm,hturn,habort⟩

/-- The settlement of a marked turn aborts it, and no other turn is in flight then. -/
private theorem aborting_turns {b' : MemberId} {turn' : Turn} (h : s.Inv) (ha : s.Aborting b turn)
    (hflight : s.inFlight b' = some turn') {m : Member} {st : Settlement}
    (haborts : ∀ m', s.members b' = .agent m' → m'.abortRequested = true → st.aborts) :
    Aborting { s.setMember b' m with
      turns := Function.update s.turns turn'.id (some st) } b turn := by
  obtain ⟨howed',hb',hnone⟩ := h.driven b' turn' hflight
  cases ha with
  | marked m' hm hturn habort =>
    have hflight' := inFlight_of_agent hm hturn
    have hbb : b' = b := hb'.symm.trans (h.driven b turn hflight').2.1
    rw [hbb] at hflight haborts ⊢
    rw [hflight'] at hflight
    cases hflight
    exact .settled st (Function.update_self _ _ _) (haborts m' hm habort)
  | settled st' hst haborts' =>
    have hne : turn.id ≠ turn'.id := by
      intro he
      rw [he,hnone] at hst
      cases hst
    exact .settled st' ((Function.update_of_ne hne _ _).trans hst) haborts'

private theorem aborting_settle {b' : MemberId} (h : s.Inv) (ha : s.Aborting b turn)
    (hstep : s.settle b' = some s') : s'.Aborting b turn := by
  obtain ⟨m,turn',hm,hflight,rfl⟩ := settle_cases hstep
  apply aborting_turns h ha hflight
  intro m' hm' habort
  rw [hm] at hm'
  cases hm'
  unfold AgentMember.finishTurn
  dsimp only
  rw [if_pos habort]
  rfl

private theorem aborting_reject {b' : MemberId} {message : String} (h : s.Inv)
    (ha : s.Aborting b turn) (hstep : s.reject b' message = some s') : s'.Aborting b turn := by
  obtain ⟨m,turn',-,hflight,rfl⟩ := reject_cases hstep
  exact aborting_turns h ha hflight fun _ _ _ => trivial

private theorem aborting_agentError {b' : MemberId} {failure : TurnFailure}
    (ha : s.Aborting b turn) (hstep : s.agentError b' failure = some s') :
    s'.Aborting b turn := by
  obtain ⟨m',hm',rfl⟩ := agentError_cases hstep
  refine ha.frame rfl fun m hm hturn habort => ?_
  refine marked_setMember hm hturn habort fun hb => ?_
  subst b'
  rw [hm] at hm'
  cases hm'
  exact ⟨_,rfl,hturn,habort⟩

private theorem aborting_step {l : Label} (h : s.Inv) (ha : s.Aborting b turn)
    (hstep : system.step s l = some s') : s'.Aborting b turn := by
  cases l with
  | submit message answer =>
    cases hstep
    exact aborting_submit h ha message answer
  | cancel inbox =>
    cases hstep
    exact aborting_cancel ha inbox
  | dispose =>
    cases hstep
    exact aborting_dispose ha
  | release =>
    obtain ⟨-,rfl⟩ := release_cases hstep
    exact ha.frame rfl fun m hm hturn habort => ⟨m,hm,hturn,habort⟩
  | pump answer => exact aborting_pump h ha hstep
  | settle b' => exact aborting_settle h ha hstep
  | reject b' message => exact aborting_reject h ha hstep
  | agentError b' failure => exact aborting_agentError ha hstep
  | recordTerminal record =>
    cases hstep
    exact ha.frame rfl fun m hm hturn habort => ⟨m,hm,hturn,habort⟩

private theorem Undelivered.undisturbed {l : Label} (h : s.Undelivered l) : s.Undisturbed l := by
  cases l with
  | submit message answer => cases h
  | dispose => cases h
  | _ => exact h

private theorem live_step {l : Label} (hlive : s.disposed = false) (hl : s.Undelivered l)
    (hstep : system.step s l = some s') : s'.disposed = false := by
  cases l with
  | submit message answer => cases hl
  | dispose => cases hl
  | cancel inbox =>
    cases hstep
    exact (cancel_keeps inbox).2.1.trans hlive
  | release =>
    obtain ⟨-,rfl⟩ := release_cases hstep
    exact hlive
  | pump answer => exact (resume_keeps hstep).1.trans hlive
  | settle b =>
    obtain ⟨m,turn,-,-,rfl⟩ := settle_cases hstep
    exact hlive
  | reject b message =>
    obtain ⟨m,turn,-,-,rfl⟩ := reject_cases hstep
    exact hlive
  | agentError b failure =>
    obtain ⟨m,-,rfl⟩ := agentError_cases hstep
    exact hlive
  | recordTerminal record =>
    cases hstep
    exact hlive

private theorem rests_turns {b' : MemberId} {turn' : Turn} (h : s.Inv)
    (hexternal : s.externalPending = false) (he : s.Ending b turn)
    (hflight : s.inFlight b' = some turn') {m : Member} {st : Settlement} :
    let s₁ : TeamOrchestrator := { s.setMember b' m with
      turns := Function.update s.turns turn'.id (some st) }
    (s₁.turns turn.id).isSome → s₁.owed = some turn.id := by
  intro s₁ hsettled
  have howed := (h.driven b' turn' hflight).1
  have howed₁ : s₁.owed = s.owed :=
    (owed_of_pump (s := s₁) hexternal).trans (owed_of_pump hexternal).symm
  rw [howed₁,howed]
  by_cases hid : turn.id = turn'.id
  · rw [hid]
  · have hbefore : (s.turns turn.id).isSome := by
      rw [show s₁.turns turn.id = s.turns turn.id from Function.update_of_ne hid _ _] at hsettled
      exact hsettled
    rcases he.rests hbefore with howed' | ⟨-,hpump⟩
    · exact howed.symm.trans howed'
    · rw [owed_of_pump hexternal] at howed
      rcases hpump with hpump | hpump <;>
      · rw [hpump] at howed
        cases howed

private theorem ending_step {l : Label} (h : s.Inv) (hlive : s.disposed = false)
    (hl : s.Undelivered l)
    (he : s.Ending b turn) (hstep : system.step s l = some s') : s'.Ending b turn := by
  refine ⟨aborting_step h he.aborting hstep,?_⟩
  intro hsettled
  cases l with
  | submit message answer => cases hl
  | dispose => cases hl
  | cancel inbox =>
    cases hstep
    rw [(cancel_keeps inbox).1] at hsettled
    rcases he.rests hsettled with howed | ⟨hpaused,hpump⟩
    · exact Or.inl ((cancel_keeps inbox).2.2.trans howed)
    · rw [cancel_paused hlive (h.live hlive) hpaused]
      exact Or.inr ⟨hpaused,hpump⟩
  | release =>
    obtain ⟨hdisposed,-⟩ := release_cases hstep
    rw [hlive] at hdisposed
    cases hdisposed
  | pump answer =>
    rw [(resume_keeps hstep).2] at hsettled
    rcases he.rests hsettled with howed | ⟨hpaused,hpump⟩
    · obtain ⟨st,hst⟩ := Option.isSome_iff_exists.mp hsettled
      obtain ⟨t,hresume,-,hpaused,hpump⟩ :=
        resume_aborted h hlive howed hst (he.aborting.settles h hst) answer
      have hsame := hresume.symm.trans hstep
      cases hsame
      exact Or.inr ⟨hpaused,Or.inr hpump⟩
    · have hresume : s.resume answer = some s' := hstep
      unfold resume at hresume
      rcases hpump with hpump | hpump
      · rw [hpump] at hresume
        cases hresume
      · rw [hpump] at hresume
        cases hresume
        exact Or.inr ⟨hpaused,Or.inl rfl⟩
  | settle b' =>
    obtain ⟨m,turn',-,hflight,rfl⟩ := settle_cases hstep
    have hexternal := external_of_settlesBeforePump hl.2 hlive
    exact Or.inl (rests_turns h hexternal he hflight hsettled)
  | reject b' message =>
    obtain ⟨m,turn',-,hflight,rfl⟩ := reject_cases hstep
    have hexternal := external_of_settlesBeforePump hl.2 hlive
    exact Or.inl (rests_turns h hexternal he hflight hsettled)
  | agentError b' failure =>
    obtain ⟨m,hm,rfl⟩ := agentError_cases hstep
    have howed : (s.setMember b' (.agent { m with lastTurnFailure := some failure })).owed =
        s.owed := by
      refine owed_congr rfl rfl rfl (inFlight_setMember_same ?_)
      unfold inFlight
      rw [hm]
      rfl
    rw [howed]
    exact he.rests hsettled
  | recordTerminal record =>
    cases hstep
    exact he.rests hsettled

/-- The undisturbed steps, deliveries and disposals among them. -/
def Continues (s s' : TeamOrchestrator) : Prop :=
  Relation.ReflTransGen (system.StepUnder Undisturbed) s s'

/-- The steps without deliveries and disposals. -/
def Proceeds (s s' : TeamOrchestrator) : Prop :=
  Relation.ReflTransGen (system.StepUnder Undelivered) s s'

private theorem aborting_run (h : s.Inv) (ha : s.Aborting b turn) (hrun : s.Continues s') :
    s'.Inv ∧ s'.Aborting b turn := by
  induction hrun with
  | refl => exact ⟨h,ha⟩
  | tail _ hstep ih =>
    obtain ⟨hinv,haborting⟩ := ih
    obtain ⟨l,hl,hs⟩ := hstep
    exact ⟨inv_inductive.step _ _ _ hinv hl hs,aborting_step hinv haborting hs⟩

private theorem ending_run (h : s.Inv) (hlive : s.disposed = false) (he : s.Ending b turn)
    (hrun : s.Proceeds s') : s'.Inv ∧ s'.disposed = false ∧ s'.Ending b turn := by
  induction hrun with
  | refl => exact ⟨h,hlive,he⟩
  | tail _ hstep ih =>
    obtain ⟨hinv,hlive',hending⟩ := ih
    obtain ⟨l,hl,hs⟩ := hstep
    exact ⟨inv_inductive.step _ _ _ hinv hl.undisturbed hs,live_step hlive' hl hs,
      ending_step hinv hlive' hl hending hs⟩

/-- The cancel step from `s` to `s'` terminates `turn` of `b`: it is marked and its agent is
cancelled, it settles as aborted, the decision entry consumes it as that, and with no further
delivery the flow is frozen from the pump's next job on. -/
structure Terminates (s s' : TeamOrchestrator) (b : MemberId) (turn : Turn) : Prop where
  marks : ∃ m m', s.members b = .agent m ∧ s'.members b = .agent m' ∧
    m'.activeTurn = some turn ∧ m'.abortRequested = true ∧
    m'.agent.cancels = m.agent.cancels + 1
  aborts : ∀ t, s'.Continues t → ∀ outcome, t.turns turn.id = some (.fulfilled outcome) →
    outcome = .aborted
  freezesOnce : ∀ t, s'.Continues t → t.disposed = false → (t.turns turn.id).isSome →
    turn.id ∈ t.fed.map Prod.fst ∨
      ∀ answer, ∃ t', t.resume answer = some t' ∧ t'.flow.paused = true
  freezes : ∀ t, s'.Proceeds t → (t.turns turn.id).isSome →
    t.flow.paused = true ∨
      ∀ answer, ∃ t', t.resume answer = some t' ∧ t'.flow.paused = true

/-- The pump's next job freezes the flow on a cancelled turn that it has not consumed yet. -/
theorem Aborting.freezes (h : s.Inv) (hlive : s.disposed = false) (ha : s.Aborting b turn)
    (hsettled : (s.turns turn.id).isSome) : turn.id ∈ s.fed.map Prod.fst ∨
      ∀ answer, ∃ s', s.resume answer = some s' ∧ s'.flow.paused = true := by
  obtain ⟨st,hst⟩ := Option.isSome_iff_exists.mp hsettled
  rcases h.ledger.complete hlive turn.id st hst with howed | hfed
  · right
    intro answer
    obtain ⟨t,hresume,-,hpaused,-⟩ := resume_aborted h hlive howed hst (ha.settles h hst) answer
    exact ⟨t,hresume,hpaused⟩
  · exact Or.inl hfed

private theorem Ending.freezes (h : s.Inv) (hlive : s.disposed = false) (he : s.Ending b turn)
    (hsettled : (s.turns turn.id).isSome) : s.flow.paused = true ∨
      ∀ answer, ∃ s', s.resume answer = some s' ∧ s'.flow.paused = true := by
  rcases he.rests hsettled with howed | ⟨hpaused,-⟩
  · right
    intro answer
    obtain ⟨st,hst⟩ := Option.isSome_iff_exists.mp hsettled
    obtain ⟨t,hresume,-,hpaused,-⟩ :=
      resume_aborted h hlive howed hst (he.aborting.settles h hst) answer
    exact ⟨t,hresume,hpaused⟩
  · exact Or.inl hpaused

private theorem cancel_terminates (h : s.Inv) (hlive : s.disposed = false)
    (hpaused : s.flow.paused = false) (hturn : s.inFlight b = some turn)
    (inbox : List UserMessage) : s.Terminates (s.cancel inbox).2 b turn := by
  obtain ⟨m,hm,hactive⟩ := agent_of_inFlight hturn
  have hmark := cancel_inFlight h hlive hpaused hm hactive inbox
  obtain ⟨hactive',habort,hcancels⟩ := abort_marks hactive
  have hlive' := (cancel_keeps (s := s) inbox).2.1.trans hlive
  have haborting : (s.cancel inbox).2.Aborting b turn := .marked _ hmark hactive' habort
  have hending : (s.cancel inbox).2.Ending b turn := by
    refine ⟨haborting,fun hsettled => ?_⟩
    rw [(cancel_keeps inbox).1,(h.driven b turn hturn).2.2] at hsettled
    cases hsettled
  refine ⟨⟨m,_,hm,hmark,hactive',habort,hcancels⟩,?_,?_,?_⟩
  · intro t hrun outcome houtcome
    obtain ⟨hinv,ha⟩ := aborting_run (cancel_inv h inbox) haborting hrun
    exact ha.settles hinv houtcome
  · intro t hrun hlive'' hsettled
    obtain ⟨hinv,ha⟩ := aborting_run (cancel_inv h inbox) haborting hrun
    exact ha.freezes hinv hlive'' hsettled
  · intro t hrun hsettled
    obtain ⟨hinv,hlive'',he⟩ := ending_run (cancel_inv h inbox) hlive' hending hrun
    exact he.freezes hinv hlive'' hsettled

/-- `cancel` changes every flow that is not frozen. -/
theorem cancel_effect (h : s.Inv) (hlive : s.disposed = false) (hpaused : s.flow.paused = false)
    (inbox : List UserMessage) : (s.cancel inbox).2 ≠ s := by
  intro hnoop
  cases hturn : s.inFlight s.flow.activeMemberId with
  | some turn =>
    obtain ⟨m,m',hm,hm',-,-,hcancels⟩ := (cancel_terminates h hlive hpaused hturn inbox).marks
    rw [hnoop,hm] at hm'
    cases hm'
    exact absurd hcancels (Nat.ne_of_lt (Nat.lt_succ_self _))
  | none =>
    have hfrozen := cancel_idle hlive (h.live hlive) hpaused hturn inbox
    rw [hnoop,hpaused] at hfrozen
    cases hfrozen

/-- In the undisturbed runs `cancel` terminates whatever
turn is in flight, and is a no-op only of a frozen flow at rest, just when the flow is not frozen
with a turn in flight. -/
theorem cancel_terminates_iff (h : system.ReachUnder Undisturbed s) (hlive : s.disposed = false) :
    (∀ inbox, (∀ b turn, s.inFlight b = some turn → s.Terminates (s.cancel inbox).2 b turn) ∧
      ((s.cancel inbox).2 = s → s.flow.paused = true ∧ ∀ b, s.inFlight b = none)) ↔
    ¬(s.flow.paused = true ∧ ∃ b turn, s.inFlight b = some turn) := by
  have hinv := inv_of_reachUnder h
  constructor
  · rintro hcancel ⟨hpaused,b,turn,hturn⟩
    have hnoop := cancel_paused hlive (hinv.live hlive) hpaused []
    have hidle := ((hcancel []).2 hnoop).2 b
    rw [hturn] at hidle
    cases hidle
  · intro hfree inbox
    refine ⟨?_,?_⟩
    · intro b turn hturn
      have hpaused : s.flow.paused = false := by
        by_contra hpaused
        exact hfree ⟨by simpa using hpaused,b,turn,hturn⟩
      exact cancel_terminates hinv hlive hpaused hturn inbox
    · intro hnoop
      have hpaused : s.flow.paused = true := by
        by_contra hpaused
        exact cancel_effect hinv hlive (by simpa using hpaused) inbox hnoop
      refine ⟨hpaused,fun b => ?_⟩
      by_contra hturn
      obtain ⟨turn,hturn⟩ := Option.ne_none_iff_exists'.mp hturn
      exact hfree ⟨hpaused,b,turn,hturn⟩

theorem cancel_terminates_demo : ∃ s : TeamOrchestrator, system.ReachUnder Undisturbed s ∧
    s.inFlight .player = some ⟨1,true⟩ ∧ s.Terminates (s.cancel []).2 .player ⟨1,true⟩ := by
  obtain ⟨s,hs,hplays⟩ := Lts.reachUnder_of_runUnder_any (M := system) (C := Undisturbed)
    (c := fun s l => !s.submitsBesidePump l && !s.settlesBeforePump l)
    (p := fun s => !s.disposed && !s.flow.paused &&
      (s.inFlight .player).any fun turn => turn.id == 1 && turn.hold)
    (fun s l hl => by simpa [Undisturbed] using hl) playLabels (.init rfl) (by decide)
  simp only [Option.any_eq_true,Bool.and_eq_true,Bool.not_eq_true',beq_iff_eq] at hplays
  obtain ⟨⟨hlive,hpaused⟩,⟨id,hold⟩,hturn,rfl,rfl⟩ := hplays
  have hfree : ¬(s.flow.paused = true ∧ ∃ b turn, s.inFlight b = some turn) := by
    rintro ⟨hfrozen,-⟩
    rw [hpaused] at hfrozen
    cases hfrozen
  exact ⟨s,hs,hturn,((cancel_terminates_iff hs hlive).mpr hfree []).1 _ _ hturn⟩

/-- The plan turn fails, and a second message opens the recovery turn of the frozen flow. -/
def recoveryLabels : List Label :=
  [.submit (demoMessage 0) (.ok []),.agentError .planner ⟨some "SERVER","boom"⟩,.settle .planner,
    .pump (.ok []),.pump (.ok []),.submit (demoMessage 1) (.ok [])]

theorem recovery_turn_survives : ¬∀ s, system.Reach s → s.disposed = false →
    ∀ inbox b turn, s.inFlight b = some turn → s.Terminates (s.cancel inbox).2 b turn := by
  intro h
  obtain ⟨s,hs,hrecovers⟩ := Lts.reach_of_run_any (M := system)
    (p := fun s => !s.disposed && s.materialized && s.flow.paused && (s.inFlight .planner).isSome)
    recoveryLabels (.init rfl) (by decide)
  simp only [Bool.and_eq_true,Bool.not_eq_true'] at hrecovers
  obtain ⟨⟨⟨hlive,hmaterialized⟩,hpaused⟩,hflight⟩ := hrecovers
  obtain ⟨turn,hturn⟩ := Option.isSome_iff_exists.mp hflight
  obtain ⟨m,m',hm,hm',-,-,hcancels⟩ := (h s hs hlive [] .planner turn hturn).marks
  rw [cancel_paused hlive hmaterialized hpaused,hm] at hm'
  cases hm'
  exact absurd hcancels (Nat.ne_of_lt (Nat.lt_succ_self _))

end TeamOrchestrator

end Dominion.Saolei
