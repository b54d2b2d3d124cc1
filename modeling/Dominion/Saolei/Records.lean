import Dominion.Saolei.Wakes

/-! # The bookkeeping of game records

A journal beside the orchestrator notes the terminal records, what the announcer speaks and what
the settled reviews mark. -/
namespace Dominion.Saolei

open Dominion.Framework

structure Journal where
  /-- The terminal records so far. -/
  recorded : List GameEventRecord := []
  /-- The records announced, and whether the announcement succeeded. -/
  spoken : List (GameEventRecord × Bool) := []
  /-- The records marked by settled reviews. -/
  reviewed : List GameEventRecord := []
  /-- The settled reviews since the last entry into `rest`. -/
  rounds : Nat := 0

/-- The record that a drive announces. -/
def AnnouncerMember.speech (m : AnnouncerMember) (terminal : Option GameEventRecord) :
    Option GameEventRecord :=
  if terminal = m.statsSentFor then none else terminal

private theorem AnnouncerMember.drive_eq (m : AnnouncerMember) (terminal : Option GameEventRecord)
    (announce : Except String Unit) :
    m.drive terminal announce =
      match m.speech terminal with
      | none => (.settled,m)
      | some record =>
        match announce with
        | .ok () => (.settled,{ m with statsSentFor := some record })
        | .error message => (failureOutcome message,m) := by
  unfold drive speech
  cases terminal with
  | none => simp
  | some record =>
    by_cases h : some record = m.statsSentFor
    · simp [h]
    · cases announce <;> simp [h]

namespace TeamOrchestrator

variable {s s' : TeamOrchestrator} {l : Label} {a : AnnouncerMember} {j : Journal}

/-- What the announcer speaks in a step. -/
def speech (s : TeamOrchestrator) : Label → Option (GameEventRecord × Bool)
  | .pump answer =>
    match s.wake (.pump answer),s.members .announcer with
    | some w,.announcer a =>
      if (s.flow.decide w).1 = .start .announce then
        (a.speech (s.flow.decide w).2.facts.terminal).map fun record => (record,answer.isOk)
      else none
    | _,_ => none
  | _ => none

/-- The step settles a review. -/
def settlesReview (s : TeamOrchestrator) (l : Label) : Bool :=
  decide (s.wake l = some (some .settled)) && decide (s.flow.position = .review)

def entersRest (s s' : TeamOrchestrator) : Bool :=
  decide (s.flow.position ≠ .rest) && decide (s'.flow.position = .rest)

def observe (s : TeamOrchestrator) (l : Label) (s' : TeamOrchestrator) (j : Journal) : Journal where
  recorded :=
    match l with
    | .recordTerminal record => record :: j.recorded
    | _ => j.recorded
  spoken := (s.speech l).toList ++ j.spoken
  reviewed := if s.settlesReview l then s'.flow.facts.reviewed.toList ++ j.reviewed else j.reviewed
  rounds :=
    if s.entersRest s' then 0
    else if s.settlesReview l then j.rounds + 1
    else j.rounds

/-- New terminal records are distinct objects and appear while the player is the active
member. -/
def PlayerRecords (x : TeamOrchestrator × Journal) (l : Label) : Prop :=
  ∀ record, l = .recordTerminal record →
    record ∉ x.2.recorded ∧ x.1.flow.activeMemberId = .player

/-- What the pump can give to the decision entry of a flow at `announce`. -/
def Announces (stats terminal : Option GameEventRecord) : Option Pump → Prop
  | some (.awaitSettled _ awaited) => awaited = .settled (.fulfilled .resting)
  | some (.awaitExecute _ awaited) =>
    ∃ outcome, awaited = .settled (.fulfilled outcome) ∧ (outcome = .settled → stats = terminal)
  | _ => True

/-- What the journal says of the flow, the announcer and the pump. -/
structure Books (f : SaoleiFlow) (a : AnnouncerMember) (p : Option Pump) (j : Journal) : Prop where
  graph : f.activities = saoleiActivities
  terminal : ∀ r, f.facts.terminal = some r → r ∈ j.recorded
  spoken : ∀ r ∈ j.spoken.map Prod.fst, r ∈ j.recorded
  once : (j.spoken.map Prod.fst).Nodup
  reviewed : ∀ r ∈ j.reviewed, r ∈ j.recorded
  marked : ∀ r ∈ j.reviewed, f.facts.terminal = some r → f.facts.reviewed = some r
  guarded : ∀ r ∈ j.spoken.map Prod.fst, f.facts.terminal = some r →
    a.statsSentFor = some r ∨ f.position = .announce
  sent : ∀ r, a.statsSentFor = some r → (r,true) ∈ j.spoken
  announcing : f.position = .announce → f.retrying = false ∧
    Announces a.statsSentFor f.facts.terminal p ∧ ∃ r, f.facts.terminal = some r ∧ r ∉ j.reviewed
  reviewing : f.position = .review →
    ∃ r, f.facts.terminal = some r ∧ (r,true) ∈ j.spoken ∧ r ∉ j.reviewed
  rounds : f.facts.rounds = j.rounds
  below : j.rounds < roundStopInterval

/-- A step that gives no wake to the flow of an announcer `a`. -/
structure Quiet (s s' : TeamOrchestrator) (a : AnnouncerMember) : Prop where
  flow : s'.flow = s.flow ∨ s'.flow = s.flow.freezeAborted
  announcer : s'.members .announcer = .announcer a
  announces : s.flow.activeMemberId = .announcer → ∀ stats terminal,
    Announces stats terminal s.pump → Announces stats terminal s'.pump

/-- A step whose wake starts nothing. -/
structure Refuses (s s' : TeamOrchestrator) (wake : Option Outcome) (a : AnnouncerMember) :
    Prop where
  starts : ∀ activity, (s.flow.decide wake).1 ≠ .start activity
  flow : s'.flow = (s.flow.decide wake).2
  announcer : s'.members .announcer = .announcer a
  announces : ∀ stats terminal, Announces stats terminal s.pump → Announces stats terminal s'.pump

private theorem setMember_announcer {b : MemberId} {m m' : AgentMember}
    (hb : s.members b = .agent m) (ha : s.members .announcer = .announcer a) :
    (s.setMember b (.agent m')).members .announcer = .announcer a := by
  have hne : MemberId.announcer ≠ b := by
    rintro rfl
    rw [ha] at hb
    cases hb
  exact (Function.update_of_ne hne _ _).trans ha

/-- A delivery leaves the announcer alone. -/
theorem deliver_announcer {b : MemberId} {m : Member} {turn : Nat} {landed : List UserMessage}
    {answer : Except String (List UserMessage)} {message : UserMessage}
    (ha : s.members .announcer = .announcer a)
    (h : ((s.members b).deliver turn answer landed message).1 = .ok m) :
    (s.setMember b m).members .announcer = .announcer a ∧ (b = .announcer → m = .announcer a) := by
  by_cases hb : b = .announcer
  · subst b
    rw [ha] at h
    cases h
    refine ⟨?_,fun _ => rfl⟩
    show Function.update s.members .announcer (.announcer a) .announcer = .announcer a
    rw [Function.update_self]
  · exact ⟨(Function.update_of_ne (Ne.symm hb) _ _).trans ha,fun he => absurd he hb⟩

private theorem submit_quiet {message : UserMessage} {answer : Except String (List UserMessage)}
    (ha : s.members .announcer = .announcer a) (hwake : s.wake (.submit message answer) = none) :
    s.Quiet (s.submit message answer).2 a := by
  unfold wake at hwake
  unfold submit
  by_cases hdisposed : s.disposed = true
  · rw [if_pos hdisposed]
    exact ⟨Or.inl rfl,ha,fun _ _ _ h => h⟩
  · by_cases hmaterialized : s.materialized = true
    · simp only [hdisposed,hmaterialized,Bool.not_true,Bool.or_false,Bool.false_eq_true,
        if_false] at hwake ⊢
      rcases hdeliver : (s.members s.flow.activeMemberId).deliver s.nextTurn answer s.landed message
        with ⟨r,landed⟩
      have hr : ((s.members s.flow.activeMemberId).deliver s.nextTurn answer s.landed message).1 =
          r := by
        rw [hdeliver]
      rw [hr] at hwake
      cases r with
      | error err => cases hwake
      | ok m =>
        obtain ⟨hannouncer,hm⟩ := deliver_announcer ha hr
        dsimp only
        split
        · exact ⟨Or.inl rfl,hannouncer,fun _ _ _ h => h⟩
        · unfold requestPump
          dsimp only
          split
          · exact ⟨Or.inl rfl,hannouncer,fun _ _ _ h => h⟩
          · have hlive : s.disposed = false := by simpa using hdisposed
            unfold runPump
            simp only [setMember,hlive,hmaterialized,Bool.not_true,Bool.or_false,
              Bool.false_eq_true,if_false,if_true]
            refine ⟨Or.inl rfl,hannouncer,fun hactive stats terminal _ => ?_⟩
            have hself : Function.update s.members s.flow.activeMemberId m
                s.flow.activeMemberId = .announcer a := by
              rw [Function.update_self,hm hactive]
            show (Function.update s.members s.flow.activeMemberId m
              s.flow.activeMemberId).whenSettled = _
            rw [hself]
            rfl
    · have hreleased : s.materialized = false := by simpa using hmaterialized
      simp only [hdisposed,hreleased,Bool.not_false,if_true]
      exact ⟨Or.inl rfl,ha,fun _ _ _ h => h⟩

private theorem submit_refuses {message : UserMessage} {answer : Except String (List UserMessage)}
    {w : Option Outcome} (ha : s.members .announcer = .announcer a)
    (hwake : s.wake (.submit message answer) = some w) :
    s.Refuses (s.submit message answer).2 w a := by
  unfold wake at hwake
  dsimp only at hwake
  split at hwake
  · cases hwake
  · rename_i hlive
    rw [Bool.or_eq_true,not_or] at hlive
    unfold submit
    rw [if_neg hlive.1,if_neg hlive.2]
    rcases hdeliver : (s.members s.flow.activeMemberId).deliver s.nextTurn answer s.landed message
      with ⟨r,landed⟩
    rw [hdeliver] at hwake
    cases r with
    | ok m => cases hwake
    | error err =>
      cases hwake
      dsimp only
      rw [hdeliver]
      have hfrozen := (Flow.decide_frozen s.flow (failureOutcome err.message) rfl).1
      refine ⟨?_,rfl,ha,fun _ _ h => h⟩
      rw [hfrozen]
      simp

private theorem cancel_quiet {inbox : List UserMessage} (ha : s.members .announcer = .announcer a) :
    s.Quiet (s.cancel inbox).2 a := by
  unfold cancel
  split
  · exact ⟨Or.inl rfl,ha,fun _ _ _ h => h⟩
  · split
    · exact ⟨Or.inl rfl,ha,fun _ _ _ h => h⟩
    · split
      · exact ⟨Or.inl rfl,ha,fun _ _ _ h => h⟩
      · dsimp only
        split
        · rename_i m hm
          split
          · exact ⟨Or.inl rfl,setMember_announcer hm ha,fun _ _ _ h => h⟩
          · exact ⟨Or.inr rfl,ha,fun _ _ _ h => h⟩
        · exact ⟨Or.inr rfl,ha,fun _ _ _ h => h⟩

private theorem dispose_quiet (ha : s.members .announcer = .announcer a) : s.Quiet s.dispose a := by
  unfold dispose
  split
  · exact ⟨Or.inl rfl,ha,fun _ _ _ h => h⟩
  · dsimp only
    split
    · rename_i b hb
      refine ⟨Or.inl rfl,?_,fun _ _ _ h => h⟩
      have hmem := List.mem_of_find?_eq_some hb
      have hne : MemberId.announcer ≠ b := by
        rintro rfl
        simp at hmem
      exact (Function.update_of_ne hne _ _).trans ha
    · exact ⟨Or.inl rfl,ha,fun _ _ _ h => h⟩

private theorem quiet_of_step (ha : s.members .announcer = .announcer a)
    (hstep : s.step l = some s')
    (hwake : s.wake l = none) (hrecord : ∀ record, l ≠ .recordTerminal record) : s.Quiet s' a := by
  cases l with
  | submit message answer =>
    cases hstep
    exact submit_quiet ha hwake
  | cancel inbox =>
    cases hstep
    exact cancel_quiet ha
  | dispose =>
    cases hstep
    exact dispose_quiet ha
  | release =>
    obtain ⟨-,-,rfl⟩ := release_cases hstep
    exact ⟨Or.inl rfl,ha,fun _ _ _ h => h⟩
  | pump answer =>
    rcases resume_cases hstep with ⟨-,hidles⟩ | ⟨w,hw,-⟩
    · refine ⟨Or.inl hidles.flow,?_,?_⟩
      · rw [hidles.members]
        exact ha
      · intro hactive stats terminal _
        rcases hidles.pump with hpump | hpump | hpump
        · rw [hpump]
          trivial
        · rw [hpump]
          trivial
        · rw [hpump,hactive,ha]
          rfl
    · rw [hwake] at hw
      cases hw
  | settle b =>
    obtain ⟨m,turn,hm,-,rfl⟩ := settle_cases hstep
    exact ⟨Or.inl rfl,setMember_announcer hm ha,fun _ _ _ h => h⟩
  | reject b message =>
    obtain ⟨m,turn,hm,-,rfl⟩ := reject_cases hstep
    exact ⟨Or.inl rfl,setMember_announcer hm ha,fun _ _ _ h => h⟩
  | agentError b failure =>
    obtain ⟨m,hm,rfl⟩ := agentError_cases hstep
    exact ⟨Or.inl rfl,setMember_announcer hm ha,fun _ _ _ h => h⟩
  | recordTerminal record => exact absurd rfl (hrecord record)

/-- The pump's next job runs an activity, and only `announce` concerns the announcer. -/
structure Starts (s s' : TeamOrchestrator) (wake : Option Outcome)
    (answer : Except String (List UserMessage)) (a a' : AnnouncerMember) : Prop where
  starts : (s.flow.decide wake).1 = .start (s.flow.decide wake).2.position
  flow : s'.flow = (s.flow.decide wake).2
  announcer : s'.members .announcer = .announcer a'
  away : s'.flow.position ≠ .announce → a' = a
  announce : s'.flow.position = .announce →
    a' = (a.drive s'.flow.facts.terminal (answer.map fun _ => ())).2 ∧
    s'.pump = some (.awaitExecute .announcer (.settled (.fulfilled
      (a.drive s'.flow.facts.terminal (answer.map fun _ => ())).1)))

private theorem activity_announcer (p : SaoleiActivityId) :
    (saoleiActivities p).member = .announcer ↔ p = .announce := by
  cases p <;> simp [saoleiActivities]

private theorem Executes.announcer {w : Option Outcome} {answer : Except String (List UserMessage)}
    (hgraph : s.flow.activities = saoleiActivities) (ha : s.members .announcer = .announcer a)
    (h : s.Executes w answer s') : ∃ a', s.Starts s' w answer a a' := by
  have hactivity : s'.flow.activity = saoleiActivities s'.flow.position := by
    unfold Flow.activity
    rw [h.flow,s.flow.decide_activities w,hgraph]
  by_cases hp : s'.flow.position = .announce
  · rw [hp] at hactivity
    have hdriven := h.driven (by rw [hactivity]; rfl)
    have hmember : s'.flow.activity.member = .announcer := by
      rw [hactivity]
      rfl
    rw [hmember,ha] at hdriven
    refine ⟨(a.drive s'.flow.facts.terminal (answer.map fun _ => ())).2,h.starts,h.flow,?_,
      fun hne => absurd hp hne,fun _ => ⟨rfl,hdriven.2⟩⟩
    rw [hdriven.1,Function.update_self]
    rfl
  · refine ⟨a,h.starts,h.flow,?_,fun _ => rfl,fun he => absurd he hp⟩
    rcases Bool.eq_false_or_eq_true s'.flow.activity.driverless with hdriverless | hdriven
    · rw [h.driverless hdriverless]
      exact ha
    · rw [(h.driven hdriven).1]
      have hne : MemberId.announcer ≠ s'.flow.activity.member := by
        intro he
        rw [hactivity] at he
        exact hp ((activity_announcer _).mp he.symm)
      exact (Function.update_of_ne hne _ _).trans ha

private theorem noisy_of_step {w : Option Outcome} (hgraph : s.flow.activities = saoleiActivities)
    (ha : s.members .announcer = .announcer a) (hstep : s.step l = some s')
    (hwake : s.wake l = some w) :
    s.Refuses s' w a ∨ ∃ answer a', l = .pump answer ∧ s.Starts s' w answer a a' := by
  cases l with
  | submit message answer =>
    cases hstep
    exact Or.inl (submit_refuses ha hwake)
  | pump answer =>
    rcases resume_cases hstep with ⟨hnone,-⟩ | ⟨w',hw,hrun⟩
    · rw [hwake] at hnone
      cases hnone
    · rw [hwake] at hw
      cases hw
      rcases hrun with h | h
      · obtain ⟨a',h⟩ := h.announcer hgraph ha
        exact Or.inr ⟨answer,a',rfl,h⟩
      · refine Or.inl ⟨h.starts,h.flow,?_,fun _ _ _ => ?_⟩
        · rw [h.members]
          exact ha
        · rw [h.pump]
          trivial
  | _ => cases hwake

section Books

variable {answer : Except String (List UserMessage)} {w : Option Outcome} {a' : AnnouncerMember}

/-- At `announce` the decision entry gets the outcome of a drive, and a settled one only of a
record that has been announced. -/
theorem Books.wake_announcing (h : Books s.flow a s.pump j) (hp : s.flow.position = .announce)
    (ha : s.members .announcer = .announcer a) (hwake : s.wake l = some w) :
    ∃ outcome, w = some outcome ∧ (outcome = .settled → a.statsSentFor = s.flow.facts.terminal) := by
  have hactive : s.flow.activeMemberId = .announcer := by
    unfold Flow.activeMemberId Flow.activity
    rw [h.graph,hp]
    rfl
  obtain ⟨-,hannounces,-⟩ := h.announcing hp
  cases l with
  | submit message answer =>
    unfold wake at hwake
    dsimp only at hwake
    rw [hactive,ha] at hwake
    split at hwake <;> cases hwake
  | pump answer =>
    unfold wake at hwake
    dsimp only at hwake
    split at hwake
    · rename_i b awaited hpump
      rw [hpump] at hannounces
      have hresting : awaited = .settled (.fulfilled .resting) := hannounces
      subst hresting
      simp only [settlement] at hwake
      split at hwake
      · cases hwake
      · cases hwake
        exact ⟨.resting,rfl,by simp⟩
    · rename_i b awaited hpump
      rw [hpump] at hannounces
      obtain ⟨outcome,rfl,hsent⟩ := hannounces
      split at hwake
      · cases hwake
      · cases hwake
        exact ⟨outcome,rfl,hsent⟩
    · cases hwake
  | _ => cases hwake

private theorem Books.quiet (h : Books s.flow a s.pump j) (hq : s.Quiet s' a) :
    Books s'.flow a s'.pump j := by
  have hactive (hp : s.flow.position = .announce) : s.flow.activeMemberId = .announcer := by
    unfold Flow.activeMemberId Flow.activity
    rw [h.graph,hp]
    rfl
  rcases hq.flow with hflow | hflow
  · rw [hflow]
    refine { h with announcing := fun hp => ?_ }
    obtain ⟨hretrying,hannounces,hr⟩ := h.announcing hp
    exact ⟨hretrying,hq.announces (hactive hp) _ _ hannounces,hr⟩
  · rw [hflow]
    refine { h with announcing := fun hp => ?_ }
    obtain ⟨hretrying,hannounces,hr⟩ := h.announcing hp
    exact ⟨hretrying,hq.announces (hactive hp) _ _ hannounces,hr⟩

private theorem Books.record (h : Books s.flow a s.pump j) {r : GameEventRecord}
    (hr : r ∉ j.recorded) (hactive : s.flow.activeMemberId = .player) :
    Books (s.recordTerminal r).flow a s.pump { j with recorded := r :: j.recorded } := by
  have hposition : s.flow.position ≠ .announce ∧ s.flow.position ≠ .review := by
    unfold Flow.activeMemberId Flow.activity at hactive
    rw [h.graph] at hactive
    constructor <;>
    · intro hp
      rw [hp] at hactive
      cases hactive
  constructor
  · exact h.graph
  · rintro r' ⟨⟩
    exact List.mem_cons_self
  · intro r' hr'
    exact List.mem_cons_of_mem _ (h.spoken r' hr')
  · exact h.once
  · intro r' hr'
    exact List.mem_cons_of_mem _ (h.reviewed r' hr')
  · rintro r' hr' ⟨⟩
    exact absurd (h.reviewed r hr') hr
  · rintro r' hr' ⟨⟩
    exact absurd (h.spoken r hr') hr
  · exact h.sent
  · intro hp
    exact absurd hp hposition.1
  · intro hp
    exact absurd hp hposition.2
  · exact h.rounds
  · exact h.below

/-- A wake that leaves the flow where it is. -/
theorem Books.stay (h : Books s.flow a s.pump j) (hstays : s.flow.Stays w)
    (hflow : s'.flow = (s.flow.decide w).2)
    (hannounces : s.flow.position = .announce → w ≠ none ∧
      (Announces a.statsSentFor s.flow.facts.terminal s.pump →
        Announces a.statsSentFor s.flow.facts.terminal s'.pump)) :
    Books s'.flow a s'.pump j := by
  have hposition : s'.flow.position = s.flow.position := by rw [hflow,hstays.position]
  have hfacts : s'.flow.facts = s.flow.facts := by rw [hflow,hstays.facts]
  have hgraph : s'.flow.activities = s.flow.activities := by
    rw [hflow,s.flow.decide_activities w]
  constructor
  · exact hgraph.trans h.graph
  · rw [hfacts]
    exact h.terminal
  · exact h.spoken
  · exact h.once
  · exact h.reviewed
  · rw [hfacts]
    exact h.marked
  · rw [hfacts,hposition]
    exact h.guarded
  · exact h.sent
  · rw [hfacts,hposition]
    intro hp
    obtain ⟨-,hbefore,hr⟩ := h.announcing hp
    obtain ⟨hw,hkept⟩ := hannounces hp
    refine ⟨?_,hkept hbefore,hr⟩
    rw [hflow]
    exact hstays.retrying hw
  · rw [hfacts,hposition]
    exact h.reviewing
  · rw [hfacts]
    exact h.rounds
  · exact h.below

/-- An edge into an activity of the player. -/
theorem Books.play (h : Books s.flow a s.pump j) {f : SaoleiFlow}
    (hgraph : f.activities = s.flow.activities) (hfacts : f.facts = s.flow.facts)
    (hannounce : s.flow.position ≠ .announce) (hplay : f.position = .play) (p : Option Pump) :
    Books f a p j := by
  constructor
  · exact hgraph.trans h.graph
  · rw [hfacts]
    exact h.terminal
  · exact h.spoken
  · exact h.once
  · exact h.reviewed
  · rw [hfacts]
    exact h.marked
  · rw [hfacts]
    intro r hr hterminal
    exact Or.inl ((h.guarded r hr hterminal).resolve_right hannounce)
  · exact h.sent
  · intro hp
    rw [hplay] at hp
    cases hp
  · intro hp
    rw [hplay] at hp
    cases hp
  · rw [hfacts]
    exact h.rounds
  · exact h.below

/-- An edge into `announce`: the announcer is driven on an unreviewed record. -/
theorem Books.announce (h : Books s.flow a s.pump j) {f : SaoleiFlow}
    (hgraph : f.activities = s.flow.activities) (hfacts : f.facts = s.flow.facts)
    (hretrying : f.retrying = false) (hannounce : s.flow.position ≠ .announce)
    (hposition : f.position = .announce) {r : GameEventRecord}
    (hterminal : s.flow.facts.terminal = some r) (hreviewed : s.flow.facts.reviewed ≠ some r)
    (announce : Except String Unit) :
    Books f (a.drive f.facts.terminal announce).2
      (some (.awaitExecute .announcer
        (.settled (.fulfilled (a.drive f.facts.terminal announce).1))))
      { j with spoken := ((a.speech f.facts.terminal).map fun record =>
          (record,announce.isOk)).toList ++ j.spoken } := by
  have hunmarked : r ∉ j.reviewed := fun hr => hreviewed (h.marked r hr hterminal)
  have hrecorded : r ∈ j.recorded := h.terminal r hterminal
  rw [AnnouncerMember.drive_eq,hfacts,hterminal]
  by_cases hsent : some r = a.statsSentFor
  · -- The record has been announced before.
    have hspeech : a.speech (some r) = none := by simp [AnnouncerMember.speech,hsent]
    rw [hspeech]
    constructor
    · exact hgraph.trans h.graph
    · rw [hfacts]
      exact h.terminal
    · exact h.spoken
    · exact h.once
    · exact h.reviewed
    · rw [hfacts]
      exact h.marked
    · intro r' _ _
      exact Or.inr hposition
    · exact h.sent
    · intro _
      refine ⟨hretrying,⟨.settled,rfl,fun _ => ?_⟩,r,?_,hunmarked⟩
      · rw [hfacts,hterminal,hsent]
      · rw [hfacts,hterminal]
    · intro hp
      rw [hposition] at hp
      cases hp
    · rw [hfacts]
      exact h.rounds
    · exact h.below
  · have hspeech : a.speech (some r) = some r := by simp [AnnouncerMember.speech,hsent]
    have hnew : r ∉ j.spoken.map Prod.fst := by
      intro hr
      rcases h.guarded r hr hterminal with hstats | hp
      · exact hsent hstats.symm
      · exact hannounce hp
    have honce : ((r :: j.spoken.map Prod.fst)).Nodup := List.nodup_cons.mpr ⟨hnew,h.once⟩
    rw [hspeech]
    have hbooks (b : Bool) (a' : AnnouncerMember) (outcome : Outcome)
        (hstats : ∀ r', a'.statsSentFor = some r' → (r',true) ∈ (r,b) :: j.spoken)
        (hsettled : outcome = .settled → a'.statsSentFor = some r) :
        Books f a' (some (.awaitExecute .announcer (.settled (.fulfilled outcome))))
          { j with spoken := (r,b) :: j.spoken } := by
      constructor
      · exact hgraph.trans h.graph
      · rw [hfacts]
        exact h.terminal
      · intro r' hr'
        rcases List.mem_cons.mp hr' with rfl | hr'
        · exact hrecorded
        · exact h.spoken r' hr'
      · exact honce
      · exact h.reviewed
      · rw [hfacts]
        exact h.marked
      · intro r' _ _
        exact Or.inr hposition
      · exact hstats
      · intro _
        refine ⟨hretrying,⟨outcome,rfl,fun ho => ?_⟩,r,?_,hunmarked⟩
        · rw [hfacts,hterminal,hsettled ho]
        · rw [hfacts,hterminal]
      · intro hp
        rw [hposition] at hp
        cases hp
      · rw [hfacts]
        exact h.rounds
      · exact h.below
    cases announce with
    | ok u =>
      apply hbooks
      · rintro r' ⟨⟩
        exact List.mem_cons_self
      · exact fun _ => rfl
    | error message =>
      apply hbooks
      · intro r' hr'
        exact List.mem_cons_of_mem _ (h.sent r' hr')
      · rintro ⟨⟩

/-- The edge into `review`: the latest record has been announced and is not reviewed. -/
theorem Books.review (h : Books s.flow a s.pump j) {f : SaoleiFlow}
    (hgraph : f.activities = s.flow.activities)
    (hterminal : f.facts.terminal = s.flow.facts.terminal)
    (hreviewed : f.facts.reviewed = s.flow.facts.reviewed)
    (hrounds : f.facts.rounds = s.flow.facts.rounds) (hannounce : s.flow.position = .announce)
    (hsent : a.statsSentFor = s.flow.facts.terminal) (hposition : f.position = .review)
    (p : Option Pump) : Books f a p j := by
  obtain ⟨-,-,r,hr,hunmarked⟩ := h.announcing hannounce
  constructor
  · exact hgraph.trans h.graph
  · rw [hterminal]
    exact h.terminal
  · exact h.spoken
  · exact h.once
  · exact h.reviewed
  · rw [hterminal,hreviewed]
    exact h.marked
  · rw [hterminal]
    intro r' _ hr'
    exact Or.inl (hsent.trans hr')
  · exact h.sent
  · intro hp
    rw [hposition] at hp
    cases hp
  · intro _
    exact ⟨r,hterminal.trans hr,h.sent r (hsent.trans hr),hunmarked⟩
  · rw [hrounds]
    exact h.rounds
  · exact h.below

/-- A settled review marks the latest record. -/
theorem Books.reviews (h : Books s.flow a s.pump j) {f : SaoleiFlow}
    (hgraph : f.activities = s.flow.activities)
    (hterminal : f.facts.terminal = s.flow.facts.terminal)
    (hreviewed : f.facts.reviewed = s.flow.facts.terminal)
    (hreview : s.flow.position = .review)
    (hposition : f.position ≠ .announce ∧ f.position ≠ .review) {rounds : Nat}
    (hrounds : f.facts.rounds = rounds) (hbelow : rounds < roundStopInterval) (p : Option Pump) :
    Books f a p { j with
      reviewed := f.facts.reviewed.toList ++ j.reviewed
      rounds := rounds } := by
  obtain ⟨r,hr,-,-⟩ := h.reviewing hreview
  have hmarks : f.facts.reviewed = some r := hreviewed.trans hr
  rw [hmarks]
  constructor
  · exact hgraph.trans h.graph
  · rw [hterminal]
    exact h.terminal
  · exact h.spoken
  · exact h.once
  · intro r' hr'
    rcases List.mem_cons.mp hr' with rfl | hr'
    · exact h.terminal r' hr
    · exact h.reviewed r' hr'
  · intro r' _ hr'
    rw [hreviewed,← hterminal]
    exact hr'
  · rw [hterminal]
    intro r' hr' hlatest
    have hleft := (h.guarded r' hr' hlatest).resolve_right (by rw [hreview]; simp)
    exact Or.inl hleft
  · exact h.sent
  · intro hp
    exact absurd hp hposition.1
  · intro hp
    exact absurd hp hposition.2
  · exact hrounds
  · exact hbelow

end Books

/-- The fields that a frozen flow keeps. -/
structure Kept (f f' : SaoleiFlow) : Prop where
  position : f'.position = f.position
  reviewed : f'.facts.reviewed = f.facts.reviewed
  statsSentFor : f'.facts.statsSentFor = f.facts.statsSentFor
  rounds : f'.facts.rounds = f.facts.rounds

private theorem Kept.refl (f : SaoleiFlow) : Kept f f :=
  ⟨rfl,rfl,rfl,rfl⟩

private theorem Kept.trans {f f₁ f₂ : SaoleiFlow} (h : Kept f f₁) (h' : Kept f₁ f₂) : Kept f f₂ :=
  ⟨h'.position.trans h.position,h'.reviewed.trans h.reviewed,
    h'.statsSentFor.trans h.statsSentFor,h'.rounds.trans h.rounds⟩

/-- What the journal says of a step. -/
structure Tallied (s : TeamOrchestrator) (l : Label) (s' : TeamOrchestrator) (j : Journal) :
    Prop where
  /-- A settled review marks a record that was announced and not yet reviewed. -/
  reviews : s.settlesReview l = true →
    ∃ r, s'.flow.facts.reviewed = some r ∧ (r,true) ∈ j.spoken ∧ r ∉ j.reviewed
  rests : s.entersRest s' = true ↔ s.settlesReview l = true ∧ j.rounds + 1 = roundStopInterval
  frozen : s.flow.paused = true → s'.flow.paused = true → Kept s.flow s'.flow

/-- A step that leaves the position and settles nothing. -/
theorem Tallied.of_kept (hkept : Kept s.flow s'.flow) (hsettles : s.settlesReview l = false) :
    s.Tallied l s' j where
  reviews h := by
    rw [hsettles] at h
    cases h
  rests := by
    constructor
    · intro h
      simp [entersRest,hkept.position] at h
    · rintro ⟨h,-⟩
      rw [hsettles] at h
      cases h
  frozen _ _ := hkept

private theorem observe_kept (hkept : Kept s.flow s'.flow) (hsettles : s.settlesReview l = false)
    (hspeech : s.speech l = none) (hrecord : ∀ record, l ≠ .recordTerminal record) :
    s.observe l s' j = j := by
  have hrest : s.entersRest s' = false := by simp [entersRest,hkept.position]
  unfold observe
  rw [hsettles,hspeech,hrest]
  cases l with
  | recordTerminal record => exact absurd rfl (hrecord record)
  | _ => rfl

section Steps

variable {answer : Except String (List UserMessage)} {w : Option Outcome} {a' : AnnouncerMember}

/-- The record that a pump job announces, when it announces one. -/
theorem speech_pump (hwake : s.wake (.pump answer) = some w)
    (ha : s.members .announcer = .announcer a) :
    s.speech (.pump answer) = if (s.flow.decide w).1 = .start .announce then
      (a.speech (s.flow.decide w).2.facts.terminal).map fun record => (record,answer.isOk)
      else none := by
  unfold speech
  simp only [hwake,ha]

private theorem step_stays (h : Books s.flow a s.pump j) (ha : s.members .announcer = .announcer a)
    (hstep : s.step l = some s') (hwake : s.wake l = some w) (hstays : s.flow.Stays w) :
    (∃ a', s'.members .announcer = .announcer a' ∧
      Books s'.flow a' s'.pump (s.observe l s' j)) ∧ s.Tallied l s' j := by
  have hsettles : s.settlesReview l = false := by
    simp [settlesReview,hwake,hstays.notSettled]
  have hrecord : ∀ record, l ≠ .recordTerminal record := by
    rintro record rfl
    cases hwake
  have hnone (hp : s.flow.position = .announce) : w ≠ none := by
    obtain ⟨outcome,rfl,-⟩ := h.wake_announcing hp ha hwake
    simp
  have hkept (hflow : s'.flow = (s.flow.decide w).2) : Kept s.flow s'.flow := by
    rw [hflow]
    exact ⟨hstays.position,by rw [hstays.facts],by rw [hstays.facts],by rw [hstays.facts]⟩
  have hstart (a₁ : SaoleiActivityId) (hs : (s.flow.decide w).1 = .start a₁) : a₁ ≠ .announce := by
    rintro rfl
    obtain ⟨hw,hp⟩ := hstays.restart _ hs
    exact hnone hp.symm hw
  have hspeech : s.speech l = none := by
    cases l with
    | pump answer =>
      rw [speech_pump hwake ha,if_neg fun hs => hstart _ hs rfl]
    | _ => rfl
  rcases noisy_of_step h.graph ha hstep hwake with hrefuses | ⟨answer,a',rfl,hstarts⟩
  · have hsame := observe_kept (j := j) (hkept hrefuses.flow) hsettles hspeech hrecord
    rw [hsame]
    refine ⟨⟨a,hrefuses.announcer,?_⟩,.of_kept (hkept hrefuses.flow) hsettles⟩
    exact h.stay hstays hrefuses.flow fun hp => ⟨hnone hp,hrefuses.announces _ _⟩
  · have hsame := observe_kept (j := j) (hkept hstarts.flow) hsettles hspeech hrecord
    rw [hsame]
    have hposition : s'.flow.position ≠ .announce := by
      rw [hstarts.flow]
      exact hstart _ hstarts.starts
    have haway := hstarts.away hposition
    subst haway
    refine ⟨⟨a',hstarts.announcer,?_⟩,.of_kept (hkept hstarts.flow) hsettles⟩
    apply h.stay hstays hstarts.flow
    intro hp
    have hkeep := (hkept hstarts.flow).position
    exact absurd (hkeep.trans hp) hposition

/-- The journal after a pump job that runs an activity. -/
theorem observe_starts (hwake : s.wake (.pump answer) = some w)
    (ha : s.members .announcer = .announcer a) (hstarts : s.Starts s' w answer a a') :
    s.observe (.pump answer) s' j = {
      recorded := j.recorded
      spoken := (if s'.flow.position = .announce then
        (a.speech s'.flow.facts.terminal).map fun record => (record,answer.isOk)
        else none).toList ++ j.spoken
      reviewed := if w = some .settled ∧ s.flow.position = .review
        then s'.flow.facts.reviewed.toList ++ j.reviewed else j.reviewed
      rounds := if s.flow.position ≠ .rest ∧ s'.flow.position = .rest then 0
        else if w = some .settled ∧ s.flow.position = .review then j.rounds + 1 else j.rounds } := by
  unfold observe
  rw [speech_pump hwake ha,hstarts.starts,← hstarts.flow]
  simp [settlesReview,entersRest,hwake]

private theorem settlesReview_pump (hwake : s.wake (.pump answer) = some w) :
    s.settlesReview (.pump answer) = true ↔ w = some .settled ∧ s.flow.position = .review := by
  simp [settlesReview,hwake]

private theorem entersRest_iff : s.entersRest s' = true ↔
    s.flow.position ≠ .rest ∧ s'.flow.position = .rest := by
  simp [entersRest]

/-- The pump job follows an edge that settles no review. -/
theorem Tallied.of_edge (hwake : s.wake (.pump answer) = some w)
    (hsettles : ¬(w = some .settled ∧ s.flow.position = .review))
    (hrest : s'.flow.position ≠ .rest) (hrunning : s'.flow.paused = false) :
    s.Tallied (.pump answer) s' j where
  reviews h := absurd ((settlesReview_pump hwake).mp h) hsettles
  rests := ⟨fun h => absurd (entersRest_iff.mp h).2 hrest,
    fun h => absurd ((settlesReview_pump hwake).mp h.1) hsettles⟩
  frozen _ h := by
    rw [hrunning] at h
    cases h

/-- The pump job follows an edge after a settled review. -/
theorem Tallied.of_review (h : Books s.flow a s.pump j) (hwake : s.wake (.pump answer) = some w)
    (hsettles : w = some .settled ∧ s.flow.position = .review)
    (hreviewed : s'.flow.facts.reviewed = s.flow.facts.terminal)
    (hrest : s'.flow.position = .rest ↔ j.rounds + 1 = roundStopInterval)
    (hrunning : s'.flow.paused = false) : s.Tallied (.pump answer) s' j where
  reviews _ := by
    obtain ⟨r,hr,hspoken,hunmarked⟩ := h.reviewing hsettles.2
    exact ⟨r,hreviewed.trans hr,hspoken,hunmarked⟩
  rests := by
    rw [settlesReview_pump hwake,entersRest_iff,hrest]
    constructor
    · rintro ⟨-,h⟩
      exact ⟨hsettles,h⟩
    · rintro ⟨-,h⟩
      exact ⟨by rw [hsettles.2]; simp,h⟩
  frozen _ h := by
    rw [hrunning] at h
    cases h

private theorem step_moves (h : Books s.flow a s.pump j) (ha : s.members .announcer = .announcer a)
    (hwake : s.wake (.pump answer) = some w) (hmoves : s.flow.Moves w)
    (hstarts : s.Starts s' w answer a a') :
    Books s'.flow a' s'.pump (s.observe (.pump answer) s' j) ∧ s.Tallied (.pump answer) s' j := by
  have hgraph : s'.flow.activities = s.flow.activities := by
    rw [hstarts.flow,s.flow.decide_activities w]
  have hretrying : s'.flow.retrying = false := by rw [hstarts.flow,hmoves.retrying]
  have hrunning : s'.flow.paused = false := by rw [hstarts.flow,hmoves.running]
  have hsent (hp : s.flow.position = .announce) :
      w = some .settled ∧ a.statsSentFor = s.flow.facts.terminal := by
    obtain ⟨outcome,rfl,hsettled⟩ := h.wake_announcing hp ha hwake
    rcases hmoves.reason with hw | hw | hw
    · exact ⟨hw,hsettled (Option.some.inj hw)⟩
    · cases hw
    · rw [(h.announcing hp).1] at hw
      cases hw
  have hrounds := h.rounds
  have hedge := hmoves.edge h.graph (by rw [hrounds]; exact h.below) fun hp => (hsent hp).1
  rw [← hstarts.flow] at hedge
  have hjournal := observe_starts (j := j) hwake ha hstarts
  cases hedge with
  | play hposition hfacts hannounce hreview =>
    have haway := hstarts.away (by rw [hposition]; simp)
    subst haway
    have hsame : s.observe (.pump answer) s' j = j := by
      rw [hjournal,hposition,if_neg hreview,if_neg hreview]
      simp
    rw [hsame]
    exact ⟨h.play hgraph hfacts hannounce hposition _,
      .of_edge hwake hreview (by rw [hposition]; simp) hrunning⟩
  | announce hposition hfacts hannounce hreview r hterminal hreviewed =>
    obtain ⟨ha',hpump⟩ := hstarts.announce hposition
    have hnone : ¬(w = some .settled ∧ s.flow.position = .review) := fun h => hreview h.2
    have hok : (answer.map fun _ => ()).isOk = answer.isOk := by cases answer <;> rfl
    have hspoken : s.observe (.pump answer) s' j = { j with
        spoken := ((a.speech s'.flow.facts.terminal).map fun record =>
          (record,(answer.map fun _ => ()).isOk)).toList ++ j.spoken } := by
      rw [hjournal,hposition,if_neg hnone,if_neg hnone,hok]
      simp
    rw [hspoken,ha',hpump]
    exact ⟨h.announce hgraph hfacts hretrying hannounce hposition hterminal hreviewed _,
      .of_edge hwake hnone (by rw [hposition]; simp) hrunning⟩
  | review hposition hfacts hannounce =>
    have haway := hstarts.away (by rw [hposition]; simp)
    subst haway
    have hnone : ¬(w = some .settled ∧ s.flow.position = .review) := by
      rw [hannounce]
      simp
    have hsame : s.observe (.pump answer) s' j = j := by
      rw [hjournal,hposition,if_neg hnone,if_neg hnone]
      simp
    rw [hsame]
    exact ⟨h.review hgraph (by rw [hfacts]) (by rw [hfacts]) (by rw [hfacts]) hannounce
      (hsent hannounce).2 hposition _,.of_edge hwake hnone (by rw [hposition]; simp) hrunning⟩
  | round hposition hfacts hsettled hreview hbelow =>
    have haway := hstarts.away (by rw [hposition]; simp)
    subst haway
    have hmarked : s.observe (.pump answer) s' j = { j with
        reviewed := s'.flow.facts.reviewed.toList ++ j.reviewed
        rounds := j.rounds + 1 } := by
      rw [hjournal]
      simp [hposition,hsettled,hreview]
    rw [hmarked]
    rw [hrounds] at hbelow
    refine ⟨?_,.of_review h hwake ⟨hsettled,hreview⟩ (by rw [hfacts]) ?_ hrunning⟩
    · exact h.reviews hgraph (by rw [hfacts]) (by rw [hfacts]) hreview (by rw [hposition]; simp)
        (by rw [hfacts,hrounds]) hbelow _
    · rw [hposition]
      simp only [reduceCtorEq,false_iff]
      omega
  | rest hposition hfacts hsettled hreview hbelow =>
    have haway := hstarts.away (by rw [hposition]; simp)
    subst haway
    have hmarked : s.observe (.pump answer) s' j = { j with
        reviewed := s'.flow.facts.reviewed.toList ++ j.reviewed
        rounds := 0 } := by
      rw [hjournal]
      simp [hposition,hsettled,hreview]
    rw [hmarked]
    rw [hrounds] at hbelow
    refine ⟨?_,.of_review h hwake ⟨hsettled,hreview⟩ (by rw [hfacts]) ?_ hrunning⟩
    · exact h.reviews hgraph (by rw [hfacts]) (by rw [hfacts]) hreview (by rw [hposition]; simp)
        (by rw [hfacts]) (by decide) _
    · have hlast := h.below
      simp only [hposition,true_iff]
      omega

private theorem step_books (h : Books s.flow a s.pump j) (ha : s.members .announcer = .announcer a)
    (hstep : s.step l = some s') (hrecords : PlayerRecords (s,j) l) :
    (∃ a', s'.members .announcer = .announcer a' ∧
      Books s'.flow a' s'.pump (s.observe l s' j)) ∧ s.Tallied l s' j := by
  cases hwake : s.wake l with
  | some w =>
    rcases s.flow.decide_cases w with hstays | hmoves
    · exact step_stays h ha hstep hwake hstays
    · rcases noisy_of_step h.graph ha hstep hwake with hrefuses | ⟨answer,a',rfl,hstarts⟩
      · exact absurd hmoves.decision (hrefuses.starts _)
      · obtain ⟨hbooks,htallied⟩ := step_moves h ha hwake hmoves hstarts
        exact ⟨⟨a',hstarts.announcer,hbooks⟩,htallied⟩
  | none =>
    have hsettles : s.settlesReview l = false := by simp [settlesReview,hwake]
    by_cases hl : ∃ record, l = .recordTerminal record
    · obtain ⟨record,rfl⟩ := hl
      obtain ⟨hfresh,hactive⟩ := hrecords record rfl
      cases hstep
      have hkept : Kept s.flow (s.recordTerminal record).flow := ⟨rfl,rfl,rfl,rfl⟩
      have hrest : s.entersRest (s.recordTerminal record) = false := by
        simp [entersRest,hkept.position]
      have hjournal : s.observe (.recordTerminal record) (s.recordTerminal record) j =
          { j with recorded := record :: j.recorded } := by
        unfold observe
        rw [hsettles,hrest]
        rfl
      rw [hjournal]
      exact ⟨⟨a,ha,h.record hfresh hactive⟩,.of_kept hkept hsettles⟩
    · have hrecord : ∀ record, l ≠ .recordTerminal record := fun record he => hl ⟨record,he⟩
      have hquiet := quiet_of_step ha hstep hwake hrecord
      have hkept : Kept s.flow s'.flow := by
        rcases hquiet.flow with hflow | hflow
        · rw [hflow]
          exact .refl _
        · rw [hflow]
          exact ⟨rfl,rfl,rfl,rfl⟩
      have hspeech : s.speech l = none := by
        cases l with
        | pump answer =>
          unfold speech
          simp only [hwake]
        | _ => rfl
      rw [observe_kept hkept hsettles hspeech hrecord]
      exact ⟨⟨a,hquiet.announcer,h.quiet hquiet⟩,.of_kept hkept hsettles⟩

end Steps

section Run

/-- The orchestrator beside its journal. -/
def journaled : Lts (TeamOrchestrator × Journal) Label :=
  system.journaled observe {}

/-- What the journal says of a state. -/
def Booked (x : TeamOrchestrator × Journal) : Prop :=
  ∃ a, x.1.members .announcer = .announcer a ∧ Books x.1.flow a x.1.pump x.2

private theorem books_materialize : Books materialize.flow {} materialize.pump {} where
  graph := rfl
  terminal r hr := by cases hr
  spoken r hr := by cases hr
  once := List.nodup_nil
  reviewed r hr := by cases hr
  marked r hr := by cases hr
  guarded r hr := by cases hr
  sent r hr := by cases hr
  announcing hp := by cases hp
  reviewing hp := by cases hp
  rounds := rfl
  below := by decide

private theorem booked_step {x y : TeamOrchestrator × Journal} (h : Booked x)
    (hrecords : PlayerRecords x l)
    (hstep : journaled.step x l = some y) : Booked y ∧ x.1.Tallied l y.1 x.2 := by
  obtain ⟨a,ha,hbooks⟩ := h
  obtain ⟨hstep,hjournal⟩ := Lts.journaled_step.mp hstep
  obtain ⟨⟨a',ha',hbooks'⟩,htallied⟩ := step_books hbooks ha hstep hrecords
  rw [← hjournal] at hbooks'
  exact ⟨⟨a',ha',hbooks'⟩,htallied⟩

private theorem booked_inductive : Lts.Inductive journaled PlayerRecords Booked where
  init := by
    rintro ⟨s,j⟩ ⟨hs,hj⟩
    cases hs
    cases hj
    exact ⟨{},rfl,books_materialize⟩
  step _ _ _ h hrecords hstep := (booked_step h hrecords hstep).1

/-- A step from a frozen flow to a frozen one. -/
def FrozenStep (x y : TeamOrchestrator × Journal) : Prop :=
  journaled.StepUnder PlayerRecords x y ∧ x.1.flow.paused = true ∧ y.1.flow.paused = true

private theorem kept_of_frozen {x y : TeamOrchestrator × Journal} (h : Booked x)
    (hpath : Relation.ReflTransGen FrozenStep x y) : Booked y ∧ Kept x.1.flow y.1.flow := by
  induction hpath with
  | refl => exact ⟨h,.refl _⟩
  | tail _ hstep ih =>
    obtain ⟨⟨l,hrecords,hl⟩,hpaused,hpaused'⟩ := hstep
    obtain ⟨hbooked,hkept⟩ := ih
    obtain ⟨hbooked',htallied⟩ := booked_step hbooked hrecords hl
    exact ⟨hbooked',hkept.trans (htallied.frozen hpaused hpaused')⟩

/-- In every run each record is announced at most once, the counter counts the settled reviews
since the last rest, a settled review marks an announced record that was not reviewed, every
fifth of them enters `rest`, and a frozen flow keeps its place and its marks. -/
theorem records_bookkept {x : TeamOrchestrator × Journal}
    (h : journaled.ReachUnder PlayerRecords x) :
    (x.2.spoken.map Prod.fst).Nodup ∧
    (x.1.flow.facts.rounds = x.2.rounds ∧ x.2.rounds < roundStopInterval) ∧
    (∀ l y, PlayerRecords x l → journaled.step x l = some y →
      (x.1.settlesReview l = true →
        ∃ r, y.1.flow.facts.reviewed = some r ∧ (r,true) ∈ x.2.spoken ∧ r ∉ x.2.reviewed) ∧
      (x.1.entersRest y.1 = true ↔
        x.1.settlesReview l = true ∧ x.2.rounds + 1 = roundStopInterval)) ∧
    ∀ y, Relation.ReflTransGen FrozenStep x y → Kept x.1.flow y.1.flow := by
  have hbooked := booked_inductive.of_reachUnder h
  obtain ⟨a,ha,hbooks⟩ := hbooked
  refine ⟨hbooks.once,⟨hbooks.rounds,hbooks.below⟩,?_,?_⟩
  · intro l y hrecords hstep
    obtain ⟨-,htallied⟩ := booked_step ⟨a,ha,hbooks⟩ hrecords hstep
    exact ⟨htallied.reviews,htallied.rests⟩
  · intro y hpath
    exact (kept_of_frozen ⟨a,ha,hbooks⟩ hpath).2

/-- `PlayerRecords` as a check. -/
def playerRecords (x : TeamOrchestrator × Journal) : Label → Bool
  | .recordTerminal record =>
    !x.2.recorded.contains record && decide (x.1.flow.activeMemberId = .player)
  | _ => true

private theorem playerRecords_sound (x : TeamOrchestrator × Journal) (l : Label)
    (h : playerRecords x l = true) : PlayerRecords x l := by
  rintro record rfl
  simpa [playerRecords] using h

/-- A play turn ends a game, its record is announced, and the review of it settles. -/
def reviewLabels : List Label :=
  playLabels ++ [.recordTerminal 7,.settle .player,.pump (.ok []),.pump (.ok [⟨2,.teamBroadcast⟩]),
    .settle .planner]

theorem records_bookkept_demo : ∃ x y : TeamOrchestrator × Journal,
    journaled.step x (.pump (.ok [])) = some y ∧ y.1.flow.facts.reviewed = some 7 ∧
      ∃ r, y.1.flow.facts.reviewed = some r ∧ (r,true) ∈ x.2.spoken ∧ r ∉ x.2.reviewed := by
  obtain ⟨x,hx,hsettles⟩ := Lts.reachUnder_of_runUnder_any (M := journaled) (C := PlayerRecords)
    (c := playerRecords)
    (p := fun x => x.1.settlesReview (.pump (.ok [])) &&
      (journaled.step x (.pump (.ok []))).any fun y => y.1.flow.facts.reviewed = some 7)
    playerRecords_sound reviewLabels (s := (materialize,{})) (.init ⟨rfl,rfl⟩) (by decide)
  obtain ⟨hsettles,hmarks⟩ := Bool.and_eq_true_iff.mp hsettles
  obtain ⟨y,hstep,hmarks⟩ := (Option.any_eq_true _ _).mp hmarks
  have hrecords : PlayerRecords x (.pump (.ok [])) := playerRecords_sound _ _ rfl
  obtain ⟨-,-,hsteps,-⟩ := records_bookkept hx
  exact ⟨x,y,hstep,of_decide_eq_true hmarks,(hsteps _ y hrecords hstep).1 hsettles⟩

end Run

end TeamOrchestrator

end Dominion.Saolei
