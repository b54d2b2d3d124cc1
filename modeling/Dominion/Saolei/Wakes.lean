import Dominion.Saolei.Driving

/-! # The wakes of the flow

What each step of the orchestrator gives to the decision entry, and what the decision entry
makes of it. -/
namespace Dominion.Saolei

open Dominion.Framework

namespace Flow

variable {Id M : Type}

/-- The facts that the edges are judged by. -/
def judgedFacts (f : Flow Id M) (wake : Option Outcome) : Facts :=
  if wake = some .settled then f.activity.onSettle f.facts else f.facts

/-- The target of the edge that is judged. -/
def target (f : Flow Id M) (wake : Option Outcome) : Id :=
  (f.activity.next (f.judgedFacts wake)).getD f.position

/-- The decision entry stays: it can only restart the current activity, on an external wake. -/
structure Stays (f : Flow Id M) (wake : Option Outcome) : Prop where
  position : (f.decide wake).2.position = f.position
  facts : (f.decide wake).2.facts = f.facts
  notSettled : wake ≠ some .settled
  restart : ∀ a, (f.decide wake).1 = .start a → wake = none ∧ a = f.position
  retrying : wake ≠ none → (f.decide wake).2.retrying = false

/-- The decision entry follows an edge. -/
structure Moves (f : Flow Id M) (wake : Option Outcome) : Prop where
  decision : (f.decide wake).1 = .start (f.target wake)
  position : (f.decide wake).2.position = f.target wake
  facts : (f.decide wake).2.facts =
    (f.activities (f.target wake)).onEnter (f.judgedFacts wake)
  retrying : (f.decide wake).2.retrying = false
  running : (f.decide wake).2.paused = false
  reason : wake = some .settled ∨ wake = none ∨ f.retrying = true

theorem decide_activities (f : Flow Id M) (wake : Option Outcome) :
    (f.decide wake).2.activities = f.activities := by
  cases wake with
  | none =>
    unfold decide
    dsimp only [Option.elim]
    split
    · rfl
    · split <;> rfl
  | some outcome =>
    unfold decide
    dsimp only [Option.elim]
    have hrecord : ({ f with retrying := false }.record outcome).activities = f.activities := by
      cases outcome <;> rfl
    split
    · exact hrecord
    · split
      · exact hrecord
      · exact hrecord

private theorem Moves.of_judge {f g : Flow Id M} {wake : Option Outcome}
    (h : f.decide wake = g.judge)
    (hactivities : g.activities = f.activities) (hposition : g.position = f.position)
    (hfacts : g.facts = f.judgedFacts wake) (hretrying : g.retrying = false)
    (hreason : wake = some .settled ∨ wake = none ∨ f.retrying = true) : f.Moves wake := by
  have htarget : (g.activity.next g.facts).getD g.position = f.target wake := by
    unfold target activity
    rw [hactivities,hposition,hfacts]
  constructor
  · rw [h,← htarget]
    rfl
  · rw [h,← htarget]
    rfl
  · rw [h,← htarget,← hfacts,← hactivities]
    rfl
  · rw [h]
    exact hretrying
  · rw [h]
    rfl
  · exact hreason

/-- A wake other than the external one that leaves the flow where it is. -/
theorem Stays.of_record {f g : Flow Id M} {outcome : Outcome} {decision : FlowDecision Id}
    (h : f.decide (some outcome) = (decision,g)) (hstart : ∀ a, decision ≠ .start a)
    (hposition : g.position = f.position) (hfacts : g.facts = f.facts)
    (hretrying : g.retrying = false) (hsettled : outcome ≠ .settled) : f.Stays (some outcome) where
  position := by rw [h,← hposition]
  facts := by rw [h,← hfacts]
  notSettled hs := hsettled (Option.some.inj hs)
  restart a ha := by
    rw [h] at ha
    exact absurd ha (hstart a)
  retrying _ := by
    rw [h]
    exact hretrying

theorem decide_cases (f : Flow Id M) (wake : Option Outcome) : f.Stays wake ∨ f.Moves wake := by
  let g : Flow Id M := { f with retrying := false }
  cases wake with
  | none =>
    cases hpaused : f.paused with
    | true =>
      have hdecide : f.decide none = (.start f.position,{ g with retrying := true }) := by
        have hpaused : g.paused = true := hpaused
        simp [decide,hpaused,g]
      refine Or.inl ⟨?_,?_,by simp,?_,fun h => absurd rfl h⟩
      · rw [hdecide]
      · rw [hdecide]
      · rw [hdecide]
        rintro a ⟨⟩
        exact ⟨rfl,rfl⟩
    | false =>
      have hdecide : f.decide none = g.judge := by
        have hpaused : g.paused = false := hpaused
        simp [decide,hpaused,g]
      exact Or.inr (.of_judge hdecide rfl rfl rfl rfl (Or.inr (Or.inl rfl)))
  | some outcome =>
    cases outcome with
    | settled =>
      have hdecide : f.decide (some .settled) = (g.record .settled).judge := rfl
      exact Or.inr (.of_judge hdecide rfl rfl rfl rfl (Or.inl rfl))
    | failed code detail =>
      have hdecide : f.decide (some (.failed code detail)) =
          (.frozen,g.record (.failed code detail)) := rfl
      exact Or.inl (.of_record hdecide (by simp) rfl rfl rfl (by simp))
    | aborted =>
      have hdecide : f.decide (some .aborted) = (.frozen,g.record .aborted) := rfl
      exact Or.inl (.of_record hdecide (by simp) rfl rfl rfl (by simp))
    | resting =>
      cases hretrying : f.retrying with
      | false =>
        have hdecide : f.decide (some .resting) = (.rest,g.record .resting) := by
          simp [decide,paused,record,hretrying,g]
        exact Or.inl (.of_record hdecide (by simp) rfl rfl rfl (by simp))
      | true =>
        have hdecide : f.decide (some .resting) = (g.record .resting).judge := by
          simp [decide,paused,record,hretrying,g]
        exact Or.inr (.of_judge hdecide rfl rfl rfl rfl (Or.inr (Or.inr hretrying)))

end Flow

/-- The edges of the saolei graph that a wake can follow. -/
inductive Edge (f f' : SaoleiFlow) (wake : Option Outcome) : Prop
  | play (hposition : f'.position = .play) (hfacts : f'.facts = f.facts)
      (hannounce : f.position ≠ .announce) (hreview : ¬(wake = some .settled ∧ f.position = .review))
  | announce (hposition : f'.position = .announce) (hfacts : f'.facts = f.facts)
      (hannounce : f.position ≠ .announce) (hreview : f.position ≠ .review)
      (r : GameEventRecord) (hterminal : f.facts.terminal = some r)
      (hreviewed : f.facts.reviewed ≠ some r)
  | review (hposition : f'.position = .review)
      (hfacts : f'.facts = { f.facts with statsSentFor := f.facts.terminal })
      (hannounce : f.position = .announce)
  | round (hposition : f'.position = .play)
      (hfacts : f'.facts = { f.facts with
        reviewed := f.facts.terminal
        rounds := f.facts.rounds + 1 })
      (hsettled : wake = some .settled) (hreview : f.position = .review)
      (hrounds : f.facts.rounds + 1 < roundStopInterval)
  | rest (hposition : f'.position = .rest)
      (hfacts : f'.facts = { f.facts with
        reviewed := f.facts.terminal
        rounds := 0 })
      (hsettled : wake = some .settled) (hreview : f.position = .review)
      (hrounds : ¬f.facts.rounds + 1 < roundStopInterval)

/-- The target of the edges out of `play` and `rest`. -/
def unreviewedTarget (facts : Facts) : SaoleiActivityId :=
  if hasUnreviewedTerminal facts then .announce else .play

private theorem edge_of_unreviewed {f f' : SaoleiFlow} {wake : Option Outcome}
    (hannounce : f.position ≠ .announce) (hreview : f.position ≠ .review)
    (hposition : f'.position = unreviewedTarget f.facts)
    (hfacts : f'.facts = (saoleiActivities (unreviewedTarget f.facts)).onEnter f.facts) :
    Edge f f' wake := by
  unfold unreviewedTarget at hposition hfacts
  by_cases hunreviewed : hasUnreviewedTerminal f.facts = true
  · rw [if_pos hunreviewed] at hposition hfacts
    unfold hasUnreviewedTerminal at hunreviewed
    cases hterminal : f.facts.terminal with
    | none => simp [hterminal] at hunreviewed
    | some r =>
      have hreviewed : some r ≠ f.facts.reviewed := by simpa [hterminal] using hunreviewed
      exact .announce hposition hfacts hannounce hreview r hterminal hreviewed.symm
  · rw [if_neg hunreviewed] at hposition hfacts
    exact .play hposition hfacts hannounce fun h => hreview h.2

private theorem next_of_unreviewed {p : SaoleiActivityId} (facts : Facts)
    (hp : p = .play ∨ p = .rest) :
    ((saoleiActivities p).next facts).getD p = unreviewedTarget facts := by
  unfold unreviewedTarget
  rcases hp with rfl | rfl <;>
  · simp only [saoleiActivities]
    split <;> rfl

theorem Flow.Moves.edge {f : SaoleiFlow} {wake : Option Outcome} (h : f.Moves wake)
    (hgraph : f.activities = saoleiActivities) (hbelow : f.facts.rounds < roundStopInterval)
    (hannounce : f.position = .announce → wake = some .settled) :
    Edge f (f.decide wake).2 wake := by
  have hactivity : f.activity = saoleiActivities f.position := by
    unfold Flow.activity
    rw [hgraph]
  have hposition := h.position
  have hfacts := h.facts
  unfold Flow.target Flow.judgedFacts at hposition hfacts
  rw [hactivity] at hposition hfacts
  rw [hgraph] at hfacts
  cases hp : f.position with
  | plan =>
    rw [hp] at hposition hfacts
    have hsame : (if wake = some .settled then (saoleiActivities .plan).onSettle f.facts
        else f.facts) = f.facts := ite_self f.facts
    rw [hsame] at hposition hfacts
    exact .play hposition hfacts (by rw [hp]; simp) (by rw [hp]; simp)
  | play =>
    rw [hp] at hposition hfacts
    have hsame : (if wake = some .settled then (saoleiActivities .play).onSettle f.facts
        else f.facts) = f.facts := ite_self f.facts
    rw [hsame,next_of_unreviewed f.facts (by simp)] at hposition hfacts
    exact edge_of_unreviewed (by rw [hp]; simp) (by rw [hp]; simp) hposition hfacts
  | announce =>
    rw [hp] at hposition hfacts
    rw [if_pos (hannounce hp)] at hposition hfacts
    exact .review hposition hfacts hp
  | review =>
    rw [hp] at hposition hfacts
    by_cases hsettled : wake = some .settled
    · rw [if_pos hsettled] at hposition hfacts
      by_cases hrounds : f.facts.rounds + 1 < roundStopInterval
      · have hnext : (saoleiActivities .review).next ((saoleiActivities .review).onSettle f.facts) =
            some .play := if_pos hrounds
        rw [hnext] at hposition hfacts
        exact .round hposition hfacts hsettled hp hrounds
      · have hnext : (saoleiActivities .review).next ((saoleiActivities .review).onSettle f.facts) =
            some .rest := if_neg hrounds
        rw [hnext] at hposition hfacts
        exact .rest hposition hfacts hsettled hp hrounds
    · rw [if_neg hsettled] at hposition hfacts
      have hnext : (saoleiActivities .review).next f.facts = some .play := if_pos hbelow
      rw [hnext] at hposition hfacts
      exact .play hposition hfacts (by rw [hp]; simp) fun h => hsettled h.1
  | rest =>
    rw [hp] at hposition hfacts
    have hsame : (if wake = some .settled then (saoleiActivities .rest).onSettle f.facts
        else f.facts) = f.facts := ite_self f.facts
    rw [hsame,next_of_unreviewed f.facts (by simp)] at hposition hfacts
    exact edge_of_unreviewed (by rw [hp]; simp) (by rw [hp]; simp) hposition hfacts

namespace TeamOrchestrator

variable {s s' : TeamOrchestrator} {answer : Except String (List UserMessage)}

/-- The wake that a step gives to the decision entry. -/
def wake (s : TeamOrchestrator) : Label → Option (Option Outcome)
  | .submit message answer =>
    if s.disposed || !s.materialized then none
    else
      match ((s.members s.flow.activeMemberId).deliver s.nextTurn answer s.landed message).1 with
      | .error err => some (some (failureOutcome err.message))
      | .ok _ => none
  | .pump _ =>
    match s.pump with
    | some (.awaitSettled _ awaited) =>
      match s.settlement awaited with
      | some (.rejected message) => some (some (failureOutcome message))
      | some (.fulfilled outcome) =>
        if s.disposed then none else some (if outcome = .settled then none else some outcome)
      | none => none
    | some (.awaitExecute _ awaited) =>
      if s.disposed || !s.materialized || s.externalPending then none
      else (s.settlement awaited).map fun st => some st.outcome
    | _ => none
  | _ => none

/-- The pump's next job runs the flow's new activity. -/
structure Executes (s : TeamOrchestrator) (wake : Option Outcome)
    (answer : Except String (List UserMessage)) (s' : TeamOrchestrator) : Prop where
  starts : (s.flow.decide wake).1 = .start (s.flow.decide wake).2.position
  flow : s'.flow = (s.flow.decide wake).2
  driverless : s'.flow.activity.driverless = true → s'.members = s.members
  driven : s'.flow.activity.driverless = false →
    let d := (s.members s'.flow.activity.member).drive s.nextTurn answer s'.flow.facts.terminal
      s.landed
    s'.members = Function.update s.members s'.flow.activity.member d.member ∧
      s'.pump = some (.awaitExecute s'.flow.activity.member d.awaited)

/-- The decision entry starts nothing, and the pump returns. -/
structure Returns (s : TeamOrchestrator) (wake : Option Outcome) (s' : TeamOrchestrator) :
    Prop where
  starts : ∀ a, (s.flow.decide wake).1 ≠ .start a
  flow : s'.flow = (s.flow.decide wake).2
  members : s'.members = s.members
  pump : s'.pump = some .returned

/-- The pump's next job leaves the flow alone. -/
structure Idles (s s' : TeamOrchestrator) : Prop where
  flow : s'.flow = s.flow
  members : s'.members = s.members
  pump : s'.pump = some .returned ∨ s'.pump = none ∨ s'.pump = some
    (.awaitSettled s.flow.activeMemberId (s.members s.flow.activeMemberId).whenSettled)

private theorem decide_start (f : SaoleiFlow) (wake : Option Outcome) {a : SaoleiActivityId}
    (h : (f.decide wake).1 = .start a) : a = (f.decide wake).2.position := by
  rcases f.decide_cases wake with hstays | hmoves
  · rw [hstays.position]
    exact (hstays.restart a h).2
  · have hdecision := hmoves.decision
    rw [h] at hdecision
    cases hdecision
    exact hmoves.position.symm

private theorem feed_cases (wake : Option Outcome) (turn : Option Nat) :
    s.Executes wake answer (s.feed wake turn answer) ∨ s.Returns wake (s.feed wake turn answer) := by
  unfold feed
  dsimp only
  split
  · rename_i a hstart
    left
    have hposition := decide_start s.flow wake hstart
    subst hposition
    unfold execute
    dsimp only
    split
    · rename_i hdriverless
      refine ⟨hstart,rfl,fun _ => rfl,fun h => ?_⟩
      exact absurd hdriverless (by rw [h]; decide)
    · rename_i hdriven
      exact ⟨hstart,rfl,fun h => absurd h hdriven,fun _ => ⟨rfl,rfl⟩⟩
  · rename_i hstart
    exact Or.inr ⟨hstart,rfl,rfl,rfl⟩

/-- The pump runs on with the outcome of the flow's last start. -/
theorem runPump_cases {p : PendingOutcome} (hlive : s.disposed = false)
    (hpending : s.pendingOutcome = some p) :
    (s.externalPending = false ∧ s.materialized = true ∧
      (s.Executes (some p.outcome) answer (s.runPump answer) ∨
        s.Returns (some p.outcome) (s.runPump answer))) ∨
    ((s.materialized = false ∨ s.externalPending = true) ∧ s.Idles (s.runPump answer)) := by
  rcases Bool.eq_false_or_eq_true s.materialized with hmaterialized | hmaterialized
  · rcases Bool.eq_false_or_eq_true s.externalPending with hexternal | hexternal
    · refine Or.inr ⟨Or.inr hexternal,?_⟩
      unfold runPump
      simp only [hlive,hmaterialized,hexternal]
      exact ⟨rfl,rfl,Or.inr (Or.inr rfl)⟩
    · refine Or.inl ⟨hexternal,hmaterialized,?_⟩
      rw [runPump_feed hlive hmaterialized hexternal hpending]
      let s₁ : TeamOrchestrator := { s with pendingOutcome := none }
      rcases @feed_cases s₁ answer (some p.outcome) p.turn with h | h
      · exact Or.inl ⟨h.starts,h.flow,h.driverless,h.driven⟩
      · exact Or.inr ⟨h.starts,h.flow,h.members,h.pump⟩
  · refine Or.inr ⟨Or.inl hmaterialized,?_⟩
    unfold runPump
    simp only [hlive,hmaterialized]
    exact ⟨rfl,rfl,Or.inl rfl⟩

/-- What a job of the pump does with the wake that it has, if any. -/
theorem resume_cases (h : s.resume answer = some s') :
    (s.wake (.pump answer) = none ∧ s.Idles s') ∨
    ∃ w, s.wake (.pump answer) = some w ∧ (s.Executes w answer s' ∨ s.Returns w s') := by
  unfold resume at h
  split at h
  · rename_i b awaited hpump
    obtain ⟨st,hst,h⟩ := Option.map_eq_some_iff.mp h
    cases st with
    | rejected message =>
      cases h
      have hwake : s.wake (.pump answer) = some (some (failureOutcome message)) := by
        simp [wake,hpump,hst]
      have hfrozen := (Flow.decide_frozen s.flow (failureOutcome message) rfl).1
      refine Or.inr ⟨_,hwake,Or.inr ⟨?_,rfl,rfl,rfl⟩⟩
      rw [hfrozen]
      simp
    | fulfilled outcome =>
      dsimp only at h
      rcases Bool.eq_false_or_eq_true s.disposed with hdisposed | hdisposed
      · rw [if_pos hdisposed] at h
        cases h
        have hwake : s.wake (.pump answer) = none := by simp [wake,hpump,hst,hdisposed]
        exact Or.inl ⟨hwake,rfl,rfl,Or.inl rfl⟩
      · rw [if_neg (by simp [hdisposed])] at h
        cases h
        have hwake : s.wake (.pump answer) =
            some (if outcome = .settled then none else some outcome) := by
          simp [wake,hpump,hst,hdisposed]
        exact Or.inr ⟨_,hwake,feed_cases _ _⟩
  · rename_i b awaited hpump
    obtain ⟨st,hst,h⟩ := Option.map_eq_some_iff.mp h
    rcases Bool.eq_false_or_eq_true s.disposed with hdisposed | hdisposed
    · rw [if_pos hdisposed] at h
      cases h
      have hwake : s.wake (.pump answer) = none := by simp [wake,hpump,hdisposed]
      exact Or.inl ⟨hwake,rfl,rfl,Or.inl rfl⟩
    · rw [if_neg (by simp [hdisposed])] at h
      cases h
      let s₁ : TeamOrchestrator :=
        { s with pendingOutcome := some ⟨st.outcome,awaited.turn?⟩ }
      rcases @runPump_cases s₁ answer _ hdisposed rfl with
        ⟨hexternal,hmaterialized,hfed⟩ | ⟨hblocked,hidles⟩
      · have hexternal : s.externalPending = false := hexternal
        have hmaterialized : s.materialized = true := hmaterialized
        have hwake : s.wake (.pump answer) = some (some st.outcome) := by
          simp [wake,hpump,hst,hdisposed,hexternal,hmaterialized]
        refine Or.inr ⟨_,hwake,?_⟩
        rcases hfed with h | h
        · exact Or.inl ⟨h.starts,h.flow,h.driverless,h.driven⟩
        · exact Or.inr ⟨h.starts,h.flow,h.members,h.pump⟩
      · have hwake : s.wake (.pump answer) = none := by
          rcases hblocked with hreleased | hexternal
          · have hreleased : s.materialized = false := hreleased
            simp [wake,hpump,hreleased]
          · have hexternal : s.externalPending = true := hexternal
            simp [wake,hpump,hexternal]
        exact Or.inl ⟨hwake,hidles.flow,hidles.members,hidles.pump⟩
  · rename_i hpump
    cases h
    have hwake : s.wake (.pump answer) = none := by simp [wake,hpump]
    exact Or.inl ⟨hwake,rfl,rfl,Or.inr (Or.inl rfl)⟩
  · cases h

end TeamOrchestrator

end Dominion.Saolei
