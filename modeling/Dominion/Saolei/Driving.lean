import Dominion.Saolei.Ledger
import Dominion.Saolei.Orchestrator

/-! # One member is driven at a time

Between two jobs of the pump at most the turn it awaits is in flight, and every other settled
turn has been consumed by the decision entry.  A message delivered while the pump has another
outcome to bring breaks this: its turn takes the pump's place in line. -/
namespace Dominion.Saolei

open Dominion.Framework

namespace Pump

/-- The turn that the pump awaits. -/
def turn? : Pump → Option Nat
  | awaitSettled _ awaited => awaited.turn?
  | awaitExecute _ awaited => awaited.turn?
  | returned => none

end Pump

namespace TeamOrchestrator

/-- The turn in flight of a member. -/
def inFlight (s : TeamOrchestrator) (b : MemberId) : Option Turn :=
  (s.members b).activeTurn

/-- The turn that the pump will give to the decision entry: that of a delivery beside it, or the
one it awaits. -/
def owed (s : TeamOrchestrator) : Option Nat :=
  if s.externalPending then (s.inFlight s.flow.activeMemberId).map Turn.id
  else s.pump.bind Pump.turn?

/-- Where the pump is while a delivery waits for it: at a resting drive, or past its end once the
orchestrator is disposed. -/
def Expects (s : TeamOrchestrator) : Prop :=
  (∃ pump, s.pump = some pump ∧ pump.rests = true) ∨
    (s.disposed = true ∧ (s.pump = none ∨ s.pump = some .returned))

/-- What holds between two jobs. -/
structure Inv (s : TeamOrchestrator) : Prop where
  ledger : Ledger s.turns s.nextTurn s.fed s.disposed s.owed
  ready : ∀ b, (s.members b).Ready
  driven : ∀ b turn, s.inFlight b = some turn →
    s.owed = some turn.id ∧ s.flow.activeMemberId = b ∧ s.turns turn.id = none
  external : s.externalPending = true → s.Expects
  pending : ∀ p, s.pendingOutcome = some p → p.turn = none
  guarded : s.violated = false
  live : s.disposed = false → s.materialized = true

/-- What holds when the pump takes over: no turn is in flight. -/
structure AtRest (s : TeamOrchestrator) (owed : Option Nat) : Prop where
  ledger : Ledger s.turns s.nextTurn s.fed s.disposed owed
  ready : ∀ b, (s.members b).Ready
  idle : ∀ b, s.inFlight b = none
  guarded : s.violated = false
  live : s.disposed = false → s.materialized = true

variable {s s' : TeamOrchestrator} {b : MemberId} {answer : Except String (List UserMessage)}

private theorem Inv.idle (h : s.Inv) (howed : ∀ id, s.owed = some id → (s.turns id).isSome)
    (b : MemberId) :
    s.inFlight b = none := by
  cases hb : s.inFlight b with
  | none => rfl
  | some turn =>
    obtain ⟨ho,-,hnone⟩ := h.driven b turn hb
    have hsome := howed _ ho
    rw [hnone] at hsome
    cases hsome

private theorem Inv.atRest (h : s.Inv) (howed : ∀ id, s.owed = some id → (s.turns id).isSome) :
    s.AtRest s.owed :=
  ⟨h.ledger,h.ready,h.idle howed,h.guarded,h.live⟩

theorem owed_of_pump (h : s.externalPending = false) : s.owed = s.pump.bind Pump.turn? := by
  unfold owed
  rw [h]
  rfl

private theorem owed_of_external (h : s.externalPending = true) :
    s.owed = (s.inFlight s.flow.activeMemberId).map Turn.id := by
  unfold owed
  rw [h]
  rfl

private theorem AtRest.inv (h : s.AtRest none) (hexternal : s.externalPending = true → s.Expects)
    (hpending : ∀ p, s.pendingOutcome = some p → p.turn = none)
    (hpump : s.pump.bind Pump.turn? = none) : s.Inv where
  ledger := by
    have howed : s.owed = none := by
      rcases Bool.eq_false_or_eq_true s.externalPending with hwaits | hwaits
      · rw [owed_of_external hwaits,h.idle]
        rfl
      · exact (owed_of_pump hwaits).trans hpump
    exact howed ▸ h.ledger
  ready := h.ready
  driven b turn hb := by
    rw [h.idle b] at hb
    cases hb
  external := hexternal
  pending := hpending
  guarded := h.guarded
  live := h.live

theorem inFlight_of_agent {m : AgentMember} {turn : Turn} (hm : s.members b = .agent m)
    (hturn : m.activeTurn = some turn) : s.inFlight b = some turn := by
  unfold inFlight
  rw [hm]
  exact hturn

theorem agent_of_inFlight {turn : Turn} (h : s.inFlight b = some turn) :
    ∃ m, s.members b = .agent m ∧ m.activeTurn = some turn := by
  unfold inFlight at h
  cases hm : s.members b with
  | announcer m =>
    rw [hm] at h
    cases h
  | agent m =>
    rw [hm] at h
    exact ⟨m,rfl,h⟩

private theorem inFlight_setMember (m : Member) (b' : MemberId) :
    (s.setMember b m).inFlight b' = if b' = b then m.activeTurn else s.inFlight b' := by
  unfold inFlight setMember
  by_cases hb : b' = b
  · subst b'
    simp only [Function.update_self,if_true]
  · simp only [Function.update_of_ne hb,if_neg hb]

private theorem ready_setMember {m : Member} (h : ∀ b, (s.members b).Ready) (hm : m.Ready)
    (b' : MemberId) :
    ((s.setMember b m).members b').Ready := by
  unfold setMember
  by_cases hb : b' = b
  · subst b'
    simpa only [Function.update_self] using hm
  · simpa only [Function.update_of_ne hb] using h b'

theorem inFlight_setMember_same {m : Member} (hturn : m.activeTurn = s.inFlight b)
    (b' : MemberId) : (s.setMember b m).inFlight b' = s.inFlight b' := by
  rw [inFlight_setMember]
  split
  · rename_i hb
    rw [hb,hturn]
  · rfl

theorem owed_congr (hexternal : s'.externalPending = s.externalPending)
    (hpump : s'.pump = s.pump) (hflow : s'.flow.activeMemberId = s.flow.activeMemberId)
    (hflight : ∀ b, s'.inFlight b = s.inFlight b) : s'.owed = s.owed := by
  unfold owed
  rw [hexternal,hpump,hflow,hflight]

private theorem Inv.setMember (h : s.Inv) {m : Member} (hm : m.Ready)
    (hturn : m.activeTurn = s.inFlight b) : (s.setMember b m).Inv := by
  have hflight := inFlight_setMember_same hturn
  have howed : (s.setMember b m).owed = s.owed := owed_congr rfl rfl rfl hflight
  refine ⟨?_,ready_setMember h.ready hm,?_,h.external,h.pending,h.guarded,h.live⟩
  · rw [howed]
    exact h.ledger
  · intro b' turn hb'
    rw [hflight] at hb'
    rw [howed]
    exact h.driven b' turn hb'

private theorem AtRest.fresh (h : s.AtRest none) : s.turns s.nextTurn = none := by
  by_contra hne
  obtain ⟨st,hst⟩ := Option.ne_none_iff_exists'.mp hne
  exact Nat.lt_irrefl _ (h.ledger.settled_lt _ st hst)

/-- A member took the next turn number, and the rest is as it was. -/
structure TakesTurn (s s' : TeamOrchestrator) (b : MemberId) (m : Member) : Prop where
  members : s'.members = Function.update s.members b m
  flow : s'.flow = s.flow
  turns : s'.turns = s.turns
  fed : s'.fed = s.fed
  disposed : s'.disposed = s.disposed
  nextTurn : s'.nextTurn = s.nextTurn + 1
  external : s'.externalPending = true → s'.Expects
  pending : ∀ p, s'.pendingOutcome = some p → p.turn = none
  guarded : s'.violated = false
  materialized : s'.materialized = s.materialized

private theorem TakesTurn.inFlight {m : Member} (h : TakesTurn s s' b m) (b' : MemberId) :
    s'.inFlight b' = if b' = b then m.activeTurn else s.inFlight b' := by
  rw [show s'.inFlight b' = (s.setMember b m).inFlight b' by
    unfold TeamOrchestrator.inFlight setMember
    rw [h.members],inFlight_setMember]

/-- The active member of an orchestrator at rest starts a turn, and the pump awaits it. -/
theorem AtRest.start (h : s.AtRest none) {m : Member} {hold : Bool}
    (htakes : TakesTurn s s' s.flow.activeMemberId m) (hready : m.Ready)
    (hturn : m.activeTurn = some ⟨s.nextTurn,hold⟩) (howed : s'.owed = some s.nextTurn) :
    s'.Inv where
  ledger := by
    rw [howed,htakes.turns,htakes.fed,htakes.disposed,htakes.nextTurn]
    exact h.ledger.start
  ready := by
    rw [htakes.members]
    exact ready_setMember h.ready hready
  driven b turn hb := by
    rw [htakes.inFlight] at hb
    rw [howed,htakes.flow,htakes.turns]
    by_cases he : b = s.flow.activeMemberId
    · rw [if_pos he,hturn] at hb
      cases hb
      exact ⟨rfl,he.symm,h.fresh⟩
    · rw [if_neg he,h.idle b] at hb
      cases hb
  external := htakes.external
  pending := htakes.pending
  guarded := htakes.guarded
  live hd := htakes.materialized.trans (h.live (htakes.disposed.symm.trans hd))

private theorem AtRest.skip (h : s.AtRest none) {m : Member} (htakes : TakesTurn s s' b m)
    (hready : m.Ready) (hturn : m.activeTurn = none) (howed : s'.owed = none) : s'.Inv where
  ledger := by
    rw [howed,htakes.turns,htakes.fed,htakes.disposed,htakes.nextTurn]
    exact h.ledger.skip
  ready := by
    rw [htakes.members]
    exact ready_setMember h.ready hready
  driven b' turn hb := by
    rw [htakes.inFlight,hturn,h.idle b',ite_self] at hb
    cases hb
  external := htakes.external
  pending := htakes.pending
  guarded := htakes.guarded
  live hd := htakes.materialized.trans (h.live (htakes.disposed.symm.trans hd))

private theorem not_expected (h : s.externalPending = false) (P : Prop) :
    s.externalPending = true → P := by
  intro hexternal
  rw [h] at hexternal
  cases hexternal

private theorem execute_inv (h : s.AtRest none) (hexternal : s.externalPending = false)
    (hpending : ∀ p, s.pendingOutcome = some p → p.turn = none) : (s.execute answer).Inv := by
  unfold execute
  dsimp only
  split
  · exact AtRest.inv ⟨h.ledger,h.ready,h.idle,h.guarded,h.live⟩ (not_expected hexternal _)
      hpending rfl
  · obtain ⟨hviolated,hready,hturn⟩ := Member.drive_cases (h.ready s.flow.activity.member)
      (h.idle s.flow.activity.member) s.nextTurn answer s.flow.facts.terminal s.landed
    have hguarded : (s.violated || ((s.members s.flow.activity.member).drive s.nextTurn answer
        s.flow.facts.terminal s.landed).violated) = false := by
      rw [h.guarded,hviolated]
      rfl
    rcases hturn with ⟨st,hawaited,hidle⟩ | ⟨hawaited,hdriven⟩
    · refine h.skip ⟨rfl,rfl,rfl,rfl,rfl,rfl,not_expected hexternal _,hpending,hguarded,rfl⟩ hready
        hidle (Eq.trans (owed_of_pump ?_) ?_)
      · exact hexternal
      · show Awaited.turn? _ = none
        rw [hawaited]
        rfl
    · refine h.start ⟨rfl,rfl,rfl,rfl,rfl,rfl,not_expected hexternal _,hpending,hguarded,rfl⟩
        hready hdriven (Eq.trans (owed_of_pump ?_) ?_)
      · exact hexternal
      · show Awaited.turn? _ = some s.nextTurn
        rw [hawaited]
        rfl

/-- The pump gives what it owes to the decision entry. -/
theorem feed_inv {wake : Option Outcome} {turn : Option Nat} (h : s.AtRest turn)
    (hexternal : s.externalPending = false)
    (hpending : ∀ p, s.pendingOutcome = some p → p.turn = none)
    (hwake : ∀ id, turn = some id → ∃ st, s.turns id = some st ∧
      (wake = some st.outcome ∨ (wake = none ∧ st.outcome = .settled))) :
    (s.feed wake turn answer).Inv := by
  have hfed := h.ledger.feed hwake
  unfold feed
  dsimp only
  split
  · exact execute_inv ⟨hfed,h.ready,h.idle,h.guarded,h.live⟩ hexternal hpending
  · exact AtRest.inv ⟨hfed,h.ready,h.idle,h.guarded,h.live⟩ (not_expected hexternal _) hpending rfl

theorem runPump_feed {p : PendingOutcome} (hlive : s.disposed = false)
    (hmaterialized : s.materialized = true) (hexternal : s.externalPending = false)
    (hpending : s.pendingOutcome = some p) : s.runPump answer =
      { s with pendingOutcome := none }.feed (some p.outcome) p.turn answer := by
  have hstay : ¬(s.disposed || !s.materialized) = true := by
    rw [hlive,hmaterialized]
    decide
  have hnone : ¬s.externalPending = true := by
    rw [hexternal]
    decide
  unfold runPump
  rw [if_neg hstay,if_neg hnone,hpending]
  rfl

private theorem runPump_external (hlive : s.disposed = false)
    (hmaterialized : s.materialized = true) (hexternal : s.externalPending = true) :
    s.runPump answer = { s with
      externalPending := false
      pump := some (.awaitSettled s.flow.activeMemberId
        (s.members s.flow.activeMemberId).whenSettled) } := by
  have hstay : ¬(s.disposed || !s.materialized) = true := by
    rw [hlive,hmaterialized]
    decide
  unfold runPump
  rw [if_neg hstay,if_pos hexternal]

private theorem runPump_inv {p : PendingOutcome} (h : s.AtRest p.turn)
    (hpump : s.pendingOutcome = some p)
    (hlive : s.disposed = false) (hexternal : s.externalPending = false)
    (hturn : ∀ id, p.turn = some id → ∃ st, s.turns id = some st ∧ p.outcome = st.outcome) :
    (s.runPump answer).Inv := by
  rw [runPump_feed hlive (h.live hlive) hexternal hpump]
  apply feed_inv
  · exact ⟨h.ledger,h.ready,h.idle,h.guarded,h.live⟩
  · exact hexternal
  · exact nofun
  · intro id hid
    obtain ⟨st,hst,houtcome⟩ := hturn id hid
    exact ⟨st,hst,Or.inl (congrArg some houtcome)⟩

private theorem turn?_of_settlement {awaited : Awaited} {st : Settlement}
    (h : s.settlement awaited = some st) {id : Nat} (hid : awaited.turn? = some id) :
    s.turns id = some st := by
  cases awaited with
  | turn id' =>
    cases hid
    exact h
  | settled st' => cases hid

private theorem AtRest.stop {owed : Option Nat} (h : s.AtRest owed) (hdisposed : s.disposed = true)
    (hpending : ∀ p, s.pendingOutcome = some p → p.turn = none) :
    Inv { s with pump := some .returned } := by
  have hledger := h.ledger
  rw [hdisposed] at hledger
  have hdrop := hledger.drop
  rw [← hdisposed] at hdrop
  exact AtRest.inv ⟨hdrop,h.ready,h.idle,h.guarded,h.live⟩
    (fun _ => Or.inr ⟨hdisposed,Or.inr rfl⟩) hpending rfl

private theorem Inv.forget (h : s.Inv) (hexternal : s.externalPending = true)
    (hdisposed : s.disposed = true) {pump : Option Pump}
    (hpump : pump = none ∨ pump = some .returned) : Inv { s with pump := pump } := by
  have howed : owed { s with pump := pump } = s.owed :=
    (owed_of_external (s := { s with pump := pump }) hexternal).trans
      (owed_of_external hexternal).symm
  refine ⟨?_,h.ready,?_,fun _ => Or.inr ⟨hdisposed,hpump⟩,h.pending,h.guarded,h.live⟩
  · rw [howed]
    exact h.ledger
  · intro b turn hb
    rw [howed]
    exact h.driven b turn hb

private theorem Inv.takeOver (h : s.Inv) (hexternal : s.externalPending = true)
    (outcome : Outcome) :
    Inv { s with
      externalPending := false
      pendingOutcome := some ⟨outcome,none⟩
      pump := some (.awaitSettled s.flow.activeMemberId
        (s.members s.flow.activeMemberId).whenSettled) } := by
  have howed : ∀ s' : TeamOrchestrator, s'.externalPending = false →
      s'.pump = some (.awaitSettled s.flow.activeMemberId
        (s.members s.flow.activeMemberId).whenSettled) → s'.owed = s.owed := by
    intro s' hexternal' hpump
    rw [owed_of_pump hexternal',owed_of_external hexternal,hpump]
    show (s.members s.flow.activeMemberId).whenSettled.turn? = _
    unfold inFlight
    cases hturn : (s.members s.flow.activeMemberId).activeTurn with
    | none =>
      rw [Member.whenSettled_of_idle hturn]
      rfl
    | some turn =>
      rw [Member.whenSettled_of_activeTurn hturn]
      rfl
  refine ⟨?_,h.ready,?_,nofun,?_,h.guarded,h.live⟩
  · rw [howed _ rfl rfl]
    exact h.ledger
  · intro b turn hb
    rw [howed _ rfl rfl]
    exact h.driven b turn hb
  · intro p hp
    cases hp
    rfl

/-- When what the pump awaits has settled, the orchestrator is at rest but for it. -/
theorem Inv.settled (h : s.Inv) (hexternal : s.externalPending = false) {pump : Pump}
    (hpump : s.pump = some pump) (awaited : Awaited) (hawaited : pump.turn? = awaited.turn?)
    {st : Settlement} (hst : s.settlement awaited = some st) : s.AtRest awaited.turn? := by
  have howed : s.owed = awaited.turn? := by
    rw [owed_of_pump hexternal,hpump]
    exact hawaited
  rw [← howed]
  apply h.atRest
  intro id hid
  rw [turn?_of_settlement hst (howed ▸ hid)]
  rfl

private theorem Inv.stop (h : s.Inv) (hdisposed : s.disposed = true) {pump : Pump}
    (hpump : s.pump = some pump) (awaited : Awaited) (hawaited : pump.turn? = awaited.turn?)
    {st : Settlement} (hst : s.settlement awaited = some st) :
    Inv { s with pump := some .returned } := by
  rcases Bool.eq_false_or_eq_true s.externalPending with hexternal | hexternal
  · exact h.forget hexternal hdisposed (Or.inr rfl)
  · exact (h.settled hexternal hpump awaited hawaited hst).stop hdisposed h.pending

theorem Inv.external_of_awaitSettled (h : s.Inv) {awaited : Awaited}
    (hpump : s.pump = some (.awaitSettled b awaited)) : s.externalPending = false := by
  by_contra hexternal
  rcases h.external (by simpa using hexternal) with ⟨pump,hpump',hrests⟩ | ⟨-,hpump' | hpump'⟩
  · rw [hpump] at hpump'
    cases hpump'
    cases hrests
  · rw [hpump] at hpump'
    cases hpump'
  · rw [hpump] at hpump'
    cases hpump'

private theorem turn?_of_rests {pump : Pump} (h : pump.rests = true) : pump.turn? = none := by
  cases pump with
  | awaitExecute b awaited =>
    cases awaited with
    | turn id => cases h
    | settled st => rfl
  | _ => cases h

/-- The next job of a pump at a drive that has come to its end. -/
theorem executed_inv (h : s.Inv) (hlive : s.disposed = false) {awaited : Awaited}
    (hpump : s.pump = some (.awaitExecute b awaited)) {st : Settlement}
    (hst : s.settlement awaited = some st) :
    (runPump { s with pendingOutcome := some ⟨st.outcome,awaited.turn?⟩ } answer).Inv := by
  rcases Bool.eq_false_or_eq_true s.externalPending with hexternal | hexternal
  · -- The drive rested, and a message was delivered beside it.
    have hnone : awaited.turn? = none := by
      rcases h.external hexternal with ⟨pump,hpump',hrests⟩ | ⟨hdisposed,-⟩
      · rw [hpump] at hpump'
        cases hpump'
        exact turn?_of_rests hrests
      · rw [hlive] at hdisposed
        cases hdisposed
    let s₁ : TeamOrchestrator := { s with pendingOutcome := some ⟨st.outcome,awaited.turn?⟩ }
    have hrun : s₁.runPump answer = _ := runPump_external (s := s₁) hlive (h.live hlive) hexternal
    show (s₁.runPump answer).Inv
    rw [hrun]
    have htaken := h.takeOver hexternal st.outcome
    rw [← hnone] at htaken
    exact htaken
  · have hrest := h.settled hexternal hpump awaited rfl hst
    apply runPump_inv (p := ⟨st.outcome,awaited.turn?⟩)
    · exact ⟨hrest.ledger,hrest.ready,hrest.idle,hrest.guarded,hrest.live⟩
    · rfl
    · exact hlive
    · exact hexternal
    · intro id hid
      exact ⟨st,turn?_of_settlement hst hid,rfl⟩

private theorem resume_inv (h : s.Inv) (hstep : s.resume answer = some s') : s'.Inv := by
  unfold resume at hstep
  split at hstep
  · rename_i b awaited hpump
    obtain ⟨st,hst,rfl⟩ := Option.map_eq_some_iff.mp hstep
    have hexternal := h.external_of_awaitSettled hpump
    have hrest := h.settled hexternal hpump awaited rfl hst
    cases st with
    | rejected message =>
      have hfed := hrest.ledger.feed fun id hid =>
        ⟨_,turn?_of_settlement hst hid,Or.inl rfl⟩
      exact AtRest.inv ⟨hfed,hrest.ready,hrest.idle,hrest.guarded,hrest.live⟩
        (not_expected hexternal _) h.pending rfl
    | fulfilled outcome =>
      dsimp only
      split
      · rename_i hdisposed
        exact h.stop hdisposed hpump awaited rfl hst
      · apply feed_inv hrest hexternal h.pending
        intro id hid
        refine ⟨_,turn?_of_settlement hst hid,?_⟩
        split
        · rename_i hsettled
          exact Or.inr ⟨rfl,hsettled⟩
        · exact Or.inl rfl
  · rename_i b awaited hpump
    obtain ⟨st,hst,rfl⟩ := Option.map_eq_some_iff.mp hstep
    split
    · rename_i hdisposed
      exact h.stop hdisposed hpump awaited rfl hst
    · rename_i hlive
      exact executed_inv h (by simpa using hlive) hpump hst
  · rename_i hpump
    cases hstep
    rcases Bool.eq_false_or_eq_true s.externalPending with hexternal | hexternal
    · rcases h.external hexternal with ⟨pump,hpump',hrests⟩ | ⟨hdisposed,-⟩
      · rw [hpump] at hpump'
        cases hpump'
        cases hrests
      · exact h.forget hexternal hdisposed (Or.inl rfl)
    · have howed : s.owed = none := by
        rw [owed_of_pump hexternal,hpump]
        rfl
      have hrest := h.atRest fun id hid => by
        rw [howed] at hid
        cases hid
      rw [howed] at hrest
      exact AtRest.inv ⟨hrest.ledger,hrest.ready,hrest.idle,hrest.guarded,hrest.live⟩
        (not_expected hexternal _) h.pending rfl
  · cases hstep

private theorem Inv.freeze (h : s.Inv) (flow : SaoleiFlow)
    (hactive : flow.activeMemberId = s.flow.activeMemberId) : Inv { s with flow := flow } := by
  have howed : owed { s with flow := flow } = s.owed :=
    owed_congr rfl rfl hactive fun _ => rfl
  refine ⟨?_,h.ready,?_,h.external,h.pending,h.guarded,h.live⟩
  · rw [howed]
    exact h.ledger
  · intro b turn hb
    obtain ⟨howed',hb',hnone⟩ := h.driven b turn hb
    exact ⟨howed.trans howed',hactive.trans hb',hnone⟩

private theorem Inv.skip (h : s.Inv) (landed : List UserMessage) :
    Inv { s with landed := landed, nextTurn := s.nextTurn + 1 } :=
  ⟨h.ledger.skip,h.ready,h.driven,h.external,h.pending,h.guarded,h.live⟩

private theorem Inv.land (h : s.Inv) (landed : List UserMessage) :
    Inv { s with landed := landed } :=
  ⟨h.ledger,h.ready,h.driven,h.external,h.pending,h.guarded,h.live⟩

private theorem requestPump_external (hlive : s.disposed = false)
    (hmaterialized : s.materialized = true)
    (hpump : s.pump = none) (hexternal : s.externalPending = true) :
    s.requestPump answer = { s with
      externalPending := false
      pump := some (.awaitSettled s.flow.activeMemberId
        (s.members s.flow.activeMemberId).whenSettled) } := by
  have hgo : ¬(s.disposed || s.pump.isSome) = true := by
    rw [hlive,hpump]
    decide
  unfold requestPump
  rw [if_neg hgo,runPump_external hlive hmaterialized hexternal]

private theorem requestPump_running (hpump : s.pump.isSome = true) : s.requestPump answer = s := by
  unfold requestPump
  rw [hpump,Bool.or_true]
  rfl

/-- A delivery that opened a turn, or that was no delivery, is what the pump awaits, or what it
takes over after a resting drive. -/
theorem requestPump_inv (h : s.Inv) (hlive : s.disposed = false)
    (hidle : s.inFlight s.flow.activeMemberId = none)
    (hpump : ∀ pump, s.pump = some pump → pump.rests = true)
    {m : Member} {landed : List UserMessage} (hready : m.Ready)
    (hturn : m.activeTurn = none ∨ m.activeTurn = some ⟨s.nextTurn,false⟩) :
    (requestPump { s.setMember s.flow.activeMemberId m with
      landed := landed
      nextTurn := s.nextTurn + 1
      externalPending := true } answer).Inv := by
  have howed : s.owed = none := by
    unfold owed
    split
    · rw [hidle]
      rfl
    · cases hp : s.pump with
      | none => rfl
      | some pump => exact turn?_of_rests (hpump pump hp)
  have hrest : s.AtRest none := howed ▸ h.atRest fun id hid => by
    rw [howed] at hid
    cases hid
  let s₁ : TeamOrchestrator := { s.setMember s.flow.activeMemberId m with
    landed := landed
    nextTurn := s.nextTurn + 1
    externalPending := true }
  have hself : s₁.members s₁.flow.activeMemberId = m := Function.update_self _ _ _
  show (s₁.requestPump answer).Inv
  cases hp : s.pump with
  | none =>
    have hrun : s₁.requestPump answer = _ :=
      requestPump_external (s := s₁) hlive (h.live hlive) hp rfl
    rw [hrun]
    rcases hturn with hturn | hturn
    · refine hrest.skip ⟨rfl,rfl,rfl,rfl,rfl,rfl,nofun,h.pending,h.guarded,rfl⟩ hready hturn ?_
      show Awaited.turn? (Member.whenSettled _) = none
      rw [hself,Member.whenSettled_of_idle hturn]
      rfl
    · refine hrest.start ⟨rfl,rfl,rfl,rfl,rfl,rfl,nofun,h.pending,h.guarded,rfl⟩ hready hturn ?_
      show Awaited.turn? (Member.whenSettled _) = some s.nextTurn
      rw [hself,Member.whenSettled_of_activeTurn hturn]
      rfl
  | some pump =>
    have hsome : s₁.pump.isSome = true := by
      rw [show s₁.pump = some pump from hp]
      rfl
    have hexpects : s₁.Expects := Or.inl ⟨pump,hp,hpump pump hp⟩
    have howed₁ : s₁.owed = m.activeTurn.map Turn.id := by
      rw [owed_of_external (s := s₁) rfl]
      unfold inFlight
      rw [hself]
    rw [requestPump_running hsome]
    rcases hturn with hturn | hturn
    · have htakes : TakesTurn s s₁ s.flow.activeMemberId m :=
        ⟨rfl,rfl,rfl,rfl,rfl,rfl,fun _ => hexpects,h.pending,h.guarded,rfl⟩
      refine hrest.skip htakes hready hturn ?_
      rw [howed₁,hturn]
      rfl
    · have htakes : TakesTurn s s₁ s.flow.activeMemberId m :=
        ⟨rfl,rfl,rfl,rfl,rfl,rfl,fun _ => hexpects,h.pending,h.guarded,rfl⟩
      refine hrest.start htakes hready hturn ?_
      rw [howed₁,hturn]
      rfl

private theorem submit_inv (h : s.Inv) (message : UserMessage)
    (hdisturb : s.submitsBesidePump (.submit message answer) = false) :
    (s.submit message answer).2.Inv := by
  unfold submit
  split
  · exact h
  · rename_i hlive
    split
    · exact h
    · simp only [Bool.not_eq_true] at hlive
      dsimp only
      rcases Member.deliver_cases (h.ready s.flow.activeMemberId) s.nextTurn answer s.landed message
        with ⟨err,herr,hviolation⟩ | ⟨m,hm,hready,hturn⟩
      · split
        · rename_i err' landed heq
          rw [heq] at herr
          cases herr
          have hguarded : (s.violated || err.isViolation) = false := by
            rw [h.guarded,hviolation]
            rfl
          have hactive := (Flow.decide_frozen s.flow (failureOutcome err.message) rfl).2.2
          have hfrozen := (h.land landed).freeze _ hactive
          exact ⟨hfrozen.ledger,hfrozen.ready,hfrozen.driven,hfrozen.external,hfrozen.pending,
            hguarded,hfrozen.live⟩
        · rename_i m landed heq
          rw [heq] at herr
          cases herr
      · split
        · rename_i err landed heq
          rw [heq] at hm
          cases hm
        · rename_i m' landed heq
          rw [heq] at hm
          cases hm
          split
          · rename_i hbusy
            have hkept : m.activeTurn = s.inFlight s.flow.activeMemberId := by
              rcases hturn with hturn | ⟨hnone,-⟩
              · exact hturn
              · unfold Member.busy at hbusy
                rw [hnone] at hbusy
                cases hbusy
            exact (h.setMember hready hkept).skip landed
          · rename_i hbusy
            simp only [Bool.not_eq_true] at hbusy
            have hnone : (s.members s.flow.activeMemberId).activeTurn = none := by
              simpa [Member.busy] using hbusy
            have hpump : ∀ pump, s.pump = some pump → pump.rests = true := by
              intro pump hpump
              by_contra hrests
              simp [submitsBesidePump,hlive,h.live hlive,hbusy,hpump,hrests] at hdisturb
            apply requestPump_inv h hlive hnone hpump hready
            exact hturn.imp (fun hkept => hkept.trans hnone) And.right

theorem cancel_inv (h : s.Inv) (inbox : List UserMessage) : (s.cancel inbox).2.Inv := by
  unfold cancel
  split
  · exact h
  · split
    · exact h
    · split
      · exact h
      · dsimp only
        split
        · rename_i m hm
          split
          · have hcancel := Member.abort_cancelAgent (.agent m)
            refine (h.land _).setMember (hcancel.2 ?_) ?_
            · exact hm ▸ h.ready s.flow.activeMemberId
            · unfold inFlight
              rw [hm]
              exact hcancel.1
          · exact (h.freeze s.flow.freezeAborted rfl).land _
        · exact h.freeze _ rfl

private theorem dispose_inv (h : s.Inv) : s.dispose.Inv := by
  have hdisposed : Inv { s with disposed := true, landed := [] } :=
    ⟨h.ledger.dispose,h.ready,h.driven,
      fun he => (h.external he).imp_right fun hd => ⟨rfl,hd.2⟩,h.pending,h.guarded,
      fun hd => nomatch hd⟩
  unfold dispose
  split
  · exact h
  · dsimp only
    split
    · rename_i b _
      have hcancel := Member.abort_cancelAgent (s.members b)
      exact hdisposed.setMember (hcancel.2 (h.ready b)) hcancel.1
    · exact hdisposed

theorem release_cases (hstep : s.release = some s') :
    s.disposed = true ∧ s' = { s with materialized := false } := by
  unfold release at hstep
  split at hstep
  · rename_i hdone
    cases hstep
    simp only [Bool.and_eq_true] at hdone
    exact ⟨hdone.1.1,rfl⟩
  · cases hstep

private theorem release_inv (h : s.Inv) (hstep : s.release = some s') : s'.Inv := by
  obtain ⟨hdisposed,rfl⟩ := release_cases hstep
  refine ⟨h.ledger,h.ready,h.driven,h.external,h.pending,h.guarded,fun hlive => ?_⟩
  rw [show s.disposed = true from hdisposed] at hlive
  cases hlive

private theorem Inv.settle (h : s.Inv) {m : Member} {turn : Turn} (hturn : s.inFlight b = some turn)
    (hready : m.Ready) (hidle : m.activeTurn = none) (st : Settlement)
    (hdisturb : s.disposed = false → s.externalPending = false) :
    Inv { s.setMember b m with
      turns := Function.update s.turns turn.id (some st) } := by
  obtain ⟨howed,hb,hnone⟩ := h.driven b turn hturn
  have hledger := h.ledger
  rw [howed] at hledger
  have hsettled := hledger.settle hnone st
  have hflight : ∀ b', (s.setMember b m).inFlight b' = none := by
    intro b'
    rw [inFlight_setMember]
    split
    · exact hidle
    · rename_i hne
      by_contra hflight
      obtain ⟨turn',hturn'⟩ := Option.ne_none_iff_exists'.mp hflight
      -- Only the active member has a turn in flight.
      exact hne ((h.driven b' turn' hturn').2.1.symm.trans hb)
  let s₁ : TeamOrchestrator := { s.setMember b m with
    turns := Function.update s.turns turn.id (some st) }
  show s₁.Inv
  refine ⟨?_,ready_setMember h.ready hready,?_,h.external,h.pending,h.guarded,h.live⟩
  · rcases Bool.eq_false_or_eq_true s.externalPending with hexternal | hexternal
    · -- Nobody takes the delivery over any more.
      have hdisposed : s.disposed = true := by
        by_contra hlive
        rw [hdisturb (by simpa using hlive)] at hexternal
        cases hexternal
      have howed₁ : s₁.owed = none := by
        rw [owed_of_external (s := s₁) hexternal]
        exact congrArg (Option.map Turn.id) (hflight _)
      rw [hdisposed] at hsettled
      have hdrop := hsettled.drop
      rw [← hdisposed] at hdrop
      rw [howed₁]
      exact hdrop
    · have howed₁ : s₁.owed = some turn.id := by
        rw [owed_of_pump (s := s₁) hexternal,← howed,owed_of_pump hexternal]
        rfl
      rw [howed₁]
      exact hsettled
  · intro b' turn' hturn'
    have hnone' : s₁.inFlight b' = none := hflight b'
    rw [hnone'] at hturn'
    cases hturn'

/-- What a settlement does: the turn in flight of an agent member ends with its report. -/
theorem settle_cases (hstep : s.settle b = some s') :
    ∃ m turn, s.members b = .agent m ∧ s.inFlight b = some turn ∧
      s' = { s.setMember b (.agent (m.finishTurn turn).2.clearTurn) with
        turns := Function.update s.turns turn.id (some (.fulfilled (m.finishTurn turn).1)) } := by
  unfold settle at hstep
  split at hstep
  · rename_i m hm
    obtain ⟨turn,hturn,rfl⟩ := Option.map_eq_some_iff.mp hstep
    exact ⟨m,turn,hm,inFlight_of_agent hm hturn,rfl⟩
  · cases hstep

/-- What a rejection does: the turn in flight of an agent member ends with the throw. -/
theorem reject_cases {message : String} (hstep : s.reject b message = some s') :
    ∃ m turn, s.members b = .agent m ∧ s.inFlight b = some turn ∧
      s' = { s.setMember b (.agent m.clearTurn) with
        turns := Function.update s.turns turn.id (some (.rejected message)) } := by
  unfold reject at hstep
  split at hstep
  · rename_i m hm
    obtain ⟨turn,hturn,rfl⟩ := Option.map_eq_some_iff.mp hstep
    exact ⟨m,turn,hm,inFlight_of_agent hm hturn,rfl⟩
  · cases hstep

/-- What a failure report does: the member keeps its turn and remembers the failure. -/
theorem agentError_cases {failure : TurnFailure} (hstep : s.agentError b failure = some s') :
    ∃ m, s.members b = .agent m ∧
      s' = s.setMember b (.agent { m with lastTurnFailure := some failure }) := by
  unfold agentError at hstep
  split at hstep
  · rename_i m hm
    cases hstep
    exact ⟨m,hm,rfl⟩
  · cases hstep

private theorem settle_inv (h : s.Inv) (hdisturb : s.disposed = false → s.externalPending = false)
    (hstep : s.settle b = some s') : s'.Inv := by
  obtain ⟨m,turn,-,hflight,rfl⟩ := settle_cases hstep
  exact h.settle hflight (m := .agent (m.finishTurn turn).2.clearTurn) (fun _ => rfl) rfl _ hdisturb

private theorem reject_inv (h : s.Inv) {message : String}
    (hdisturb : s.disposed = false → s.externalPending = false)
    (hstep : s.reject b message = some s') : s'.Inv := by
  obtain ⟨m,turn,-,hflight,rfl⟩ := reject_cases hstep
  exact h.settle hflight (m := .agent m.clearTurn) (fun _ => rfl) rfl _ hdisturb

private theorem agentError_inv (h : s.Inv) {failure : TurnFailure}
    (hstep : s.agentError b failure = some s') : s'.Inv := by
  obtain ⟨m,hm,rfl⟩ := agentError_cases hstep
  apply h.setMember
  · have hready : (s.members b).Ready := h.ready b
    rw [hm] at hready
    exact hready
  · unfold inFlight
    rw [hm]
    rfl

private theorem materialize_inv : materialize.Inv where
  ledger := by
    refine ⟨?_,?_,List.nodup_nil,?_,?_,?_⟩
    · intro id st hst
      cases hst
    · intro id hid
      cases hid
    · intro id wake hmem
      cases hmem
    · intro id hid
      cases hid
    · intro _ id st hst
      cases hst
  ready b := by
    cases b with
    | announcer => trivial
    | _ => exact fun _ => rfl
  driven b turn hb := by
    cases b <;> cases hb
  external := nofun
  pending := nofun
  guarded := rfl
  live _ := rfl

theorem external_of_settlesBeforePump (h : (!s.disposed && s.externalPending) = false)
    (hlive : s.disposed = false) : s.externalPending = false := by
  rw [hlive] at h
  exact h

theorem inv_inductive : Lts.Inductive system Undisturbed Inv where
  init s hs := hs ▸ materialize_inv
  step s l s' h hdisturb hstep := by
    cases l with
    | submit message answer =>
      cases hstep
      exact submit_inv h message hdisturb.1
    | cancel inbox =>
      cases hstep
      exact cancel_inv h inbox
    | dispose =>
      cases hstep
      exact dispose_inv h
    | release => exact release_inv h hstep
    | pump answer => exact resume_inv h hstep
    | settle b => exact settle_inv h (external_of_settlesBeforePump hdisturb.2) hstep
    | reject b message => exact reject_inv h (external_of_settlesBeforePump hdisturb.2) hstep
    | agentError b failure => exact agentError_inv h hstep
    | recordTerminal record =>
      cases hstep
      exact h.freeze _ rfl

theorem inv_of_reachUnder (h : system.ReachUnder Undisturbed s) : s.Inv :=
  inv_inductive.of_reachUnder h

private theorem execute_fed : (s.execute answer).fed = s.fed := by
  unfold execute
  dsimp only
  split <;> rfl

private theorem feed_fed {wake : Option Outcome} {turn : Option Nat} :
    (s.feed wake turn answer).fed =
    s.fed ++ turn.toList.map fun id => (id,wake) := by
  unfold feed
  dsimp only
  split
  · exact execute_fed
  · rfl

theorem turn?_eq_some {awaited : Awaited} {id : Nat} (h : awaited.turn? = some id) :
    awaited = .turn id := by
  cases awaited with
  | turn id' =>
    cases h
    rfl
  | settled st => cases h

/-- A wake that freezes the flow makes the pump return. -/
theorem feed_frozen (outcome : Outcome) (hfrozen : (s.flow.record outcome).paused = true)
    (turn : Option Nat) : s.feed (some outcome) turn answer = { s with
      flow := (s.flow.decide (some outcome)).2
      fed := s.fed ++ turn.toList.map fun id => (id,some outcome)
      pump := some .returned } := by
  unfold feed
  dsimp only
  rw [(Flow.decide_frozen s.flow outcome hfrozen).1]

/-- A turn that waits for the pump to take it over is in flight. -/
theorem Inv.external_of_settled (h : s.Inv) {id : Nat} {st : Settlement}
    (howed : s.owed = some id) (hst : s.turns id = some st) : s.externalPending = false := by
  by_contra hexternal
  rw [owed_of_external (by simpa using hexternal)] at howed
  obtain ⟨turn,hturn,rfl⟩ := Option.map_eq_some_iff.mp howed
  rw [(h.driven _ turn hturn).2.2] at hst
  cases hst

/-- The next job of the pump gives the settled turn that it owes to the decision entry. -/
theorem resume_feed (h : s.Inv) (hlive : s.disposed = false) {id : Nat} {st : Settlement}
    (howed : s.owed = some id) (hst : s.turns id = some st)
    (answer : Except String (List UserMessage)) :
    ∃ wake p, s.resume answer =
        some ({ s with pendingOutcome := p }.feed wake (some id) answer) ∧
      (wake = some st.outcome ∨ (wake = none ∧ st.outcome = .settled)) := by
  have hexternal := h.external_of_settled howed hst
  rw [owed_of_pump hexternal] at howed
  have hgo : ¬s.disposed = true := by
    rw [hlive]
    decide
  obtain ⟨pump,hpump,hturn⟩ := Option.bind_eq_some_iff.mp howed
  unfold resume
  split
  · rename_i b awaited hawait
    rw [hawait] at hpump
    cases hpump
    cases turn?_eq_some hturn
    rw [show s.settlement (.turn id) = some st from hst,Option.map_some]
    cases st with
    | rejected message =>
      exact ⟨_,s.pendingOutcome,congrArg some (feed_frozen (failureOutcome message) rfl _).symm,
        Or.inl rfl⟩
    | fulfilled outcome =>
      dsimp only
      rw [if_neg hgo]
      refine ⟨_,s.pendingOutcome,rfl,?_⟩
      split
      · rename_i hsettled
        exact Or.inr ⟨rfl,hsettled⟩
      · exact Or.inl rfl
  · rename_i b awaited hawait
    rw [hawait] at hpump
    cases hpump
    cases turn?_eq_some hturn
    rw [show s.settlement (.turn id) = some st from hst,Option.map_some,if_neg hgo]
    let s₁ : TeamOrchestrator := { s with pendingOutcome := some ⟨st.outcome,some id⟩ }
    have hrun : s₁.runPump answer = _ :=
      runPump_feed (s := s₁) hlive (h.live hlive) hexternal rfl
    exact ⟨some st.outcome,none,congrArg some hrun,Or.inl rfl⟩
  · rename_i hawait
    rw [hawait] at hpump
    cases hpump
    cases hturn
  · rename_i hawait
    rw [hawait] at hpump
    cases hpump

/-- At most one member's turn is in flight, it is the active member's, and no guard of
`startTurn` has thrown.  The decision entry consumes every settled turn once: a turn that it has
not consumed yet is the one the pump owes. -/
theorem one_member_driven (h : system.ReachUnder Undisturbed s) :
    (∀ b b' turn turn', s.inFlight b = some turn → s.inFlight b' = some turn' → b = b') ∧
    (∀ b turn, s.inFlight b = some turn → s.flow.activeMemberId = b) ∧
    s.violated = false ∧
    (s.fed.map Prod.fst).Nodup ∧
    (∀ id wake, (id,wake) ∈ s.fed → ∃ st, s.turns id = some st ∧
      (wake = some st.outcome ∨ (wake = none ∧ st.outcome = .settled))) ∧
    (s.disposed = false → ∀ id st, s.turns id = some st → id ∈ s.fed.map Prod.fst ∨
      ∀ answer, ∃ s', s.resume answer = some s' ∧ id ∈ s'.fed.map Prod.fst) := by
  have hinv := inv_of_reachUnder h
  refine ⟨?_,?_,hinv.guarded,hinv.ledger.nodup,hinv.ledger.faithful,?_⟩
  · intro b b' turn turn' hb hb'
    exact (hinv.driven b turn hb).2.1.symm.trans (hinv.driven b' turn' hb').2.1
  · intro b turn hb
    exact (hinv.driven b turn hb).2.1
  · intro hlive id st hst
    rcases hinv.ledger.complete hlive id st hst with howed | hfed
    · right
      intro answer
      obtain ⟨wake,p,hresume,-⟩ := resume_feed hinv hlive howed hst answer
      refine ⟨_,hresume,?_⟩
      rw [feed_fed]
      simp
    · exact Or.inl hfed

/-! Concrete runs: the first message, a play turn that the flow started, and what follows. -/

def demoMessage (id : Nat) : UserMessage := ⟨id,.user⟩

/-- The plan turn is delivered and settles, and the pump starts a play turn. -/
def playLabels : List Label :=
  [.submit (demoMessage 0) (.ok []),.settle .planner,.pump (.ok [⟨1,.teamBroadcast⟩])]

theorem one_member_driven_demo : ∃ s : TeamOrchestrator, s.inFlight .player = some ⟨1,true⟩ ∧
    s.flow.activeMemberId = .player ∧ s.violated = false := by
  obtain ⟨s,hs,hplays⟩ := Lts.reachUnder_of_runUnder_any (M := system) (C := Undisturbed)
    (c := fun s l => !s.submitsBesidePump l && !s.settlesBeforePump l)
    (p := fun s => (s.inFlight .player).any fun turn => turn.id == 1 && turn.hold)
    (fun s l hl => by simpa [Undisturbed] using hl) playLabels (.init rfl) (by decide)
  simp only [Option.any_eq_true,Bool.and_eq_true,beq_iff_eq] at hplays
  obtain ⟨⟨id,hold⟩,hturn,rfl,rfl⟩ := hplays
  obtain ⟨-,hactive,hguarded,-⟩ := one_member_driven hs
  exact ⟨s,hturn,hactive _ _ hturn,hguarded⟩

/-- The play turn settles, and a message is delivered before the pump goes on. -/
def disturbedLabels : List Label :=
  playLabels ++ [.settle .player,.submit (demoMessage 2) (.ok []),.pump (.ok []),.settle .player,
    .pump (.ok []),.pump (.ok []),.pump (.ok [])]

theorem settled_turn_dropped : ¬∀ s, system.Reach s → s.disposed = false → s.pump.isNone →
    ∀ id st, s.turns id = some st → id ∈ s.fed.map Prod.fst := by
  intro h
  obtain ⟨s,hs,hdropped⟩ := Lts.reach_of_run_any (M := system)
    (p := fun s => !s.disposed && s.pump.isNone && (s.turns 1).isSome &&
      !(s.fed.map Prod.fst).contains 1) disturbedLabels (.init rfl) (by decide)
  simp only [Bool.and_eq_true,Bool.not_eq_true',List.contains_eq_mem,
    decide_eq_false_iff_not] at hdropped
  obtain ⟨⟨⟨hlive,hpump⟩,hsettled⟩,hunfed⟩ := hdropped
  obtain ⟨st,hst⟩ := Option.isSome_iff_exists.mp hsettled
  exact hunfed (h s hs hlive hpump 1 st hst)

end TeamOrchestrator

end Dominion.Saolei
