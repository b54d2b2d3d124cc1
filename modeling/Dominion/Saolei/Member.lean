import Dominion.Saolei.Flow

/-! # The members of the team loop

An agent member drives one turn of its agent at a time; the announcer speaks synchronously.  The
answers of the team and of the agent are parameters of the operations that read them. -/
namespace Dominion.Saolei

def transientEngineCodes : List String :=
  ["RATE_LIMIT","SERVER","TIMEOUT","TRANSPORT","EMPTY_RESPONSE"]

def quotaEngineCodes : List String := ["QUOTA","ACCOUNT_QUOTA"]

def credentialEngineCodes : List String := ["INVALID_CREDENTIAL","MISSING_CREDENTIAL","AUTH"]

def configEngineCodes : List String :=
  ["NO_ADAPTER","INVALID_REQUEST","UNSUPPORTED_CONTENT","UNSUPPORTED"]

def inputTooLargeEngineCodes : List String :=
  ["CONTEXT_WINDOW_EXCEEDED","IMAGE_OFFLOAD_REQUIRED"]

/-- Maps an engine failure code onto the loop contract code. -/
def mapEngineCode (engineCode : Option String) : LoopErrorCode :=
  match engineCode with
  | none => .internal
  | some code =>
    if code ∈ transientEngineCodes then .transient
    else if code ∈ quotaEngineCodes then .quota
    else if code ∈ credentialEngineCodes then .credential
    else if code ∈ configEngineCodes ∨ code.startsWith "HTTP_" then .config
    else if code ∈ inputTooLargeEngineCodes then .inputTooLarge
    else .internal

/-- The failure facts one agent turn reports. -/
structure TurnFailure where
  engineCode : Option String
  message : String

inductive MessageSource where
  | user
  | teamBroadcast
  deriving DecidableEq

structure UserMessage where
  id : Nat
  source : MessageSource

inductive AgentStatus where
  | idle
  | running
  deriving DecidableEq

structure Agent where
  status : AgentStatus := .idle
  /-- History: the calls of `cancel`. -/
  cancels : Nat := 0

def MemberId.toString : MemberId → String
  | player => "player"
  | planner => "planner"
  | announcer => "announcer"

/-- A synchronous throw: one of `startTurn`'s two guards, or a technical failure. -/
inductive MemberError where
  | alreadyInFlight
  | notQuiescent (id : MemberId)
  | technical (message : String)

namespace MemberError

def message : MemberError → String
  | alreadyInFlight =>
    "saolei-loop agent member invariant violated: a member turn is already in flight"
  | notQuiescent id =>
    "saolei-loop agent member invariant violated: " ++ id.toString ++ " is not quiescent"
  | technical message => message

def isViolation : MemberError → Bool
  | technical _ => false
  | _ => true

end MemberError

/-- How a promise of an outcome settles. -/
inductive Settlement where
  | fulfilled (outcome : Outcome)
  | rejected (message : String)

/-- The outcome shape of an orchestration-interior failure. -/
def failureOutcome (message : String) : Outcome :=
  .failed .internal { message := message }

/-- A rejection is translated at the start site. -/
def Settlement.outcome : Settlement → Outcome
  | fulfilled outcome => outcome
  | rejected message => failureOutcome message

/-- A promise of an outcome: a turn's, or one that is settled from the start. -/
inductive Awaited where
  | turn (id : Nat)
  | settled (s : Settlement)

/-- A turn in flight: the identity of its promise, and whether a flow drive started it. -/
structure Turn where
  id : Nat
  hold : Bool

structure AgentMember where
  id : MemberId
  agent : Agent := {}
  activeTurn : Option Turn := none
  /-- The input of the last failed or aborted flow drive. -/
  held : Option (List UserMessage) := none
  steered : List UserMessage := []
  lastTurnFailure : Option TurnFailure := none
  abortRequested : Bool := false

namespace AgentMember

def busy (m : AgentMember) : Bool :=
  m.activeTurn.isSome

/-- Starts the turn `turn` up to its idle await. -/
def startTurn (m : AgentMember) (turn : Nat) (messages : List UserMessage) (hold : Bool) :
    Except MemberError AgentMember :=
  if m.activeTurn.isSome then .error .alreadyInFlight
  else if m.agent.status ≠ .idle then .error (.notQuiescent m.id)
  else .ok { m with
    activeTurn := some ⟨turn,hold⟩
    abortRequested := false
    lastTurnFailure := none
    held := if hold then some messages else m.held
    agent := { m.agent with status := .running } }

/-- The unconsumed broadcasts and the landed messages, or else the held set; what is left of the
landed messages comes last. -/
def defaultInput (m : AgentMember) (drain : Except String (List UserMessage))
    (landed : List UserMessage) :
    Except MemberError (List UserMessage × AgentMember × List UserMessage) :=
  match drain with
  | .error message => .error (.technical message)
  | .ok drained =>
    let fresh := drained ++ landed
    if fresh ≠ [] then .ok (fresh,m,[])
    else .ok (m.held.getD [],{ m with held := none },[])

/-- Delivers one message: it steers into the turn in flight, or opens a turn. -/
def deliver (m : AgentMember) (turn : Nat) (drain : Except String (List UserMessage))
    (landed : List UserMessage) (message : UserMessage) :
    Except MemberError AgentMember × List UserMessage :=
  if m.activeTurn.isSome then
    match drain with
    -- `inject` or `steer` throws after the landed messages were taken.
    | .error err => (.error (.technical err),[])
    | .ok _ => (.ok { m with steered := m.steered ++ [message] },[])
  else
    match drain with
    | .error err => (.error (.technical err),landed)
    | .ok drained => (m.startTurn turn (drained ++ landed ++ [message]) false,[])

def whenSettled (m : AgentMember) : Awaited :=
  match m.activeTurn with
  | some turn => .turn turn.id
  | none => .settled (.fulfilled .resting)

def abort (m : AgentMember) : AgentMember :=
  if m.activeTurn.isSome then { m with abortRequested := true } else m

def cancelAgent (m : AgentMember) : AgentMember :=
  { m with agent := { m.agent with cancels := m.agent.cancels + 1 } }

/-- The rest of the turn once its agent is idle. -/
def finishTurn (m : AgentMember) (turn : Turn) : Outcome × AgentMember :=
  let m' := { m with lastTurnFailure := none, abortRequested := false, steered := [] }
  if m.abortRequested then (.aborted,m')
  else
    match m.lastTurnFailure with
    | some failure =>
      (.failed (mapEngineCode failure.engineCode) ⟨failure.engineCode,failure.message⟩,m')
    | none => (.settled,if turn.hold then { m' with held := none } else m')

/-- The turn's promise has settled, and its agent is idle. -/
def clearTurn (m : AgentMember) : AgentMember :=
  { m with activeTurn := none, agent := { m.agent with status := .idle } }

end AgentMember

structure AnnouncerMember where
  statsSentFor : Option GameEventRecord := none

/-- Speaks the latest terminal record, each record once. -/
def AnnouncerMember.drive (m : AnnouncerMember) (terminal : Option GameEventRecord)
    (announce : Except String Unit) : Outcome × AnnouncerMember :=
  if terminal.isNone ∨ terminal = m.statsSentFor then (.settled,m)
  else
    match announce with
    | .ok () => (.settled,{ m with statsSentFor := terminal })
    | .error message => (failureOutcome message,m)

/-- A registered member: agent-backed or announce-only. -/
inductive Member where
  | agent (m : AgentMember)
  | announcer (m : AnnouncerMember)

/-- What a drive call did: the promise it returned, and the member and landed messages after. -/
structure Drive where
  awaited : Awaited
  member : Member
  landed : List UserMessage
  violated : Bool := false

namespace Member

def activeTurn : Member → Option Turn
  | agent m => m.activeTurn
  | announcer _ => none

def busy (b : Member) : Bool :=
  b.activeTurn.isSome

def pendingInput : Member → Nat
  | agent m => m.steered.length
  | announcer _ => 0

def whenSettled : Member → Awaited
  | agent m => m.whenSettled
  | announcer _ => .settled (.fulfilled .resting)

def deliver (b : Member) (turn : Nat) (drain : Except String (List UserMessage))
    (landed : List UserMessage) (message : UserMessage) :
    Except MemberError Member × List UserMessage :=
  match b with
  | agent m =>
    let r := m.deliver turn drain landed message
    (r.1.map agent,r.2)
  | announcer m => (.ok (announcer m),landed)

/-- Drives the member once, from the start of the call to its first await. -/
def drive (b : Member) (turn : Nat) (answer : Except String (List UserMessage))
    (terminal : Option GameEventRecord) (landed : List UserMessage) : Drive :=
  match b with
  | agent m =>
    match m.defaultInput answer landed with
    | .error err => ⟨.settled (.rejected err.message),b,landed,false⟩
    | .ok (messages,m,landed) =>
      if messages = [] then ⟨.settled (.fulfilled .resting),agent m,landed,false⟩
      else
        match m.startTurn turn messages true with
        | .error err => ⟨.settled (.rejected err.message),agent m,landed,err.isViolation⟩
        | .ok m => ⟨.turn turn,agent m,landed,false⟩
  | announcer m =>
    let r := m.drive terminal (answer.map fun _ => ())
    ⟨.settled (.fulfilled r.1),announcer r.2,landed,false⟩

def abort : Member → Member
  | agent m => agent m.abort
  | announcer m => announcer m

def cancelAgent : Member → Member
  | agent m => agent m.cancelAgent
  | announcer m => announcer m

end Member

/-! What a delivery and a drive do to the turn in flight. -/

namespace AgentMember

variable {m : AgentMember} {landed : List UserMessage}

/-- The agent is idle whenever no turn of the member is in flight. -/
def Ready (m : AgentMember) : Prop :=
  m.activeTurn = none → m.agent.status = .idle

private theorem startTurn_ok (hidle : m.activeTurn = none) (hready : m.Ready) (turn : Nat)
    (messages : List UserMessage) (hold : Bool) :
    ∃ m', m.startTurn turn messages hold = .ok m' ∧ m'.activeTurn = some ⟨turn,hold⟩ := by
  unfold startTurn
  rw [hidle]
  simp only [Option.isSome_none,Bool.false_eq_true,if_false,hready hidle,ne_eq,not_true]
  exact ⟨_,rfl,rfl⟩

private theorem ready_of_activeTurn {t : Turn} (h : m.activeTurn = some t) : m.Ready := by
  intro hnone
  rw [h] at hnone
  cases hnone

private theorem defaultInput_ok {answer : Except String (List UserMessage)}
    {r : List UserMessage × AgentMember × List UserMessage}
    (h : m.defaultInput answer landed = .ok r) :
    r.2.1.activeTurn = m.activeTurn ∧ r.2.1.agent = m.agent := by
  unfold defaultInput at h
  cases answer with
  | error err => cases h
  | ok drained =>
    dsimp only at h
    split at h <;>
    · cases h
      exact ⟨rfl,rfl⟩

end AgentMember

namespace Member

variable {b : Member}

def Ready : Member → Prop
  | agent m => m.Ready
  | announcer _ => True

/-- A delivery fails technically, or keeps the turn in flight, or starts the turn `turn`. -/
theorem deliver_cases (hready : b.Ready) (turn : Nat)
    (answer : Except String (List UserMessage)) (landed : List UserMessage)
    (message : UserMessage) :
    (∃ err, (b.deliver turn answer landed message).1 = .error err ∧ err.isViolation = false) ∨
    ∃ b', (b.deliver turn answer landed message).1 = .ok b' ∧ b'.Ready ∧
      (b'.activeTurn = b.activeTurn ∨
        (b.activeTurn = none ∧ b'.activeTurn = some ⟨turn,false⟩)) := by
  cases b with
  | announcer m => exact Or.inr ⟨_,rfl,trivial,Or.inl rfl⟩
  | agent m =>
    simp only [deliver,AgentMember.deliver]
    cases hactive : m.activeTurn with
    | some t =>
      cases answer with
      | error err => exact Or.inl ⟨_,rfl,rfl⟩
      | ok drained =>
        refine Or.inr ⟨_,rfl,?_,Or.inl hactive.symm⟩
        intro hnone
        cases hnone
    | none =>
      cases answer with
      | error err => exact Or.inl ⟨_,rfl,rfl⟩
      | ok drained =>
        obtain ⟨m',hm',hturn⟩ := AgentMember.startTurn_ok hactive hready turn
          (drained ++ landed ++ [message]) false
        refine Or.inr ⟨.agent m',?_,AgentMember.ready_of_activeTurn hturn,Or.inr ⟨hactive,hturn⟩⟩
        simp only [Option.isSome_none,Bool.false_eq_true,if_false,hm']
        rfl

/-- A drive of a member at rest returns a settled promise, or starts the turn `turn`. -/
theorem drive_cases (hready : b.Ready) (hidle : b.activeTurn = none) (turn : Nat)
    (answer : Except String (List UserMessage)) (terminal : Option GameEventRecord)
    (landed : List UserMessage) :
    (b.drive turn answer terminal landed).violated = false ∧
    (b.drive turn answer terminal landed).member.Ready ∧
    ((∃ st, (b.drive turn answer terminal landed).awaited = .settled st ∧
        (b.drive turn answer terminal landed).member.activeTurn = none) ∨
      ((b.drive turn answer terminal landed).awaited = .turn turn ∧
        (b.drive turn answer terminal landed).member.activeTurn = some ⟨turn,true⟩)) := by
  cases b with
  | announcer m => exact ⟨rfl,trivial,Or.inl ⟨_,rfl,rfl⟩⟩
  | agent m =>
    simp only [drive]
    cases hinput : m.defaultInput answer landed with
    | error err => exact ⟨rfl,hready,Or.inl ⟨_,rfl,hidle⟩⟩
    | ok r =>
      obtain ⟨messages,m',landed'⟩ := r
      obtain ⟨hactive,hagent⟩ := AgentMember.defaultInput_ok hinput
      have hidle' : m'.activeTurn = none := hactive.trans hidle
      have hready' : m'.Ready := by
        intro _
        rw [show m'.agent = m.agent from hagent]
        exact hready hidle
      dsimp only
      split
      · exact ⟨rfl,hready',Or.inl ⟨_,rfl,hidle'⟩⟩
      · obtain ⟨m'',hstart,hturn⟩ := AgentMember.startTurn_ok hidle' hready' turn messages true
        rw [hstart]
        exact ⟨rfl,AgentMember.ready_of_activeTurn hturn,Or.inr ⟨rfl,hturn⟩⟩

theorem abort_cancelAgent (b : Member) : b.abort.cancelAgent.activeTurn = b.activeTurn ∧
    (b.Ready → b.abort.cancelAgent.Ready) := by
  cases b with
  | announcer m => exact ⟨rfl,id⟩
  | agent m =>
    simp only [abort,AgentMember.abort]
    split <;> exact ⟨rfl,id⟩

theorem whenSettled_of_activeTurn {t : Turn} (h : b.activeTurn = some t) :
    b.whenSettled = .turn t.id := by
  cases b with
  | announcer m => cases h
  | agent m =>
    simp only [whenSettled,AgentMember.whenSettled,show m.activeTurn = some t from h]

theorem whenSettled_of_idle (h : b.activeTurn = none) :
    b.whenSettled = .settled (.fulfilled .resting) := by
  cases b with
  | announcer m => rfl
  | agent m =>
    simp only [whenSettled,AgentMember.whenSettled,show m.activeTurn = none from h]

end Member

end Dominion.Saolei
