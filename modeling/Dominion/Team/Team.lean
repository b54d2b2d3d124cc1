import Dominion.Team.Broadcast
import Mathlib.Data.List.Flatten
import Mathlib.Data.List.Pairwise
import Mathlib.Data.List.Sort
import Mathlib.Tactic.Tauto

/-! # The group-chat service

Members register as message sources.  The pending list of a receiver is a cache: a drain first
rebuilds it from the logs of the senders. -/
namespace Dominion.Team

structure TeamMemberSource where
  id : String
  events : List SessionEvent
  /-- `false` is an announce-only member, absent is `true`. -/
  consumes : Option Bool := none
  /-- Whether the source has the in-flight delivery face. -/
  deliverInFlight : Bool := false
  deriving DecidableEq, Repr

structure TeamMemberRegistration where
  source : TeamMemberSource
  role : String
  summary : String
  deriving DecidableEq, Repr

structure TeamRegistration where
  goal : String
  members : List TeamMemberRegistration
  context : Option String
  deriving DecidableEq, Repr

structure PendingUnit extends BroadcastUnit where
  senderSessionId : String
  senderRole : String
  deriving DecidableEq, Repr

/-- The comparison by which `pending.sort` orders two units. -/
def PendingUnit.Before (a b : PendingUnit) : Prop :=
  compareUnits a.toBroadcastUnit b.toBroadcastUnit ≤ 0

instance : DecidableRel PendingUnit.Before := fun a b =>
  inferInstanceAs (Decidable (compareUnits a.toBroadcastUnit b.toBroadcastUnit ≤ 0))

structure MemberState where
  registration : TeamMemberRegistration
  pending : List PendingUnit
  /-- Anchors popped by a drain and not yet observed in the log of the member. -/
  drained : List String
  /-- The calls that wait for their results in the relay. -/
  pendingCalls : String → Option (Int × Nat)

namespace MemberState

def id (m : MemberState) : String :=
  m.registration.source.id

def events (m : MemberState) : List SessionEvent :=
  m.registration.source.events

/-- An announce-only member. -/
def announceOnly (m : MemberState) : Bool :=
  m.registration.source.consumes == some false

end MemberState

structure TeamState where
  goal : String := ""
  context : Option String := none
  /-- In the order of their registration. -/
  members : List MemberState := []

namespace TeamState

/-- `members.get(id)`. -/
def member? (team : TeamState) (id : String) : Option MemberState :=
  team.members.find? (·.id = id)

def modifyMember (team : TeamState) (id : String) (f : MemberState → MemberState) : TeamState :=
  { team with members := team.members.map fun m => if m.id = id then f m else m }

def buildMessage (team : TeamState) (unit : PendingUnit) : Except String UserMessage :=
  buildBroadcastMessage unit.senderRole unit.toBroadcastUnit unit.senderSessionId
    ((team.member? unit.senderSessionId).map MemberState.events |>.getD []) team.context

/-- The units of a sender, as a receiver lists them. -/
def unitsOf (sender : MemberState) : List PendingUnit :=
  (deriveUnits sender.events).map fun unit =>
    { toBroadcastUnit := unit
      senderSessionId := sender.id
      senderRole := sender.registration.role }

/-- Rebuild one member's pending list from the logs. -/
def reconcile (team : TeamState) (member : MemberState) : MemberState :=
  if member.announceOnly then member
  else
    let consumed := consumedAnchors member.events
    let drained := member.drained.filter (· ∉ consumed)
    let pending := (team.members.filter (·.id ≠ member.id)).flatMap fun sender =>
      (unitsOf sender).filter fun unit => unit.anchor ∉ consumed ∧ unit.anchor ∉ drained
    { member with
      drained
      pending := pending.insertionSort PendingUnit.Before }

/-- The loop of `drain`: a unit is marked as drained only after its message was built. -/
def drainUnits (team : TeamState) : List PendingUnit → List String → List UserMessage →
    List String × Except String (List UserMessage)
  | [],drained,messages => (drained,.ok messages)
  | unit :: units,drained,messages =>
    match team.buildMessage unit with
    | .error error => (drained,.error error)
    | .ok message => team.drainUnits units (unit.anchor :: drained) (messages ++ [message])

def drain (team : TeamState) (id : String) : TeamState × Except String (List UserMessage) :=
  match team.member? id with
  | none => (team,.error ("team drain: member \"" ++ id ++ "\" is not a registered member"))
  | some state =>
    if state.announceOnly then
      (team,.error ("team drain: member \"" ++ id ++
        "\" is announce-only and cannot consume broadcasts"))
    else
      let state := team.reconcile state
      let r := team.drainUnits state.pending state.drained []
      (team.modifyMember id fun _ => { state with pending := [], drained := r.1 },r.2)

/-- The outcome of a relay: a corrupt read ends it. -/
structure Relayed where
  members : List MemberState
  /-- What the in-flight delivery faces were handed. -/
  delivered : List (String × UserMessage) := []
  thrown : Option String := none

def relayTo (team : TeamState) (sender : MemberState) (unit : BroadcastUnit) :
    List MemberState → Relayed
  | [] => { members := [] }
  | receiver :: receivers =>
    if receiver.id = sender.id ∨ receiver.announceOnly = true ∨ unit.anchor ∈ receiver.drained then
      let r := team.relayTo sender unit receivers
      { r with members := receiver :: r.members }
    else
      let pending : PendingUnit :=
        { toBroadcastUnit := unit
          senderSessionId := sender.id
          senderRole := sender.registration.role }
      let receiver := { receiver with pending := receiver.pending ++ [pending] }
      if unit.kind = .message ∧ receiver.registration.source.deliverInFlight = true then
        match team.buildMessage pending with
        | .error error => { members := receiver :: receivers, thrown := some error }
        | .ok message =>
          let r := team.relayTo sender unit receivers
          { r with
            members := receiver :: r.members
            delivered := (receiver.id,message) :: r.delivered }
      else
        let r := team.relayTo sender unit receivers
        { r with members := receiver :: r.members }

/-- The outcome of a notification. -/
structure Notified where
  team : TeamState
  delivered : List (String × UserMessage) := []
  thrown : Option String := none

/-- Append the anchor of a unit to the lists of its receivers. -/
def relay (team : TeamState) (sender : MemberState) (unit : BroadcastUnit) : Notified :=
  let r := team.relayTo sender unit team.members
  { team := { team with members := r.members }, delivered := r.delivered, thrown := r.thrown }

/-- Collect one member output event into the relay. -/
def onMemberEvent (team : TeamState) (id : String) (event : SessionEvent) : Notified :=
  match team.member? id with
  | none => { team }
  | some state =>
    match event.data with
    | .assistantMessage message =>
      if messageBody message = "" then { team }
      else team.relay state ⟨.message,message.id,event.time,event.seq⟩
    | .toolCall callId _ _ =>
      { team := team.modifyMember id fun m =>
          { m with pendingCalls :=
              Function.update m.pendingCalls callId (some (event.time,event.seq)) } }
    | .toolResult message =>
      match state.pendingCalls message.toolCallId with
      | none => { team }
      | some call =>
        let r := team.relay state ⟨.tool,message.toolCallId,call.1,call.2⟩
        { r with team := r.team.modifyMember id fun m =>
            { m with pendingCalls := Function.update m.pendingCalls message.toolCallId none } }
    | _ => { team }

/-- The team that already holds one of these members, or a fresh one. -/
def resolveTeam (team : TeamState) (ids : List String) : TeamState :=
  if ids.any fun id => (team.member? id).isSome then team else {}

/-- Create a member, or refresh it in place: its source stays the same object. -/
def enroll (team : TeamState) (registration : TeamMemberRegistration) : TeamState :=
  match team.member? registration.source.id with
  | some _ =>
    team.modifyMember registration.source.id fun m =>
      { m with registration := { registration with source := m.registration.source } }
  | none =>
    { team with members := team.members ++
        [{ registration, pending := [], drained := [], pendingCalls := fun _ => none }] }

def repeatedId : List String → List String → Option String
  | _,[] => none
  | seen,id :: ids => if id ∈ seen then some id else repeatedId (id :: seen) ids

def register (team : TeamState) (registration : TeamRegistration) : Except String TeamState :=
  let ids := registration.members.map fun member => member.source.id
  if registration.members = [] then .error "team register: at least one member is required"
  else
    match repeatedId [] ids with
    | some id => .error ("team register: member \"" ++ id ++ "\" is listed twice")
    | none =>
      let team : TeamState :=
        { team.resolveTeam ids with
          goal := registration.goal
          context := registration.context }
      let team := registration.members.foldl enroll team
      let team := { team with members := team.members.filter fun m => decide (m.id ∈ ids) }
      .ok { team with members := team.members.map team.reconcile }

/-- The log of a member grows by one event. -/
def append (team : TeamState) (id : String) (event : SessionEvent) : TeamState :=
  team.modifyMember id fun m =>
    { m with registration :=
        { m.registration with source :=
            { m.registration.source with events := m.events ++ [event] } } }

end TeamState

/-! ## Logs -/

/-- The order of a log: times do not decrease and sequence numbers increase. -/
def Chronological (events : List SessionEvent) : Prop :=
  events.Pairwise fun a b => a.time ≤ b.time ∧ a.seq < b.seq

instance (events : List SessionEvent) : Decidable (Chronological events) :=
  inferInstanceAs (Decidable (events.Pairwise _))

/-- The logs are chronological and no two productions share an id. -/
def TeamState.WellLogged (team : TeamState) : Prop :=
  (∀ m ∈ team.members, Chronological m.events) ∧
    (team.members.flatMap fun m => productions m.events).Nodup

instance (team : TeamState) : Decidable team.WellLogged :=
  inferInstanceAs (Decidable (_ ∧ _))

/-- The order of two units of one log is the order of their events. -/
theorem seq_lt_of_before {log : List SessionEvent} (hlog : Chronological log)
    {a b : PendingUnit} (ha : Derivable log a.toBroadcastUnit) (hb : Derivable log b.toBroadcastUnit)
    (hne : a.anchor ≠ b.anchor) (hle : a.Before b) : a.seq < b.seq := by
  obtain ⟨e,he,hpe,hte,hse⟩ := ha.production
  obtain ⟨f,hf,hpf,htf,hsf⟩ := hb.production
  have hef : e ≠ f := by
    rintro rfl
    rw [hpe] at hpf
    exact hne (Option.some.inj hpf)
  have hsymm : log.Pairwise fun x y =>
      (x.time ≤ y.time ∧ x.seq < y.seq) ∨ (y.time ≤ x.time ∧ y.seq < x.seq) :=
    hlog.imp Or.inl
  have hor : Std.Symm fun x y : SessionEvent =>
      (x.time ≤ y.time ∧ x.seq < y.seq) ∨ (y.time ≤ x.time ∧ y.seq < x.seq) :=
    ⟨fun _ _ h => h.symm⟩
  have hcmp := hsymm.forall he hf hef
  unfold PendingUnit.Before compareUnits at hle
  split at hle <;> omega

instance : IsTrans PendingUnit PendingUnit.Before where
  trans a b c hab hbc := by
    unfold PendingUnit.Before compareUnits at *
    split at hab <;> split at hbc <;> split <;> omega

instance : Std.Total PendingUnit.Before where
  total a b := by
    unfold PendingUnit.Before compareUnits
    split <;> split <;> omega

namespace TeamState

section rebuild

variable {team : TeamState} {m n : MemberState} {u : PendingUnit}

theorem member?_eq_some (hids : (team.members.map MemberState.id).Nodup) (hm : m ∈ team.members) :
    team.member? m.id = some m := by
  unfold member?
  generalize team.members = l at hids hm
  induction l with
  | nil => cases hm
  | cons x l ih =>
    rw [List.map_cons,List.nodup_cons] at hids
    rcases List.mem_cons.mp hm with rfl | hm
    · simp
    · have hne : x.id ≠ m.id := fun he => hids.1 (he ▸ List.mem_map_of_mem hm)
      rw [List.find?_cons_of_neg (by simpa using hne)]
      exact ih hids.2 hm

theorem mem_of_member? {id : String} (h : team.member? id = some m) :
    m ∈ team.members ∧ m.id = id :=
  ⟨List.mem_of_find?_eq_some h,by simpa using List.find?_some h⟩

private theorem productions_nodup (hlogs : team.WellLogged) (hm : m ∈ team.members) :
    (productions m.events).Nodup :=
  (List.nodup_flatMap.mp hlogs.2).1 m hm

/-- A unit of another member, as it is listed for a receiver. -/
structure Offers (team : TeamState) (m : MemberState) (u : PendingUnit) (n : MemberState) : Prop where
  mem : n ∈ team.members
  other : n.id ≠ m.id
  sender : u.senderSessionId = n.id
  role : u.senderRole = n.registration.role
  derivable : Derivable n.events u.toBroadcastUnit

private theorem mem_unitsOf (hlogs : team.WellLogged) (hn : n ∈ team.members) :
    u ∈ unitsOf n ↔ Derivable n.events u.toBroadcastUnit ∧ u.senderSessionId = n.id ∧
      u.senderRole = n.registration.role := by
  unfold unitsOf
  rw [List.mem_map]
  constructor
  · rintro ⟨unit,hu,rfl⟩
    exact ⟨(mem_deriveUnits (productions_nodup hlogs hn)).mp hu,rfl,rfl⟩
  · rintro ⟨hd,hs,hr⟩
    exact ⟨u.toBroadcastUnit,(mem_deriveUnits (productions_nodup hlogs hn)).mpr hd,by
      rw [← hs,← hr]⟩

/-- The rebuilt list has the units that are offered and neither consumed nor drained. -/
theorem mem_pending_reconcile (hlogs : team.WellLogged) (hm : m.announceOnly = false) :
    u ∈ (team.reconcile m).pending ↔
      (∃ n, team.Offers m u n) ∧ u.anchor ∉ consumedAnchors m.events ∧ u.anchor ∉ m.drained := by
  simp only [reconcile,hm,Bool.false_eq_true,if_false,List.mem_insertionSort,List.mem_flatMap,
    List.mem_filter,decide_eq_true_eq]
  constructor
  · rintro ⟨n,⟨hn,hne⟩,hu,hconsumed,hdrained⟩
    obtain ⟨hd,hs,hr⟩ := (mem_unitsOf hlogs hn).mp hu
    exact ⟨⟨n,hn,hne,hs,hr,hd⟩,hconsumed,fun hmem => hdrained ⟨hmem,hconsumed⟩⟩
  · rintro ⟨⟨n,hoffer⟩,hconsumed,hdrained⟩
    have hu := (mem_unitsOf hlogs hoffer.mem).mpr ⟨hoffer.derivable,hoffer.sender,hoffer.role⟩
    exact ⟨n,⟨hoffer.mem,hoffer.other⟩,hu,hconsumed,fun hmem => hdrained hmem.1⟩

theorem pairwise_pending_reconcile (hm : m.announceOnly = false) :
    (team.reconcile m).pending.Pairwise PendingUnit.Before := by
  simp only [reconcile,hm,Bool.false_eq_true,if_false]
  exact List.pairwise_insertionSort _ _

/-- A rebuilt list has no anchor twice. -/
theorem nodup_pending_reconcile (hlogs : team.WellLogged) (hm : m.announceOnly = false) :
    ((team.reconcile m).pending.map fun u => u.anchor).Nodup := by
  have hall : (team.members.flatMap fun n => (unitsOf n).map fun u => u.anchor).Nodup := by
    have hown : ∀ n, (unitsOf n).map (fun u => u.anchor) =
        (deriveUnits n.events).map BroadcastUnit.anchor := fun n => by simp [unitsOf]
    simp only [hown]
    rw [List.nodup_flatMap]
    have hsplit := List.nodup_flatMap.mp hlogs.2
    refine ⟨fun n hn => nodup_deriveUnits (hsplit.1 n hn),?_⟩
    have hmem : ∀ n ∈ team.members, ∀ a ∈ (deriveUnits n.events).map BroadcastUnit.anchor,
        a ∈ productions n.events := by
      intro n hn a ha
      obtain ⟨u,hu,rfl⟩ := List.mem_map.mp ha
      exact ((mem_deriveUnits (hsplit.1 n hn)).mp hu).anchor_mem
    refine hsplit.2.imp_of_mem fun {x y} hx hy hdisj => ?_
    exact fun a hax hay => hdisj (hmem x hx a hax) (hmem y hy a hay)
  simp only [reconcile,hm,Bool.false_eq_true,if_false]
  refine ((List.perm_insertionSort PendingUnit.Before _).map _).nodup_iff.mpr ?_
  rw [List.map_flatMap]
  refine hall.sublist ?_
  have hkept := List.Sublist.flatMap_right (team.members.filter (·.id ≠ m.id))
    fun n _ => (List.filter_sublist (p := fun unit => decide (unit.anchor ∉ consumedAnchors m.events ∧
      unit.anchor ∉ m.drained.filter (· ∉ consumedAnchors m.events))) (l := unitsOf n)).map
        fun u => u.anchor
  exact hkept.trans (List.Sublist.flatMap List.filter_sublist _)

theorem Offers.build (hids : (team.members.map MemberState.id).Nodup) (h : team.Offers m u n) :
    ∃ message, team.buildMessage u = .ok message ∧ message.source.anchor? = some u.anchor := by
  obtain ⟨text,htext⟩ := h.derivable.render u.senderRole team.context
  have hread : team.buildMessage u = buildBroadcastMessage u.senderRole u.toBroadcastUnit
      u.senderSessionId n.events team.context := by
    rw [buildMessage,h.sender,member?_eq_some hids h.mem]
    rfl
  rw [hread,buildBroadcastMessage,htext]
  exact ⟨_,rfl,rfl⟩

theorem drainUnits_ok {units : List PendingUnit} (drained : List String) (messages : List UserMessage)
    (h : ∀ u ∈ units, ∃ message, team.buildMessage u = .ok message ∧
      message.source.anchor? = some u.anchor) :
    ∃ built, team.drainUnits units drained messages =
        ((units.map fun u => u.anchor).reverse ++ drained,.ok (messages ++ built)) ∧
      units.map team.buildMessage = built.map .ok ∧
      (built.filterMap fun message => message.source.anchor?) = units.map fun u => u.anchor := by
  induction units generalizing drained messages with
  | nil => exact ⟨[],by simp [drainUnits],rfl,rfl⟩
  | cons u units ih =>
    obtain ⟨message,hmessage,hanchor⟩ := h u (by simp)
    obtain ⟨built,hrun,hbuilt,hanchors⟩ :=
      ih (u.anchor :: drained) (messages ++ [message]) fun v hv => h v (by simp [hv])
    refine ⟨message :: built,?_,by simp [hmessage,hbuilt],by simp [hanchor,hanchors]⟩
    rw [drainUnits,hmessage]
    simpa using hrun

end rebuild

end TeamState

end Dominion.Team
