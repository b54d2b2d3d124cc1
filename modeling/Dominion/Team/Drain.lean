import Dominion.Framework.Lts
import Dominion.Team.Team

/-! # Runs of a team

Logs grow, the relay is notified of any of their events at any time, members register and drain.
A journal notes the anchors that the drains returned. -/
namespace Dominion.Team

open Dominion.Framework

inductive Label
  | register (registration : TeamRegistration)
  | append (id : String) (event : SessionEvent)
  | notify (id : String) (event : SessionEvent)
  | drain (id : String)

def Label.isNotify : Label → Bool
  | .notify _ _ => true
  | _ => false

namespace TeamState

def step (s : TeamState) : Label → TeamState
  | .register registration =>
    match s.register registration with
    | .ok s' => s'
    | .error _ => s
  | .append id event => s.append id event
  | .notify id event => (s.onMemberEvent id event).team
  | .drain id => (s.drain id).1

def teamSystem : Lts TeamState Label where
  init s := s = {}
  step s l := some (s.step l)

def Keeps (s s' : TeamState) : Prop :=
  ∀ m ∈ s.members, ∃ m' ∈ s'.members, m'.id = m.id

instance (s s' : TeamState) : Decidable (s.Keeps s') :=
  inferInstanceAs (Decidable (∀ m ∈ s.members, _))

/-- Members stay registered, and the logs stay well-formed. -/
def Admissible (s : TeamState) (l : Label) : Prop :=
  s.Keeps (s.step l) ∧ (s.step l).WellLogged

instance (s : TeamState) (l : Label) : Decidable (s.Admissible l) :=
  inferInstanceAs (Decidable (_ ∧ _))

/-- The anchors of the messages that a step returns, with the member that drained them. -/
def returns (s : TeamState) : Label → List (String × String)
  | .drain id =>
    match (s.drain id).2 with
    | .ok messages => (messages.filterMap fun message => message.source.anchor?).map fun a => (id,a)
    | .error _ => []
  | _ => []

def observe (s : TeamState) (l : Label) (_ : TeamState) (j : List (String × String)) :
    List (String × String) :=
  s.returns l ++ j

/-- The results of the drains along a list of labels. -/
def transcript (s : TeamState) : List Label → List (String × Except String (List UserMessage))
  | [] => []
  | l :: ls =>
    (match l with
      | .drain id => [(id,(s.drain id).2)]
      | _ => []) ++ transcript (s.step l) ls

/-- The units that a member still has to be given. -/
def Owes (s : TeamState) (j : List (String × String)) (m : MemberState) (u : PendingUnit) : Prop :=
  (∃ n, s.Offers m u n) ∧ u.anchor ∉ consumedAnchors m.events ∧ (m.id,u.anchor) ∉ j

end TeamState

/-! ## What the relay keeps -/

/-- A member without what the relay keeps. -/
def MemberState.core (m : MemberState) : MemberState :=
  { m with pending := [], pendingCalls := fun _ => none }

@[simp] theorem MemberState.core_id (m : MemberState) : m.core.id = m.id := rfl
@[simp] theorem MemberState.core_events (m : MemberState) : m.core.events = m.events := rfl
@[simp] theorem MemberState.core_announceOnly (m : MemberState) :
    m.core.announceOnly = m.announceOnly := rfl
@[simp] theorem MemberState.core_drained (m : MemberState) : m.core.drained = m.drained := rfl
@[simp] theorem MemberState.core_registration (m : MemberState) :
    m.core.registration = m.registration := rfl
@[simp] theorem MemberState.core_core (m : MemberState) : m.core.core = m.core := rfl

namespace TeamState

def core (s : TeamState) : TeamState :=
  { s with members := s.members.map MemberState.core }

variable {s s' : TeamState} {m n : MemberState} {id : String}

private theorem core_core : s.core.core = s.core := by
  simp [core]

private theorem member?_core : s.core.member? id = (s.member? id).map MemberState.core := by
  simp only [core,member?,List.find?_map]
  rfl

private theorem modifyMember_core {f g : MemberState → MemberState}
    (h : ∀ m, (f m).core = (g m.core).core) :
    (s.modifyMember id f).core = (s.core.modifyMember id g).core := by
  simp only [core,modifyMember,List.map_map,TeamState.mk.injEq,true_and]
  refine List.map_congr_left fun m _ => ?_
  by_cases hm : m.id = id
  · simp [hm,h m]
  · simp [hm]

private theorem relayTo_core (sender : MemberState) (unit : BroadcastUnit)
    (receivers : List MemberState) :
    (s.relayTo sender unit receivers).members.map MemberState.core =
      receivers.map MemberState.core := by
  induction receivers with
  | nil => rfl
  | cons receiver receivers ih =>
    unfold relayTo
    split
    · simp [ih]
    · dsimp only
      split
      · split
        · simp [MemberState.core]
        · simp only [List.map_cons,ih]
          rfl
      · simp only [List.map_cons,ih]
        rfl

private theorem relay_core (sender : MemberState) (unit : BroadcastUnit) :
    (s.relay sender unit).team.core = s.core := by
  simp only [core,relay,relayTo_core]

private theorem modifyMember_core_self {f : MemberState → MemberState}
    (h : ∀ m, (f m).core = m.core) :
    (s.modifyMember id f).core = s.core := by
  simp only [core,modifyMember,List.map_map,TeamState.mk.injEq,true_and]
  refine List.map_congr_left fun m _ => ?_
  by_cases hm : m.id = id <;> simp [hm,h m]

/-- A notification changes only what the relay keeps. -/
theorem onMemberEvent_core (event : SessionEvent) :
    (s.onMemberEvent id event).team.core = s.core := by
  unfold onMemberEvent
  split
  · rfl
  · split
    · split
      · rfl
      · exact relay_core _ _
    · exact modifyMember_core_self fun _ => rfl
    · split
      · rfl
      · refine (modifyMember_core_self ?_).trans (relay_core _ _)
        exact fun _ => rfl
    · rfl

private theorem reconcile_core : (s.core.reconcile m.core).core = (s.reconcile m).core ∧
    (m.announceOnly = false → (s.core.reconcile m.core).pending = (s.reconcile m).pending) := by
  rcases Bool.eq_false_or_eq_true m.announceOnly with hm | hm
  · simp [reconcile,hm]
  · have hothers : ∀ keep : PendingUnit → Bool,
        (s.core.members.filter (·.id ≠ m.id)).flatMap (fun sender => (unitsOf sender).filter keep) =
        (s.members.filter (·.id ≠ m.id)).flatMap fun sender => (unitsOf sender).filter keep := by
      intro keep
      simp only [core,List.filter_map,List.flatMap_map]
      rfl
    have hrebuilt : ∀ t : TeamState, ∀ n : MemberState, n.announceOnly = false →
        t.reconcile n =
          { n with
            drained := n.drained.filter (· ∉ consumedAnchors n.events)
            pending := ((t.members.filter (·.id ≠ n.id)).flatMap fun sender =>
              (unitsOf sender).filter fun unit => unit.anchor ∉ consumedAnchors n.events ∧
                unit.anchor ∉ n.drained.filter (· ∉ consumedAnchors n.events)).insertionSort
                  PendingUnit.Before } := fun t n hn => by simp only [reconcile,hn]; rfl
    rw [hrebuilt s m hm,hrebuilt s.core m.core hm]
    exact ⟨rfl,fun _ => congrArg (List.insertionSort PendingUnit.Before) (hothers _)⟩

private theorem buildMessage_core (u : PendingUnit) : s.core.buildMessage u = s.buildMessage u := by
  simp only [buildMessage,member?_core,Option.map_map]
  rfl

private theorem drainUnits_core (units : List PendingUnit) (drained : List String)
    (messages : List UserMessage) :
    s.core.drainUnits units drained messages = s.drainUnits units drained messages := by
  induction units generalizing drained messages with
  | nil => rfl
  | cons u units ih =>
    simp only [drainUnits,buildMessage_core]
    cases s.buildMessage u with
    | error error => rfl
    | ok message => exact ih _ _

private theorem drain_core (id : String) : (s.core.drain id).2 = (s.drain id).2 ∧
    (s.core.drain id).1.core = (s.drain id).1.core := by
  unfold drain
  rw [member?_core]
  cases s.member? id with
  | none => exact ⟨rfl,core_core⟩
  | some m =>
    rcases Bool.eq_false_or_eq_true m.announceOnly with hm | hm
    · simp [hm,core_core]
    · obtain ⟨hcore,hpending⟩ := @reconcile_core s m
      have hdrained : (s.core.reconcile m.core).drained = (s.reconcile m).drained := by
        simpa using congrArg MemberState.drained hcore
      simp only [Option.map_some,MemberState.core_announceOnly,hm,Bool.false_eq_true,if_false,
        hpending hm,hdrained,drainUnits_core,true_and]
      refine (modifyMember_core fun _ => ?_).symm
      have hreg : (s.core.reconcile m.core).registration = (s.reconcile m).registration := by
        simpa using congrArg MemberState.registration hcore
      show MemberState.mk (s.reconcile m).registration [] _ _ =
        MemberState.mk (s.core.reconcile m.core).registration [] _ _
      rw [hreg]

private theorem enroll_core (r : TeamMemberRegistration) :
    (s.core.enroll r).core = (s.enroll r).core := by
  unfold enroll
  rw [member?_core]
  cases s.member? r.source.id with
  | none => simp [core,MemberState.core]
  | some m =>
    refine (modifyMember_core ?_).symm
    exact fun _ => rfl

private theorem foldl_enroll_core (rs : List TeamMemberRegistration) (h : s.core = s'.core) :
    (rs.foldl enroll s).core = (rs.foldl enroll s').core := by
  induction rs generalizing s s' with
  | nil => exact h
  | cons r rs ih =>
    have hr : (s.enroll r).core = (s'.enroll r).core := by
      rw [← enroll_core,h,enroll_core]
    exact ih hr

private theorem map_reconcile_core (h : s.core = s'.core) :
    (s.members.map s.reconcile).map MemberState.core =
      (s'.members.map s'.reconcile).map MemberState.core := by
  have hown : ∀ t : TeamState, (t.members.map t.reconcile).map MemberState.core =
      (t.core.members.map fun m => (t.core.reconcile m).core) := by
    intro t
    simp only [core,List.map_map]
    exact List.map_congr_left fun m _ => (reconcile_core.1).symm
  rw [hown s,hown s',h]

private theorem core_eq_iff : s.core = s'.core ↔ s.goal = s'.goal ∧ s.context = s'.context ∧
    s.members.map MemberState.core = s'.members.map MemberState.core := by
  simp [core]

private theorem filter_core (ids : List String) (h : s.core = s'.core) :
    (s.members.filter fun m => decide (m.id ∈ ids)).map MemberState.core =
      (s'.members.filter fun m => decide (m.id ∈ ids)).map MemberState.core := by
  have hown : ∀ l : List MemberState, (l.filter fun m => decide (m.id ∈ ids)).map MemberState.core =
      (l.map MemberState.core).filter fun m => decide (m.id ∈ ids) := fun l => by
    rw [List.filter_map]
    rfl
  rw [hown,hown,(core_eq_iff.mp h).2.2]

/-- A registration does not read what the relay keeps. -/
theorem register_core (r : TeamRegistration) :
    (s.core.register r).map core = (s.register r).map core := by
  unfold register
  dsimp only
  split
  · rfl
  · split
    · rfl
    · have hheld : ∀ ids : List String, (ids.any fun id => (s.core.member? id).isSome) =
          ids.any fun id => (s.member? id).isSome := fun ids => by simp [member?_core]
      have hresolved : ∀ ids, (s.core.resolveTeam ids).core = (s.resolveTeam ids).core := by
        intro ids
        unfold resolveTeam
        rw [hheld]
        split
        · exact core_core
        · rfl
      let ids := r.members.map fun member => member.source.id
      let t : TeamState := { s.core.resolveTeam ids with goal := r.goal, context := r.context }
      let t' : TeamState := { s.resolveTeam ids with goal := r.goal, context := r.context }
      have ht : t.core = t'.core :=
        core_eq_iff.mpr ⟨rfl,rfl,(core_eq_iff.mp (hresolved ids)).2.2⟩
      have henrolled := foldl_enroll_core r.members ht
      obtain ⟨hgoal,hcontext,-⟩ := core_eq_iff.mp henrolled
      have hfiltered := filter_core ids henrolled
      refine congrArg Except.ok (core_eq_iff.mpr ⟨hgoal,hcontext,?_⟩)
      exact map_reconcile_core (core_eq_iff.mpr ⟨hgoal,hcontext,hfiltered⟩)

private theorem append_core (event : SessionEvent) :
    (s.core.append id event).core = (s.append id event).core := by
  refine (modifyMember_core ?_).symm
  exact fun _ => rfl

/-- A step and its returns do not depend on what the relay keeps. -/
theorem step_core (l : Label) : (s.core.step l).core = (s.step l).core := by
  cases l with
  | register r =>
    have hr := @register_core s r
    cases h : s.register r <;> cases h' : s.core.register r <;>
      simp only [step,h,h',Except.map,reduceCtorEq] at hr ⊢
    · exact core_core
    · exact Except.ok.inj hr
  | append id event => exact append_core event
  | notify id event =>
    simp only [step,onMemberEvent_core]
    exact core_core
  | drain id => exact (drain_core id).2

private theorem step_core_congr (l : Label) (h : s.core = s'.core) :
    (s.step l).core = (s'.step l).core := by
  rw [← step_core,h,step_core]

private theorem drain_result_congr (id : String) (h : s.core = s'.core) :
    (s.drain id).2 = (s'.drain id).2 := by
  rw [← (drain_core id).1,h,(drain_core id).1]

/-- Notifications, whichever arrive, leave no trace in what the drains return. -/
theorem transcript_filter (ls : List Label) (h : s.core = s'.core) :
    s.transcript ls = s'.transcript (ls.filter fun l => !l.isNotify) := by
  induction ls generalizing s s' with
  | nil => rfl
  | cons l ls ih =>
    cases l with
    | notify id event =>
      have hcore : (s.step (.notify id event)).core = s'.core := (onMemberEvent_core event).trans h
      simpa [transcript,Label.isNotify] using ih hcore
    | register r => simpa [transcript,Label.isNotify] using ih (step_core_congr (.register r) h)
    | append id event =>
      simpa [transcript,Label.isNotify] using ih (step_core_congr (.append id event) h)
    | drain id =>
      simpa [transcript,Label.isNotify,drain_result_congr id h] using
        ih (step_core_congr (.drain id) h)

/-! ## What a journal knows -/

/-- A member after a step that neither drains it nor shortens its log. -/
structure Follows (m m' : MemberState) : Prop where
  id : m'.id = m.id
  consumed : ∀ a ∈ consumedAnchors m.events, a ∈ consumedAnchors m'.events
  drained : ∀ a ∈ m'.drained, a ∈ m.drained
  kept : ∀ a ∈ m.drained, a ∈ m'.drained ∨ a ∈ consumedAnchors m'.events

private theorem Follows.refl (m : MemberState) : Follows m m :=
  ⟨rfl,fun _ h => h,fun _ h => h,fun _ h => Or.inl h⟩

private theorem Follows.trans {k m n : MemberState} (h : Follows k m) (h' : Follows m n) :
    Follows k n where
  id := h'.id.trans h.id
  consumed a ha := h'.consumed a (h.consumed a ha)
  drained a ha := h.drained a (h'.drained a ha)
  kept a ha := (h.kept a ha).elim (h'.kept a) fun hc => Or.inr (h'.consumed a hc)

/-- A member that registers for the first time. -/
structure Joins (s : TeamState) (m : MemberState) : Prop where
  drained : m.drained = []
  fresh : ∀ n ∈ s.members, n.id ≠ m.id

/-- Each member of `s'` follows one of `s` or joins it. -/
def Grows (s s' : TeamState) : Prop :=
  ∀ m' ∈ s'.members, (∃ m ∈ s.members, Follows m m') ∨ s.Joins m'

private theorem Grows.refl (s : TeamState) : s.Grows s :=
  fun m hm => Or.inl ⟨m,hm,.refl m⟩

private theorem Grows.follow {t : TeamState} (h : s.Grows s')
    (h' : ∀ m' ∈ t.members, ∃ m ∈ s'.members, Follows m m') : s.Grows t := by
  intro m hm
  obtain ⟨n,hn,hf⟩ := h' m hm
  rcases h n hn with ⟨k,hk,hkf⟩ | hj
  · exact Or.inl ⟨k,hk,hkf.trans hf⟩
  · refine Or.inr ⟨List.eq_nil_iff_forall_not_mem.mpr fun a ha => ?_,fun k hk => hf.id ▸ hj.fresh k hk⟩
    have hmem := hf.drained a ha
    rw [hj.drained] at hmem
    cases hmem

/-- The anchors in the journal are those that are drained or were consumed since. -/
structure Books (s : TeamState) (j : List (String × String)) : Prop where
  ids : (s.members.map MemberState.id).Nodup
  logs : s.WellLogged
  once : j.Nodup
  owner : ∀ p ∈ j, ∃ m ∈ s.members, m.id = p.1
  returned : ∀ m ∈ s.members, ∀ a ∈ m.drained, (m.id,a) ∈ j
  closed : ∀ m ∈ s.members, ∀ a, (m.id,a) ∈ j → a ∈ m.drained ∨ a ∈ consumedAnchors m.events

variable {j : List (String × String)}

private theorem Books.grow (h : s.Books j) (hgrows : s.Grows s') (hkeeps : s.Keeps s')
    (hids : (s'.members.map MemberState.id).Nodup) (hlogs : s'.WellLogged) : s'.Books j where
  ids := hids
  logs := hlogs
  once := h.once
  owner p hp := by
    obtain ⟨m,hm,hid⟩ := h.owner p hp
    obtain ⟨m',hm',hid'⟩ := hkeeps m hm
    exact ⟨m',hm',hid'.trans hid⟩
  returned m' hm' a ha := by
    rcases hgrows m' hm' with ⟨m,hm,hf⟩ | hj
    · exact hf.id ▸ h.returned m hm a (hf.drained a ha)
    · rw [hj.drained] at ha
      cases ha
  closed m' hm' a ha := by
    rcases hgrows m' hm' with ⟨m,hm,hf⟩ | hj
    · exact (h.closed m hm a (hf.id ▸ ha)).elim (hf.kept a) fun hc => Or.inr (hf.consumed a hc)
    · obtain ⟨m,hm,hid⟩ := h.owner _ ha
      exact absurd hid (hj.fresh m hm)

/-- What the journal and the member's own log leave out is what a drain leaves out. -/
theorem Books.owes_iff (h : s.Books j) (hm : m ∈ s.members) (hc : m.announceOnly = false)
    {u : PendingUnit} : u ∈ (s.reconcile m).pending ↔ s.Owes j m u := by
  rw [mem_pending_reconcile h.logs hc]
  constructor
  · rintro ⟨hoffer,hconsumed,hdrained⟩
    exact ⟨hoffer,hconsumed,fun hj => (h.closed m hm _ hj).elim hdrained hconsumed⟩
  · rintro ⟨hoffer,hconsumed,hj⟩
    exact ⟨hoffer,hconsumed,fun hd => hj (h.returned m hm _ hd)⟩

theorem mem_modifyMember {f : MemberState → MemberState} :
    m ∈ (s.modifyMember id f).members ↔ ∃ n ∈ s.members, (if n.id = id then f n else n) = m :=
  List.mem_map

private theorem modifyMember_ids {f : MemberState → MemberState}
    (h : ∀ m ∈ s.members, m.id = id → (f m).id = m.id) :
    (s.modifyMember id f).members.map MemberState.id = s.members.map MemberState.id := by
  simp only [modifyMember,List.map_map]
  refine List.map_congr_left fun m hm => ?_
  by_cases he : m.id = id <;> simp [he]
  exact (h m hm he).trans he

/-- A drain of a consuming member succeeds: it returns the rebuilt list and marks it. -/
theorem Books.drain_eq (h : s.Books j) (hm : m ∈ s.members) (hc : m.announceOnly = false) :
    ∃ messages, s.drain m.id =
        (s.modifyMember m.id fun _ =>
          { s.reconcile m with
            pending := []
            drained := ((s.reconcile m).pending.map fun u => u.anchor).reverse ++
              (s.reconcile m).drained },.ok messages) ∧
      (s.reconcile m).pending.map s.buildMessage = messages.map .ok ∧
      (messages.filterMap fun message => message.source.anchor?) =
        (s.reconcile m).pending.map fun u => u.anchor := by
  have hbuild : ∀ u ∈ (s.reconcile m).pending, ∃ message, s.buildMessage u = .ok message ∧
      message.source.anchor? = some u.anchor := by
    intro u hu
    obtain ⟨⟨n,hoffer⟩,-⟩ := (mem_pending_reconcile h.logs hc).mp hu
    exact hoffer.build h.ids
  obtain ⟨built,hrun,hbuilt,hanchors⟩ := drainUnits_ok (s.reconcile m).drained [] hbuild
  refine ⟨built,?_,hbuilt,hanchors⟩
  rw [drain,member?_eq_some h.ids hm]
  simp [hc,hrun]

theorem reconcile_id (m : MemberState) : (s.reconcile m).id = m.id := by
  unfold reconcile
  split <;> rfl

theorem reconcile_follows (m : MemberState) : Follows m (s.reconcile m) := by
  rcases Bool.eq_false_or_eq_true m.announceOnly with hm | hm
  · have hsame : s.reconcile m = m := by simp [reconcile,hm]
    exact hsame.symm ▸ .refl m
  · have hdrained : (s.reconcile m).drained = m.drained.filter (· ∉ consumedAnchors m.events) := by
      simp [reconcile,hm]
    have hevents : (s.reconcile m).events = m.events := by
      simp only [reconcile,hm]
      rfl
    refine ⟨reconcile_id m,fun a ha => hevents.symm ▸ ha,fun a ha => ?_,fun a ha => ?_⟩
    · rw [hdrained] at ha
      exact List.mem_of_mem_filter ha
    · rw [hdrained,hevents]
      by_cases hc : a ∈ consumedAnchors m.events
      · exact Or.inr hc
      · exact Or.inl (List.mem_filter.mpr ⟨ha,by simpa using hc⟩)

/-- A drain and its journal entries keep the books. -/
theorem Books.drain (h : s.Books j) (hm : m ∈ s.members) (hc : m.announceOnly = false)
    (hlogs : (s.step (.drain m.id)).WellLogged) :
    (s.step (.drain m.id)).Books (s.returns (.drain m.id) ++ j) := by
  obtain ⟨messages,hdrain,-,hanchors⟩ := h.drain_eq hm hc
  let anchors := (s.reconcile m).pending.map fun u => u.anchor
  let drained := { s.reconcile m with
    pending := [], drained := anchors.reverse ++ (s.reconcile m).drained }
  have hstep : s.step (.drain m.id) = s.modifyMember m.id fun _ => drained := by
    simp only [step,hdrain]
    rfl
  have hreturns : s.returns (.drain m.id) = anchors.map fun a => (m.id,a) := by
    simp only [returns,hdrain,hanchors]
    rfl
  have hf : Follows m (s.reconcile m) := reconcile_follows m
  have hid : drained.id = m.id := hf.id
  have hnew : ∀ a ∈ anchors, (m.id,a) ∉ j := by
    intro a ha
    obtain ⟨u,hu,rfl⟩ := List.mem_map.mp ha
    exact ((h.owes_iff hm hc).mp hu).2.2
  have hmem : ∀ n ∈ (s.modifyMember m.id fun _ => drained).members,
      n = drained ∨ (n ∈ s.members ∧ n.id ≠ m.id) := by
    intro n hn
    obtain ⟨k,hk,rfl⟩ := mem_modifyMember.mp hn
    by_cases hkm : k.id = m.id
    · simp [hkm]
    · simp [hkm,hk]
  have hkeep : ∀ k ∈ s.members, ∃ n ∈ (s.modifyMember m.id fun _ => drained).members,
      n.id = k.id := by
    intro k hk
    refine ⟨_,mem_modifyMember.mpr ⟨k,hk,rfl⟩,?_⟩
    by_cases hkm : k.id = m.id <;> simp [hkm,hid]
  rw [hstep] at hlogs ⊢
  rw [hreturns]
  refine ⟨?_,hlogs,?_,?_,?_,?_⟩
  · rw [modifyMember_ids fun k _ hkm => hid.trans hkm.symm]
    exact h.ids
  · refine List.nodup_append.mpr ⟨?_,h.once,?_⟩
    · exact (nodup_pending_reconcile h.logs hc).map fun a b he => (Prod.mk.inj he).2
    · rintro p hp q hq rfl
      obtain ⟨a,ha,rfl⟩ := List.mem_map.mp hp
      exact hnew a ha hq
  · intro p hp
    rcases List.mem_append.mp hp with hp | hp
    · obtain ⟨a,-,rfl⟩ := List.mem_map.mp hp
      exact hkeep m hm
    · obtain ⟨k,hk,hkp⟩ := h.owner p hp
      obtain ⟨n,hn,hnk⟩ := hkeep k hk
      exact ⟨n,hn,hnk.trans hkp⟩
  · intro n hn a ha
    rcases hmem n hn with rfl | ⟨hn,hne⟩
    · rw [hid]
      rcases List.mem_append.mp ha with ha | ha
      · exact List.mem_append_left _ (List.mem_map_of_mem (List.mem_reverse.mp ha))
      · exact List.mem_append_right _ (h.returned m hm a (hf.drained a ha))
    · exact List.mem_append_right _ (h.returned n hn a ha)
  · intro n hn a ha
    rcases hmem n hn with rfl | ⟨hn,hne⟩
    · rw [hid] at ha
      rcases List.mem_append.mp ha with ha | ha
      · obtain ⟨b,hb,he⟩ := List.mem_map.mp ha
        obtain rfl : b = a := (Prod.mk.inj he).2
        exact Or.inl (List.mem_append_left _ (List.mem_reverse.mpr hb))
      · rcases h.closed m hm a ha with hd | hd
        · exact (hf.kept a hd).imp_left (List.mem_append_right _)
        · exact Or.inr (hf.consumed a hd)
    · rcases List.mem_append.mp ha with ha | ha
      · obtain ⟨b,-,he⟩ := List.mem_map.mp ha
        exact absurd (Prod.mk.inj he).1.symm hne
      · exact h.closed n hn a ha

/-- A drain that fails at its guards changes nothing. -/
theorem drain_refused (h : ∀ m ∈ s.members, m.id = id → m.announceOnly = true) :
    s.step (.drain id) = s ∧ s.returns (.drain id) = [] := by
  cases hm : s.member? id with
  | none => simp [step,returns,drain,hm]
  | some m =>
    obtain ⟨hmem,hid⟩ := mem_of_member? hm
    simp [step,returns,drain,hm,h m hmem hid]

private theorem grows_of_core (h : s'.core = s.core) : s.Grows s' ∧
    s'.members.map MemberState.id = s.members.map MemberState.id := by
  obtain ⟨-,-,hmembers⟩ := core_eq_iff.mp h
  constructor
  · intro m' hm'
    have hcore : m'.core ∈ s.members.map MemberState.core := hmembers ▸ List.mem_map_of_mem hm'
    obtain ⟨m,hm,he⟩ := List.mem_map.mp hcore
    have hreg : m.registration = m'.registration := congrArg (fun x => x.registration) he
    have hdrained : m.drained = m'.drained := congrArg (fun x => x.drained) he
    have hf : Follows m m' :=
      ⟨by simp [MemberState.id,hreg],fun a ha => by rw [MemberState.events,← hreg]; exact ha,
        fun a ha => hdrained ▸ ha,fun a ha => Or.inl (hdrained ▸ ha)⟩
    exact Or.inl ⟨m,hm,hf⟩
  · have hids : ∀ t : TeamState, t.members.map MemberState.id =
        (t.members.map MemberState.core).map MemberState.id := fun t => by
      rw [List.map_map]
      rfl
    rw [hids s',hids s,hmembers]

private theorem append_grows (event : SessionEvent) : s.Grows (s.append id event) := by
  intro m' hm'
  obtain ⟨m,hm,rfl⟩ := mem_modifyMember.mp hm'
  refine Or.inl ⟨m,hm,?_⟩
  split
  · refine ⟨rfl,fun a ha => ?_,fun _ h => h,fun _ h => Or.inl h⟩
    show a ∈ consumedAnchors (m.events ++ [event])
    rw [consumedAnchors,List.filterMap_append]
    exact List.mem_append_left _ ha
  · exact .refl m

private theorem append_ids (event : SessionEvent) :
    (s.append id event).members.map MemberState.id = s.members.map MemberState.id :=
  modifyMember_ids fun _ _ _ => rfl

theorem mem_of_member?_isSome : (s.member? id).isSome ↔ ∃ m ∈ s.members, m.id = id := by
  simp [member?]

/-- An enrolment keeps every member, follows them and adds at most one. -/
theorem enroll_grows (r : TeamMemberRegistration) {t : TeamState} (h : s.Grows t)
    (hkeeps : s.Keeps t) (hids : (t.members.map MemberState.id).Nodup) :
    s.Grows (t.enroll r) ∧ s.Keeps (t.enroll r) ∧
      ((t.enroll r).members.map MemberState.id).Nodup := by
  unfold enroll
  cases hm : t.member? r.source.id with
  | some existing =>
    let refresh : MemberState → MemberState := fun m =>
      { m with registration := { r with source := m.registration.source } }
    have hfollow : ∀ m' ∈ (t.modifyMember r.source.id refresh).members,
        ∃ m ∈ t.members, Follows m m' := by
      intro m' hm'
      obtain ⟨m,hm,rfl⟩ := mem_modifyMember.mp hm'
      refine ⟨m,hm,?_⟩
      split
      · exact ⟨rfl,fun _ h => h,fun _ h => h,fun _ h => Or.inl h⟩
      · exact .refl m
    refine ⟨h.follow hfollow,?_,?_⟩
    · intro m hm
      obtain ⟨n,hn,hid⟩ := hkeeps m hm
      refine ⟨_,mem_modifyMember.mpr ⟨n,hn,rfl⟩,?_⟩
      split
      · exact hid
      · exact hid
    · have hsame : (t.modifyMember r.source.id refresh).members.map MemberState.id =
          t.members.map MemberState.id := modifyMember_ids fun _ _ _ => rfl
      exact hsame.symm ▸ hids
  | none =>
    have hfresh : ∀ m ∈ t.members, m.id ≠ r.source.id := fun m hmem he => by
      have hsome := mem_of_member?_isSome.mpr ⟨m,hmem,he⟩
      simp [hm] at hsome
    refine ⟨?_,?_,?_⟩
    · intro m' hm'
      rcases List.mem_append.mp hm' with hm' | hm'
      · exact h m' hm'
      · obtain rfl := List.mem_singleton.mp hm'
        refine Or.inr ⟨rfl,fun k hk he => ?_⟩
        obtain ⟨n,hn,hid⟩ := hkeeps k hk
        exact hfresh n hn (hid.trans he)
    · intro m hm
      obtain ⟨n,hn,hid⟩ := hkeeps m hm
      exact ⟨n,List.mem_append_left _ hn,hid⟩
    · rw [List.map_append,List.nodup_append]
      refine ⟨hids,by simp,?_⟩
      rintro a ha b hb rfl
      obtain ⟨m,hmem,rfl⟩ := List.mem_map.mp ha
      have hb : m.id = r.source.id := by simpa [MemberState.id] using hb
      exact hfresh m hmem hb

private theorem foldl_enroll_grows (rs : List TeamMemberRegistration) {t : TeamState}
    (h : s.Grows t) (hkeeps : s.Keeps t) (hids : (t.members.map MemberState.id).Nodup) :
    s.Grows (rs.foldl enroll t) ∧ ((rs.foldl enroll t).members.map MemberState.id).Nodup := by
  induction rs generalizing t with
  | nil => exact ⟨h,hids⟩
  | cons r rs ih =>
    obtain ⟨hg,hk,hi⟩ := enroll_grows r h hkeeps hids
    exact ih hg hk hi

/-- A registration that keeps every member lets them grow. -/
theorem register_grows {r : TeamRegistration} (h : s.register r = .ok s') (hkeeps : s.Keeps s')
    (hids : (s.members.map MemberState.id).Nodup) :
    s.Grows s' ∧ (s'.members.map MemberState.id).Nodup := by
  unfold register at h
  dsimp only at h
  split at h
  · cases h
  · split at h
    · cases h
    · let ids := r.members.map fun member => member.source.id
      let t : TeamState := { s.resolveTeam ids with goal := r.goal, context := r.context }
      let enrolled := r.members.foldl enroll t
      let kept := enrolled.members.filter fun m => decide (m.id ∈ ids)
      let u : TeamState := { enrolled with members := kept }
      have hs' : s' = { u with members := kept.map u.reconcile } := (Except.ok.inj h).symm
      -- the members that stay are members of the resolved team
      have ht : t.members = s.members := by
        show (s.resolveTeam ids).members = s.members
        unfold resolveTeam
        split
        · rfl
        · rename_i hnone
          refine (List.eq_nil_iff_forall_not_mem.mpr fun m hm => hnone ?_).symm
          obtain ⟨m',hm',hid⟩ := hkeeps m hm
          rw [hs'] at hm'
          obtain ⟨n,hn,rfl⟩ := List.mem_map.mp hm'
          have hmem : n.id ∈ ids := by simpa using (List.mem_filter.mp hn).2
          rw [reconcile_id] at hid
          exact List.any_eq_true.mpr ⟨n.id,hmem,mem_of_member?_isSome.mpr ⟨m,hm,hid.symm⟩⟩
      have hstart : s.Grows t := by
        unfold Grows
        rw [ht]
        exact Grows.refl s
      have hkept : s.Keeps t := by
        unfold Keeps
        rw [ht]
        exact fun m hm => ⟨m,hm,rfl⟩
      obtain ⟨hgrows,hnodup⟩ := foldl_enroll_grows r.members hstart hkept (ht.symm ▸ hids)
      constructor
      · refine hgrows.follow fun m' hm' => ?_
        rw [hs'] at hm'
        obtain ⟨n,hn,rfl⟩ := List.mem_map.mp hm'
        exact ⟨n,List.mem_of_mem_filter hn,reconcile_follows n⟩
      · have hsame : s'.members.map MemberState.id = kept.map MemberState.id := by
          rw [hs',List.map_map]
          exact List.map_congr_left fun m _ => reconcile_id m
        rw [hsame]
        exact hnodup.sublist (List.filter_sublist.map _)

/-- Every step keeps the books. -/
theorem books_step {l : Label} (h : s.Books j) (hl : s.Admissible l) :
    (s.step l).Books (s.returns l ++ j) := by
  obtain ⟨hkeeps,hlogs⟩ := hl
  cases l with
  | register r =>
    cases hr : s.register r with
    | error error =>
      have hstep : s.step (.register r) = s := by simp [step,hr]
      rw [hstep]
      exact h
    | ok s' =>
      have hstep : s.step (.register r) = s' := by simp [step,hr]
      rw [hstep] at hkeeps hlogs ⊢
      obtain ⟨hgrows,hids⟩ := register_grows hr hkeeps h.ids
      exact h.grow hgrows hkeeps hids hlogs
  | append id event =>
    exact h.grow (append_grows event) hkeeps ((append_ids event).symm ▸ h.ids) hlogs
  | notify id event =>
    obtain ⟨hgrows,hids⟩ := grows_of_core (@onMemberEvent_core s id event)
    exact h.grow hgrows hkeeps (hids.symm ▸ h.ids) hlogs
  | drain id =>
    by_cases hm : ∃ m ∈ s.members, m.id = id ∧ m.announceOnly = false
    · obtain ⟨m,hm,rfl,hc⟩ := hm
      exact h.drain hm hc hlogs
    · have hrefused := @drain_refused s id fun m hmem hid => by
        by_contra hc
        exact hm ⟨m,hmem,hid,by simpa using hc⟩
      rw [hrefused.1,hrefused.2]
      exact h

private theorem books_init : ({} : TeamState).Books [] where
  ids := List.nodup_nil
  logs := by simp [WellLogged]
  once := List.nodup_nil
  owner p hp := by cases hp
  returned m hm := by cases hm
  closed m hm := by cases hm

private theorem books_reach {x : TeamState × List (String × String)}
    (h : Lts.ReachUnder (teamSystem.journaled observe []) (fun x l => x.1.Admissible l) x) :
    x.1.Books x.2 := by
  induction h with
  | init hx =>
    obtain ⟨hs,hj⟩ := hx
    rw [hs,hj]
    exact books_init
  | step _ hl hstep ih =>
    obtain ⟨hs,hj⟩ := Lts.journaled_step.mp hstep
    rw [hj,← Option.some.inj hs]
    exact books_step ih hl

/-- A drain returns exactly what is owed, in the order of the logs, whatever the relay was told;
nothing is returned twice. -/
theorem drain_exactly_once :
    (∀ x, Lts.ReachUnder (teamSystem.journaled observe []) (fun x l => x.1.Admissible l) x →
      x.2.Nodup ∧ ∀ m ∈ x.1.members, m.announceOnly = false →
        ∃ (units : List PendingUnit) (messages : List UserMessage),
          (x.1.drain m.id).2 = .ok messages ∧
          units.map x.1.buildMessage = messages.map .ok ∧
          (∀ u, u ∈ units ↔ x.1.Owes x.2 m u) ∧
          (units.map fun u => u.anchor).Nodup ∧
          units.Pairwise PendingUnit.Before ∧
          units.Pairwise fun a b => a.senderSessionId = b.senderSessionId → a.seq < b.seq) ∧
    ∀ (s : TeamState) (ls ls' : List Label),
      (ls.filter fun l => !l.isNotify) = (ls'.filter fun l => !l.isNotify) →
      s.transcript ls = s.transcript ls' := by
  constructor
  · intro x hx
    have h := books_reach hx
    refine ⟨h.once,fun m hm hc => ?_⟩
    obtain ⟨messages,hdrain,hbuilt,-⟩ := h.drain_eq hm hc
    have howes : ∀ u, u ∈ (x.1.reconcile m).pending ↔ x.1.Owes x.2 m u := fun u => h.owes_iff hm hc
    have hnodup := nodup_pending_reconcile h.logs hc
    have hsorted := @pairwise_pending_reconcile x.1 m hc
    refine ⟨_,messages,by rw [hdrain],hbuilt,howes,hnodup,hsorted,?_⟩
    have hne : (x.1.reconcile m).pending.Pairwise fun a b => a.anchor ≠ b.anchor :=
      List.pairwise_map.mp hnodup
    refine (hsorted.and hne).imp_of_mem fun {a b} ha hb hab hsender => ?_
    obtain ⟨⟨n,hoffer⟩,-⟩ := (howes a).mp ha
    obtain ⟨⟨k,hoffer'⟩,-⟩ := (howes b).mp hb
    have hid : n.id = k.id := by rw [← hoffer.sender,hsender,hoffer'.sender]
    obtain rfl : n = k := by
      have hn := member?_eq_some h.ids hoffer.mem
      rw [hid,member?_eq_some h.ids hoffer'.mem] at hn
      exact (Option.some.inj hn).symm
    exact seq_lt_of_before (h.logs.1 n hoffer.mem) hoffer.derivable hoffer'.derivable hab.2 hab.1
  · intro s ls ls' hls
    rw [transcript_filter ls rfl,transcript_filter ls' rfl,hls]

/-- A player with an open call, a planner that listens, an announcer. -/
def demoLabels : List Label :=
  let member (id role : String) (events : List SessionEvent) (consumes : Option Bool) :
      TeamMemberRegistration := ⟨⟨id,events,consumes,false⟩,role,""⟩
  let speech (id : String) (time : Int) (seq : Nat) : SessionEvent :=
    ⟨time,seq,.assistantMessage ⟨id,[.text "go"]⟩⟩
  [.register ⟨"win",[member "p" "player" [⟨0,0,.toolCall "c0" "open" "[]"⟩] none,
      member "q" "planner" [] none,member "a" "announcer" [] (some false)],none⟩,
    .append "p" (speech "m1" 1 1),
    .append "a" (speech "m2" 1 0),
    .notify "a" (speech "m2" 1 0),
    .drain "q",
    .append "p" ⟨3,2,.toolResult ⟨"c0",[.text "won"]⟩⟩,
    .append "p" (speech "m3" 3 3),
    .append "q" ⟨3,0,.userMessage (.teamBroadcast ⟨"player","p","m1",none⟩)⟩]

theorem drain_exactly_once_demo :
    ∃ x m, Lts.ReachUnder (teamSystem.journaled observe []) (fun x l => x.1.Admissible l) x ∧
      m ∈ x.1.members ∧ x.2 = [("q","m2"),("q","m1")] ∧
      ((x.1.reconcile m).pending.map fun u => u.anchor) = ["c0","m3"] ∧ x.2.Nodup ∧
      (∃ (units : List PendingUnit) (messages : List UserMessage), (x.1.drain m.id).2 = .ok messages ∧
        units.map x.1.buildMessage = messages.map .ok ∧ ∀ u, u ∈ units ↔ x.1.Owes x.2 m u) ∧
      x.1.transcript [.notify "p" ⟨9,9,.other "turn-start"⟩,.drain "q"] =
        x.1.transcript [.drain "q"] := by
  have hinit : (teamSystem.journaled observe []).init (({} : TeamState),[]) := ⟨rfl,rfl⟩
  have hrun := Lts.reachUnder_of_runUnder_any (M := teamSystem.journaled observe [])
    (C := fun x l => x.1.Admissible l) (c := fun x l => decide (x.1.Admissible l))
    (fun _ _ h => of_decide_eq_true h)
    (p := fun x => decide (x.2 = [("q","m2"),("q","m1")]) && (x.1.member? "q").any fun m =>
      !m.announceOnly && decide (((x.1.reconcile m).pending.map fun u => u.anchor) = ["c0","m3"]))
    demoLabels (.init hinit) (by decide)
  obtain ⟨x,hx,hp⟩ := hrun
  simp only [Bool.and_eq_true,decide_eq_true_eq] at hp
  obtain ⟨hj,hq⟩ := hp
  obtain ⟨m,hm,hq⟩ := (Option.any_eq_true _ _).mp hq
  simp only [Bool.and_eq_true,decide_eq_true_eq] at hq
  obtain ⟨hc,hpending⟩ := hq
  have hmem := (mem_of_member? hm).1
  obtain ⟨hnodup,hdrains⟩ := drain_exactly_once.1 x hx
  obtain ⟨units,messages,hdrain,hbuilt,howes,-⟩ := hdrains m hmem (by simpa using hc)
  exact ⟨x,m,hx,hmem,hj,hpending,hnodup,⟨units,messages,hdrain,hbuilt,howes⟩,
    drain_exactly_once.2 x.1 _ _ rfl⟩

end TeamState

end Dominion.Team
