import Dominion.Framework.Lts
import Dominion.Solver.StatefulInstances

/-! # The polling resolver of a Go channel

One goroutine resolves a target at the ticks of a timer and at calls of `ResolveNow`, and hands
what is new to the channel.  A call of `ResolveNow` is never lost, and between two resolutions the
channel has been told how the last one ended. -/
namespace Dominion.Grpc.Polling

open Dominion.Framework
open Dominion.Deploy.Domain (Err goQuote)
open Dominion.Deploy.K8s (StatefulInstance)
open Dominion.Solver (Target)

/-- An address of a channel. -/
structure Address where
  addr : String
  deriving DecidableEq

def buildResolverAddresses (addresses : List String) : List Address :=
  addresses.map Address.mk

/-- The endpoints of the first instance with the index; that there are none is no error. -/
def statefulResolverAdapter (index : Int) :
    Except Err (List StatefulInstance) → Except Err (List String)
  | .error err => .error err
  | .ok instances =>
    match instances.find? fun i => decide (i.index = index) with
    | some i => .ok i.endpoints
    | none => .ok []

/-- How the channel answers `UpdateState`; a rejection may be `ErrBadResolverState`. -/
inductive Update where
  | accepted
  | rejected (badResolverState : Bool) (err : Err)
  deriving DecidableEq

/-- A call of the channel. -/
inductive Call where
  | updateState (addresses : List Address) (update : Update)
  | reportError (err : Err)
  deriving DecidableEq

/-- Where the goroutine is. -/
inductive Phase where
  | selecting
  | resolving
  | updating (addresses : List Address)
  | returned
  deriving DecidableEq

structure Resolver where
  lastAddrs : List Address := []
  hasState : Bool := false
  phase : Phase := .selecting
  /-- The ticker runs, and has a tick that was not received. -/
  ticking : Bool := true
  tick : Bool := false
  /-- The channel of `ResolveNow` holds its one element. -/
  resolveNowCh : Bool := false
  done : Bool := false
  /-- The calls of the channel, in their order. -/
  calls : List Call := []
  /-- History: the calls of `ResolveNow`, and those made before the last resolution began. -/
  requested : Nat := 0
  served : Nat := 0
  /-- History: how the last resolution ended. -/
  outcome : Option (Except Err (List Address)) := none
  /-- History: the calls of the channel when a call of `Close` first returned. -/
  closed : Option (List Call) := none

namespace Resolver

variable (target : Target) (r : Resolver)

def sameState (addresses : List Address) : Bool :=
  r.hasState && decide (r.lastAddrs = addresses)

def storeState (addresses : List Address) : Resolver :=
  { r with lastAddrs := addresses,hasState := true }

/-- How far `Resolve` comes once the target is resolved: it returns, or it calls `UpdateState`. -/
inductive Progress where
  | returns (err : Option Err)
  | updates (addresses : List Address)

def progress : Except Err (List String) → Progress
  | .error err => .returns (some err)
  | .ok addresses =>
    let stateAddresses := buildResolverAddresses addresses
    if r.sameState stateAddresses then .returns none else .updates stateAddresses

/-- `Resolve` from the return of `UpdateState` on. -/
def updated (addresses : List Address) (update : Update) : Resolver × Option Err :=
  let r := { r with calls := r.calls ++ [.updateState addresses update] }
  match update with
  | .accepted => (r.storeState addresses,none)
  -- The channel takes no empty list, but an empty list is a legal result.
  | .rejected true _ => (r.storeState addresses,none)
  | .rejected false err => (r,some (err.withContext ("update resolver state for " ++
      goQuote target.app ++ "/" ++ goQuote target.service ++ ": ")))

/-- `refresh` after `Resolve` has returned. -/
def refreshed (err : Option Err) : Resolver :=
  let r := { r with phase := .selecting }
  match err with
  | none => r
  | some err => { r with calls := r.calls ++ [.reportError err] }

def stateOf (outcome : Except Err (List String)) : Except Err (List Address) :=
  outcome.map buildResolverAddresses

/-- `Build`, for how its resolution and its `UpdateState` end. -/
def build (outcome : Except Err (List String)) (update : Update) : Except Err Resolver :=
  let r : Resolver := { outcome := some (stateOf outcome) }
  match r.progress outcome with
  | .returns (some err) => .error err
  | .returns none => .ok r
  | .updates addresses =>
    match r.updated target addresses update with
    | (_,some err) => .error err
    | (r,none) => .ok r

/-- The goroutine begins a resolution. -/
def begin : Resolver :=
  { r with phase := .resolving,served := r.requested }

end Resolver

/-! ## Runs -/

inductive Event (α : Type) where
  | tick
  | resolveNow
  | close
  /-- A call of `Close` returns. -/
  | closeReturns
  /-- The `select` takes one of its cases. -/
  | selectDone
  | selectTick
  | selectResolveNow
  | resolved (answer : Except Err α)
  | updateReturns (update : Update)

section system

variable {α : Type} (target : Target) (adapt : Except Err α → Except Err (List String))

def step (r : Resolver) : Event α → Option Resolver
  | .tick => if r.ticking then some { r with tick := true } else none
  | .resolveNow => some { r with resolveNowCh := true,requested := r.requested + 1 }
  | .close => some { r with done := true,ticking := false }
  | .closeReturns =>
    if r.done ∧ r.phase = .returned then some { r with closed := r.closed.orElse fun _ => r.calls }
    else none
  | .selectDone =>
    if r.phase = .selecting ∧ r.done then some { r with phase := .returned } else none
  | .selectTick =>
    if r.phase = .selecting ∧ r.tick then some { r with tick := false }.begin else none
  | .selectResolveNow =>
    if r.phase = .selecting ∧ r.resolveNowCh then some { r with resolveNowCh := false }.begin
    else none
  | .resolved answer =>
    if r.phase = .resolving then
      let outcome := adapt answer
      let r := { r with outcome := some (Resolver.stateOf outcome) }
      match r.progress outcome with
      | .returns err => some (r.refreshed err)
      | .updates addresses => some { r with phase := .updating addresses }
    else none
  | .updateReturns update =>
    match r.phase with
    | .updating addresses =>
      let u := r.updated target addresses update
      some (u.1.refreshed u.2)
    | _ => none

def polling : Lts Resolver (Event α) where
  init r := ∃ answer update, Resolver.build target (adapt answer) update = .ok r
  step := step target adapt

end system

/-! ## What the channel has been told -/

/-- The addresses that a call leaves the channel with, an empty list that it rejects included. -/
def Call.taken : Call → Option (List Address)
  | .updateState addresses .accepted => some addresses
  | .updateState addresses (.rejected true _) => some addresses
  | _ => none

/-- The addresses of the last update that the channel has taken. -/
def current (calls : List Call) : Option (List Address) :=
  (calls.filterMap Call.taken).getLast?

/-- No update repeats the addresses that the channel has. -/
def NoRepeats (calls : List Call) : Prop :=
  ∀ before addresses update after, calls = before ++ .updateState addresses update :: after →
    current before ≠ some addresses

/-- The channel has been told how the last resolution ended. -/
def Told (target : Target) (r : Resolver) : Except Err (List Address) → Prop
  | .error err => r.calls.getLast? = some (.reportError err)
  | .ok addresses => current r.calls = some addresses ∨
      ∃ before err, r.calls = before ++ [.updateState addresses (.rejected false err),
        .reportError (err.withContext ("update resolver state for " ++ goQuote target.app ++ "/" ++
          goQuote target.service ++ ": "))]

section calls

variable {calls : List Call} {addresses : List Address}

private theorem current_append (c : Call) :
    current (calls ++ [c]) = c.taken.orElse fun _ => current calls := by
  cases h : c.taken <;> simp [current,List.filterMap_append,h]

private theorem noRepeats_append {c : Call} (h : NoRepeats calls)
    (hc : ∀ addresses update, c = .updateState addresses update → current calls ≠ some addresses) :
    NoRepeats (calls ++ [c]) := by
  intro before addresses update after heq
  rcases List.eq_nil_or_concat after with rfl | ⟨after',last,rfl⟩
  · obtain ⟨hcalls,hlast⟩ := List.append_inj' heq rfl
    exact hcalls ▸ hc addresses update (List.cons.inj hlast).1
  · rw [List.concat_eq_append,← List.cons_append,← List.append_assoc] at heq
    obtain ⟨hcalls,-⟩ := List.append_inj' heq rfl
    exact h before addresses update after' hcalls

end calls

/-- What holds between two events. -/
structure Inv (target : Target) (r : Resolver) : Prop where
  taken : current r.calls = if r.hasState then some r.lastAddrs else none
  noRepeats : NoRepeats r.calls
  served : r.resolveNowCh = false → r.served = r.requested
  settled : r.phase = .selecting ∨ r.phase = .returned →
    ∃ outcome, r.outcome = some outcome ∧ Told target r outcome
  updating : ∀ addresses, r.phase = .updating addresses →
    r.outcome = some (.ok addresses) ∧ r.sameState addresses = false
  closed : ∀ calls, r.closed = some calls → r.phase = .returned ∧ r.calls = calls

section inv

variable {α : Type} {target : Target} {adapt : Except Err α → Except Err (List String)}
  {r r' : Resolver} {addresses : List Address}

/-- What holds once the answer to `UpdateState` is known, whether `Resolve` then fails or not. -/
structure Answered (target : Target) (r : Resolver) (addresses : List Address) (err : Option Err) :
    Prop where
  taken : current r.calls = if r.hasState then some r.lastAddrs else none
  noRepeats : NoRepeats r.calls
  told : Told target (r.refreshed err) (.ok addresses)

/-- The channel takes an update, or `Resolve` fails. -/
theorem updated_answered (target : Target)
    (hcurrent : current r.calls = if r.hasState then some r.lastAddrs else none)
    (hrepeats : NoRepeats r.calls) (hnew : r.sameState addresses = false) (update : Update) :
    Answered target (r.updated target addresses update).1 addresses
      (r.updated target addresses update).2 := by
  have hdiffers : current r.calls ≠ some addresses := by
    rw [hcurrent]
    intro he
    cases hstate : r.hasState with
    | false =>
      rw [hstate] at he
      cases he
    | true =>
      rw [hstate] at he
      simp [Resolver.sameState,hstate,Option.some.inj he] at hnew
  have hnorepeats : NoRepeats (r.calls ++ [.updateState addresses update]) := by
    apply noRepeats_append hrepeats
    rintro addresses' update' ⟨⟩
    exact hdiffers
  cases update with
  | accepted =>
    have htaken : current (r.calls ++ [.updateState addresses .accepted]) = some addresses :=
      current_append _
    exact ⟨htaken,hnorepeats,Or.inl htaken⟩
  | rejected badResolverState err =>
    cases badResolverState with
    | true =>
      have htaken : current (r.calls ++ [.updateState addresses (.rejected true err)]) =
          some addresses := current_append _
      exact ⟨htaken,hnorepeats,Or.inl htaken⟩
    | false =>
      refine ⟨(current_append _).trans hcurrent,hnorepeats,Or.inr ⟨r.calls,err,?_⟩⟩
      exact List.append_assoc _ _ _

/-- A resolver that has just finished a resolution. -/
theorem Answered.inv {err : Option Err} (h : Answered target r addresses err)
    (hserved : r.resolveNowCh = false → r.served = r.requested)
    (houtcome : r.outcome = some (.ok addresses)) (hclosed : r.closed = none) :
    Inv target (r.refreshed err) := by
  have hreport : ∀ err, current (r.calls ++ [.reportError err]) = current r.calls := fun err =>
    current_append _
  cases err with
  | none =>
    refine ⟨h.taken,h.noRepeats,hserved,fun _ => ⟨_,houtcome,h.told⟩,nofun,?_⟩
    intro calls hcalls
    rw [show r.closed = some calls from hcalls] at hclosed
    cases hclosed
  | some err =>
    refine ⟨(hreport err).trans h.taken,?_,hserved,fun _ => ⟨_,houtcome,h.told⟩,nofun,?_⟩
    · exact noRepeats_append h.noRepeats nofun
    · intro calls hcalls
      rw [show r.closed = some calls from hcalls] at hclosed
      cases hclosed

private theorem Inv.open (h : Inv target r) (hphase : r.phase ≠ .returned) : r.closed = none := by
  cases hc : r.closed with
  | none => rfl
  | some calls => exact absurd (h.closed calls hc).1 hphase

private theorem build_inv {outcome : Except Err (List String)} {update : Update}
    (h : Resolver.build target outcome update = .ok r) : Inv target r := by
  cases outcome with
  | error err => cases h
  | ok found =>
    let r₀ : Resolver := { outcome := some (.ok (buildResolverAddresses found)) }
    have hempty : NoRepeats r₀.calls := by
      intro before addresses update after heq
      cases before <;> cases heq
    have hnew : r₀.sameState (buildResolverAddresses found) = false := rfl
    have hanswered := updated_answered target rfl hempty hnew update
    have hbuild : (match r₀.updated target (buildResolverAddresses found) update with
        | (_,some err) => .error err
        | (r,none) => .ok r) = Except.ok r := h
    have hkept : (r₀.updated target (buildResolverAddresses found) update).1.phase = .selecting ∧
        (r₀.updated target (buildResolverAddresses found) update).1.closed = none ∧
        (r₀.updated target (buildResolverAddresses found) update).1.outcome = r₀.outcome ∧
        (r₀.updated target (buildResolverAddresses found) update).1.served =
          (r₀.updated target (buildResolverAddresses found) update).1.requested := by
      cases update with
      | accepted => exact ⟨rfl,rfl,rfl,rfl⟩
      | rejected bad err => cases bad <;> exact ⟨rfl,rfl,rfl,rfl⟩
    split at hbuild
    · cases hbuild
    · rename_i r₁ hupdated
      cases hbuild
      rw [hupdated] at hanswered hkept
      obtain ⟨hphase,hclosed,houtcome,hserved⟩ := hkept
      have hinv := hanswered.inv (fun _ => hserved) houtcome hclosed
      have hsame : r.refreshed none = r := by
        rw [Resolver.refreshed,← hphase]
      rwa [hsame] at hinv

/-- An event that touches neither the channel nor the resolution. -/
theorem Inv.congr (h : Inv target r) (hcalls : r'.calls = r.calls)
    (hlast : r'.lastAddrs = r.lastAddrs)
    (hhas : r'.hasState = r.hasState) (houtcome : r'.outcome = r.outcome)
    (hphase : r'.phase = r.phase ∨ r.phase = .selecting ∧ r'.phase = .returned)
    (hserved : r'.resolveNowCh = false → r'.served = r'.requested)
    (hclosed : ∀ calls, r'.closed = some calls → r'.phase = .returned ∧ r'.calls = calls) :
    Inv target r' where
  taken := by rw [hcalls,hlast,hhas]; exact h.taken
  noRepeats := by rw [hcalls]; exact h.noRepeats
  served := hserved
  settled hp := by
    have hp' : r.phase = .selecting ∨ r.phase = .returned := by
      rcases hphase with hphase | hphase
      · rwa [hphase] at hp
      · exact Or.inl hphase.1
    obtain ⟨outcome,ho,htold⟩ := h.settled hp'
    refine ⟨outcome,houtcome.trans ho,?_⟩
    unfold Told at htold ⊢
    rw [hcalls]
    exact htold
  updating addresses hp := by
    rcases hphase with hphase | hphase
    · obtain ⟨ho,hs⟩ := h.updating addresses (hphase ▸ hp)
      refine ⟨houtcome.trans ho,?_⟩
      rw [Resolver.sameState,hlast,hhas]
      exact hs
    · rw [hphase.2] at hp
      cases hp
  closed := hclosed

private theorem begin_inv (h : Inv target r) (hphase : r.phase = .selecting) (tick slot : Bool) :
    Inv target { r with tick := tick,resolveNowCh := slot }.begin where
  taken := h.taken
  noRepeats := h.noRepeats
  served _ := rfl
  settled hp := by rcases hp with hp | hp <;> cases hp
  updating addresses hp := by cases hp
  closed calls hcalls := by
    have hopen := h.open (by rw [hphase]; decide)
    rw [show r.closed = some calls from hcalls] at hopen
    cases hopen

private theorem resolved_inv (h : Inv target r) (hphase : r.phase = .resolving)
    (outcome : Except Err (List String)) :
    Inv target (match { r with outcome := some (Resolver.stateOf outcome) }.progress outcome with
      | .returns err => { r with outcome := some (Resolver.stateOf outcome) }.refreshed err
      | .updates addresses =>
        { r with outcome := some (Resolver.stateOf outcome),phase := .updating addresses }) := by
  have hopen := h.open (by rw [hphase]; decide)
  cases outcome with
  | error err =>
    refine ⟨(current_append _).trans h.taken,noRepeats_append h.noRepeats nofun,h.served,?_,
      nofun,?_⟩
    · intro _
      refine ⟨.error err,rfl,?_⟩
      exact List.getLast?_concat
    · intro calls hcalls
      rw [show r.closed = some calls from hcalls] at hopen
      cases hopen
  | ok found =>
    unfold Resolver.progress
    dsimp only
    by_cases hsame : r.sameState (buildResolverAddresses found) = true
    · have hsame' : Resolver.sameState { r with outcome := some (Resolver.stateOf (.ok found)) }
          (buildResolverAddresses found) = true := hsame
      rw [if_pos hsame']
      have hknown : current r.calls = some (buildResolverAddresses found) := by
        simp only [Resolver.sameState,Bool.and_eq_true,decide_eq_true_eq] at hsame
        rw [h.taken,hsame.1,← hsame.2]
        rfl
      exact Answered.inv ⟨h.taken,h.noRepeats,Or.inl hknown⟩ h.served rfl hopen
    · have hsame' : ¬Resolver.sameState { r with outcome := some (Resolver.stateOf (.ok found)) }
          (buildResolverAddresses found) = true := hsame
      rw [if_neg hsame']
      refine ⟨h.taken,h.noRepeats,h.served,?_,?_,?_⟩
      · intro hp
        rcases hp with hp | hp <;> cases hp
      · intro addresses hp
        cases hp
        exact ⟨rfl,Bool.eq_false_iff.mpr hsame⟩
      · intro calls hcalls
        rw [show r.closed = some calls from hcalls] at hopen
        cases hopen

private theorem updateReturns_inv (h : Inv target r) (hphase : r.phase = .updating addresses)
    (update : Update) : Inv target ((r.updated target addresses update).1.refreshed
      (r.updated target addresses update).2) := by
  obtain ⟨houtcome,hnew⟩ := h.updating addresses hphase
  have hopen := h.open (by rw [hphase]; nofun)
  have hanswered := updated_answered target h.taken h.noRepeats hnew update
  have hserved := h.served
  cases update with
  | accepted => exact hanswered.inv hserved houtcome hopen
  | rejected bad err => cases bad <;> exact hanswered.inv hserved houtcome hopen

private theorem step_inv {e : Event α} (h : Inv target r)
    (hstep : step target adapt r e = some r') :
    Inv target r' := by
  cases e with
  | tick =>
    obtain ⟨-,rfl⟩ := of_guard hstep
    exact h.congr rfl rfl rfl rfl (Or.inl rfl) h.served h.closed
  | resolveNow =>
    cases hstep
    exact h.congr rfl rfl rfl rfl (Or.inl rfl) nofun h.closed
  | close =>
    cases hstep
    exact h.congr rfl rfl rfl rfl (Or.inl rfl) h.served h.closed
  | closeReturns =>
    obtain ⟨⟨-,hphase⟩,rfl⟩ := of_guard hstep
    refine h.congr rfl rfl rfl rfl (Or.inl rfl) h.served ?_
    intro calls hcalls
    refine ⟨hphase,?_⟩
    cases hclosed : r.closed with
    | none =>
      rw [hclosed] at hcalls
      exact Option.some.inj hcalls
    | some calls' =>
      rw [hclosed] at hcalls
      cases hcalls
      exact (h.closed _ hclosed).2
  | selectDone =>
    obtain ⟨⟨hphase,-⟩,rfl⟩ := of_guard hstep
    refine h.congr rfl rfl rfl rfl (Or.inr ⟨hphase,rfl⟩) h.served ?_
    intro calls hcalls
    exact ⟨rfl,(h.closed calls hcalls).2⟩
  | selectTick =>
    obtain ⟨⟨hphase,-⟩,rfl⟩ := of_guard hstep
    exact begin_inv h hphase false r.resolveNowCh
  | selectResolveNow =>
    obtain ⟨⟨hphase,-⟩,rfl⟩ := of_guard hstep
    exact begin_inv h hphase r.tick false
  | resolved answer =>
    simp only [step] at hstep
    split at hstep
    · rename_i hphase
      have hinv := resolved_inv h hphase (adapt answer)
      split at hstep
      · rename_i err hprogress
        rw [hprogress] at hinv
        cases hstep
        exact hinv
      · rename_i addresses hprogress
        rw [hprogress] at hinv
        cases hstep
        exact hinv
    · cases hstep
  | updateReturns update =>
    simp only [step] at hstep
    split at hstep
    · rename_i addresses hphase
      cases hstep
      exact updateReturns_inv h hphase update
    · cases hstep

private theorem inv_of_reach (h : (polling target adapt).Reach r) : Inv target r := by
  have hinductive : Lts.Inductive (polling target adapt) (fun _ _ => True) (Inv target) :=
    ⟨fun r hr => by
      obtain ⟨answer,update,hbuild⟩ := hr
      exact build_inv hbuild,
    fun r e r' hr _ hstep => step_inv hr hstep⟩
  exact hinductive.of_reachUnder h

/-- Between two resolutions the channel has been told how the last one ended: it has the addresses
that were found, or its last call reports the failure.  No update repeats the addresses that the
channel has.  With no request pending, the last resolution began after every call of `ResolveNow`.
Once a call of `Close` has returned, the channel is not called any more. -/
theorem polling_tells (h : (polling target adapt).Reach r) :
    (r.phase = .selecting → ∃ outcome, r.outcome = some outcome ∧ Told target r outcome) ∧
    (current r.calls = if r.hasState then some r.lastAddrs else none) ∧
    NoRepeats r.calls ∧
    (r.resolveNowCh = false → r.served = r.requested) ∧
    ∀ calls, r.closed = some calls → r.calls = calls := by
  have hinv := inv_of_reach h
  exact ⟨fun hp => hinv.settled (Or.inl hp),hinv.taken,hinv.noRepeats,hinv.served,
    fun calls hcalls => (hinv.closed calls hcalls).2⟩

end inv

/-! A concrete run: the instance is gone at two requests that coincide, and the empty list is
rejected. -/

def demoTarget : Target := ⟨"app","service",.numericPort 80⟩

def demoInstance : StatefulInstance := ⟨1,"service-1",["10.0.0.1:80"]⟩

def demoEvents : List (Event (List StatefulInstance)) :=
  [.resolveNow,.resolveNow,.selectResolveNow,.resolved (.ok []),
    .updateReturns (.rejected true (.new "bad resolver state")),.close]

/-- What the channel is told in the demonstration. -/
def demoCalls : List Call :=
  [.updateState [⟨"10.0.0.1:80"⟩] .accepted,
    .updateState [] (.rejected true (.new "bad resolver state"))]

theorem polling_tells_demo : ∃ r, (polling demoTarget (statefulResolverAdapter 1)).Reach r ∧
    r.requested = 2 ∧ r.served = 2 ∧ r.calls = demoCalls ∧ NoRepeats demoCalls := by
  let r₀ : Resolver :=
    { outcome := some (.ok [⟨"10.0.0.1:80"⟩])
      calls := [.updateState [⟨"10.0.0.1:80"⟩] .accepted]
      lastAddrs := [⟨"10.0.0.1:80"⟩]
      hasState := true }
  have hbuild : Resolver.build demoTarget (statefulResolverAdapter 1 (.ok [demoInstance]))
      .accepted = .ok r₀ := rfl
  obtain ⟨r,hr,hp⟩ := Lts.reach_of_run_any
    (M := polling demoTarget (statefulResolverAdapter 1))
    (p := fun r => decide (r.requested = 2) && decide (r.calls = demoCalls) && !r.resolveNowCh)
    demoEvents (.init ⟨_,_,hbuild⟩) (by decide)
  simp only [Bool.and_eq_true,decide_eq_true_eq,Bool.not_eq_true'] at hp
  obtain ⟨-,-,hrepeats,hserved,-⟩ := polling_tells hr
  exact ⟨r,hr,hp.1.1,(hserved hp.2).trans hp.1.1,hp.1.2,hp.1.2 ▸ hrepeats⟩

end Dominion.Grpc.Polling
