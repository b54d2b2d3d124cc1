import Dominion.Grpc.Resolver

/-! # What a resolver publishes

While it is not destroyed, a resolver that has come to rest has called its listener last with the
outcome of the resolution that completed last among those it publishes. -/
namespace Dominion.Grpc

open Dominion.Framework

/-! ## Publishable outcomes -/

/-- A resolution that was started and its outcome. -/
structure Completion where
  id : Nat
  outcome : Outcome
  deriving DecidableEq

namespace Outcome

def isEmpty (o : Outcome) : Bool :=
  decide (o = .addresses [])

/-- A list of addresses that is not empty. -/
def found : Outcome → Bool
  | .addresses [] => false
  | .addresses _ => true
  | .failed _ => false

/-- What the listener is told of an outcome that is published. -/
def status (t : ResolverTarget) : Outcome → StatusOr
  | .addresses [] => .error t.emptyMessage
  | .addresses found => .value (addressesToEndpoints found)
  | .failed message => .error message

end Outcome

/-- The completions whose outcomes are published: an empty list only before the first list that is
not. -/
def publishable (found : Bool) : List Completion → List Completion
  | [] => []
  | c :: cs =>
    if found && c.outcome.isEmpty then publishable found cs
    else c :: publishable (found || c.outcome.found) cs

def anyFound (found : Bool) (cs : List Completion) : Bool :=
  found || cs.any fun c => c.outcome.found

private theorem publishable_append (found : Bool) (cs : List Completion) (c : Completion) :
    publishable found (cs ++ [c]) = publishable found cs ++
      if anyFound found cs && c.outcome.isEmpty then [] else [c] := by
  induction cs generalizing found with
  | nil => simp [publishable,anyFound]
  | cons d cs ih =>
    rw [List.cons_append,publishable,publishable]
    by_cases hd : (found && d.outcome.isEmpty) = true
    · rw [if_pos hd,if_pos hd,ih]
      have hfound : found = true := (Bool.and_eq_true_iff.mp hd).1
      simp [anyFound,hfound]
    · rw [if_neg hd,if_neg hd,ih,List.cons_append]
      simp [anyFound,Bool.or_assoc]

private theorem publishable_sublist (found : Bool) (cs : List Completion) :
    (publishable found cs).Sublist cs := by
  induction cs generalizing found with
  | nil => exact List.Sublist.refl []
  | cons c cs ih =>
    rw [publishable]
    split
    · exact (ih found).cons c
    · exact (ih _).cons_cons c

/-- Among completions in the order in which they were started, the last one was started last. -/
theorem last_started {cs : List Completion} {c : Completion}
    (h : (cs.map Completion.id).Pairwise (· < ·)) (hlast : cs.getLast? = some c) :
    ∀ d ∈ cs, d.id ≤ c.id := by
  obtain ⟨before,rfl⟩ := List.getLast?_eq_some_iff.mp hlast
  intro d hd
  rw [List.map_append,List.pairwise_append] at h
  rcases List.mem_append.mp hd with hd | hd
  · exact (h.2.2 d.id (List.mem_map_of_mem hd) c.id (by simp)).le
  · rw [List.mem_singleton.mp hd]

/-! ## Journal -/

/-- Whether destroy has run, the calls of the listener until then, and the completions. -/
structure Journal where
  destroyed : Bool := false
  callsBefore : List StatusOr := []
  completions : List Completion := []
  deriving DecidableEq

def observe (r : Resolver) (e : Event) (_ : Resolver) (j : Journal) : Journal :=
  match e with
  | .destroy => if j.destroyed then j else { j with destroyed := true,callsBefore := r.calls }
  | .complete id outcome => { j with completions := j.completions ++ [⟨id,outcome⟩] }
  | _ => j

def observed (t : ResolverTarget) : Lts (Resolver × Journal) Event :=
  (resolver t).journaled observe {}

/-- The deferred calls of the listener. -/
def pending (r : Resolver) : List StatusOr :=
  r.immediates.filterMap fun callback =>
    match callback with
    | .doRefresh => none
    | .emit status => some status

/-- No resolution is running and no call of the listener is deferred. -/
def Quiet (r : Resolver) : Prop :=
  r.running = [] ∧ pending r = []

/-- No list of addresses arrives once destroy has run. -/
def NoLateEndpoints (x : Resolver × Journal) (e : Event) : Prop :=
  x.2.destroyed = true → ∀ id outcome, e = .complete id outcome → outcome.found = false

/-! ## A live resolver -/

/-- The calls made and deferred end with the outcome published last. -/
structure Live (t : ResolverTarget) (r : Resolver) (completions : List Completion) : Prop where
  notClosed : r.state ≠ .closed
  ready : (∃ as eps, r.state = .ready as eps) ↔ anyFound false completions = true
  sent : (r.calls ++ pending r).getLast? =
    (publishable false completions).getLast?.map fun c => c.outcome.status t
  fresh : ∀ as eps, r.state = .ready as eps → r.lastRefreshFailed = false →
    (r.calls ++ pending r).getLast? = some (.value eps)

section live

variable {t : ResolverTarget} {r : Resolver} {completions : List Completion}

@[simp] theorem pending_doRefresh (r : Resolver) : pending (r.defer .doRefresh) = pending r := by
  simp [pending,Resolver.defer]

@[simp] theorem pending_emit (r : Resolver) (status : StatusOr) :
    pending (r.defer (.emit status)) = pending r ++ [status] := by
  simp [pending,Resolver.defer]

private theorem Live.open (h : Live t r completions) : r.closed = false :=
  decide_eq_false h.notClosed

/-- Nothing that a live resolver has told or published changes. -/
theorem Live.congr {r' : Resolver} (h : Live t r completions) (hstate : r'.state = r.state)
    (hfailed : r'.lastRefreshFailed = r.lastRefreshFailed)
    (hsent : r'.calls ++ pending r' = r.calls ++ pending r) : Live t r' completions := by
  refine ⟨?_,?_,?_,?_⟩
  · rw [hstate]
    exact h.notClosed
  · rw [hstate]
    exact h.ready
  · rw [hsent]
    exact h.sent
  · rw [hstate,hfailed,hsent]
    exact h.fresh

private theorem Live.doRefresh (h : Live t r completions) : Live t r.doRefresh completions := by
  unfold Resolver.doRefresh
  rw [h.open]
  exact h.congr rfl rfl rfl

private theorem anyFound_append (found : Bool) (cs : List Completion) (c : Completion) :
    anyFound found (cs ++ [c]) = (anyFound found cs || c.outcome.found) := by
  simp [anyFound,Bool.or_assoc]

/-- After a completion whose outcome is published the listener has been told of it, or will be. -/
theorem Live.of_published {c : Completion}
    (hsent : (r.calls ++ pending r).getLast? = some (c.outcome.status t))
    (hpublished : (anyFound false completions && c.outcome.isEmpty) = false)
    (hstate : r.state ≠ .closed)
    (hready : (∃ as eps, r.state = .ready as eps) ↔ anyFound false (completions ++ [c]) = true)
    (hfresh : ∀ as eps, r.state = .ready as eps → r.lastRefreshFailed = false →
      c.outcome.status t = .value eps) : Live t r (completions ++ [c]) where
  notClosed := hstate
  ready := hready
  sent := by
    rw [hsent,publishable_append,hpublished]
    simp
  fresh := by
    intro as eps hs hf
    rw [hsent,hfresh as eps hs hf]

/-- An empty list that comes after one that is not empty is not published. -/
theorem Live.of_retained (h : Live t r completions) (hfound : anyFound false completions = true)
    (id : Nat) : Live t r (completions ++ [⟨id,.addresses []⟩]) where
  notClosed := h.notClosed
  ready := by
    rw [h.ready,anyFound_append,hfound]
    rfl
  sent := by
    rw [h.sent,publishable_append,hfound]
    simp [Outcome.isEmpty]
  fresh := h.fresh

private theorem ready_of_unchanged {endpoints : List Endpoint} (h : r.unchanged endpoints = true) :
    ∃ as eps, r.state = .ready as eps ∧ r.lastRefreshFailed = false ∧ endpoints = eps := by
  unfold Resolver.unchanged at h
  cases hs : r.state with
  | closed =>
    rw [hs] at h
    cases h
  | unresolved =>
    rw [hs] at h
    cases h
  | ready as eps =>
    simp only [hs,Bool.and_eq_true,Bool.not_eq_true',sameEndpoints,decide_eq_true_eq] at h
    exact ⟨as,eps,rfl,h.1,h.2⟩

private theorem Live.settled_found (h : Live t r completions) (id : Nat) (addr : String)
    (rest : List String) : Live t (r.settled t (.addresses (addr :: rest)))
      (completions ++ [⟨id,.addresses (addr :: rest)⟩]) := by
  have hall : anyFound false (completions ++ [⟨id,.addresses (addr :: rest)⟩]) = true := by
    rw [anyFound_append]
    exact Bool.or_true _
  have hpublished : (anyFound false completions &&
      (Outcome.addresses (addr :: rest)).isEmpty) = false := by
    simp [Outcome.isEmpty]
  unfold Resolver.settled
  dsimp only
  split
  · -- The endpoints are those of the state, which the listener was told last.
    rename_i hunchanged
    obtain ⟨as,eps,hs,hfailed,hsame⟩ := ready_of_unchanged hunchanged
    have hsent := h.fresh as eps hs hfailed
    rw [← hsame] at hsent
    refine Live.of_published hsent hpublished h.notClosed ?_ ?_
    · rw [hall,hs]
      simp
    · intro as' eps' hs' _
      rw [hs] at hs'
      cases hs'
      exact congrArg StatusOr.value hsame
  · refine Live.of_published ?_ hpublished ?_ ?_ ?_
    · simp [Resolver.defer,pending,Outcome.status]
    · exact fun he => by cases he
    · rw [hall]
      simp [Resolver.defer]
    · intro as eps hs _
      cases hs
      rfl

private theorem Live.settled (h : Live t r completions) (id : Nat) (outcome : Outcome) :
    Live t (r.settled t outcome) (completions ++ [⟨id,outcome⟩]) := by
  have hready := h.ready
  cases outcome with
  | failed message =>
    refine Live.of_published ?_ ?_ h.notClosed ?_ ?_
    · simp [Resolver.settled,Resolver.defer,pending,Outcome.status]
    · simp [Outcome.isEmpty]
    · rw [anyFound_append]
      simpa [Outcome.found,Resolver.settled,Resolver.defer] using hready
    · intro as eps _ hf
      cases hf
  | addresses found =>
    cases found with
    | cons addr rest => exact h.settled_found id addr rest
    | nil =>
      cases hs : r.state with
      | closed => exact absurd hs h.notClosed
      | ready as eps =>
        have hsettled : r.settled t (.addresses []) = r := by
          simp [Resolver.settled,Resolver.ready,hs]
        rw [hsettled]
        exact h.of_retained (hready.mp ⟨as,eps,hs⟩) id
      | unresolved =>
        have hsettled : r.settled t (.addresses []) =
            { r with lastRefreshFailed := true }.defer (.emit (.error t.emptyMessage)) := by
          simp [Resolver.settled,Resolver.ready,hs]
        have hnone : anyFound false completions = false := by
          rw [hs] at hready
          simpa using hready
        rw [hsettled]
        refine Live.of_published ?_ ?_ h.notClosed ?_ ?_
        · simp [Resolver.defer,pending,Outcome.status]
        · rw [hnone]
          rfl
        · rw [anyFound_append,hnone]
          simp [Resolver.defer,hs,Outcome.found]
        · intro as eps _ hf
          cases hf

/-- A step of a live resolver, other than its destruction. -/
theorem Live.step (h : Live t r completions) {r' : Resolver} {e : Event} (he : e ≠ .destroy)
    (hstep : step t r e = some r') :
    Live t r' (observe r e r' ⟨false,[],completions⟩).completions := by
  cases e with
  | destroy => exact absurd rfl he
  | updateResolution =>
    cases hstep
    unfold Resolver.updateResolution
    rw [h.open]
    refine h.congr rfl rfl ?_
    simp [Resolver.defer,pending]
  | tick =>
    obtain ⟨-,rfl⟩ := of_guard hstep
    exact h.doRefresh
  | complete id outcome =>
    obtain ⟨-,rfl⟩ := of_guard hstep
    have hrunning : Live t { r with running := r.running.erase id } completions :=
      h.congr rfl rfl rfl
    exact hrunning.settled id outcome
  | immediate =>
    cases hcallbacks : r.immediates with
    | nil =>
      simp [Grpc.step,hcallbacks] at hstep
    | cons callback rest =>
      cases callback with
      | doRefresh =>
        simp only [Grpc.step,hcallbacks,Option.some.injEq] at hstep
        subst r'
        refine Live.doRefresh (h.congr rfl rfl ?_)
        simp [pending,hcallbacks]
      | emit status =>
        simp only [Grpc.step,hcallbacks,Option.some.injEq] at hstep
        subst r'
        have hopen : ({ r with immediates := rest } : Resolver).closed = false := h.open
        unfold Resolver.emit
        rw [hopen]
        refine h.congr rfl rfl ?_
        simp [pending,hcallbacks]

end live

/-! ## Runs -/

section runs

variable {t : ResolverTarget} {x : Resolver × Journal}

private theorem live_start (t : ResolverTarget) : Live t {} [] := by
  refine ⟨by simp,?_,rfl,?_⟩
  · simp [anyFound]
  · intro as eps hs
    cases hs

private theorem destroyed_mono {r r' : Resolver} {e : Event} {j : Journal}
    (h : (observe r e r' j).destroyed = false) : j.destroyed = false ∧ e ≠ .destroy := by
  cases e with
  | destroy =>
    simp only [observe] at h
    split at h
    · rename_i hd
      rw [hd] at h
      cases h
    · cases h
  | _ => exact ⟨h,fun he => by cases he⟩

private theorem live_of_reach (h : (observed t).Reach x) (hd : x.2.destroyed = false) :
    Live t x.1 x.2.completions := by
  have hall : (observed t).Inductive (fun _ _ => True) fun x =>
      x.2.destroyed = false → Live t x.1 x.2.completions := by
    constructor
    · rintro ⟨r,j⟩ ⟨hr,hj⟩ _
      cases hr
      cases hj
      exact live_start t
    · intro x e y hx _ hstep hy
      obtain ⟨hs,hj⟩ := Lts.journaled_step.mp hstep
      rw [hj] at hy
      obtain ⟨hlive,hne⟩ := destroyed_mono hy
      have hnext := (hx hlive).step hne hs
      rw [hj]
      cases e with
      | destroy => exact absurd rfl hne
      | _ => exact hnext
  exact hall.of_reachUnder h hd

private theorem doRefresh_closed {r : Resolver} (h : r.closed = true) : r.doRefresh = r := by
  rw [Resolver.doRefresh,if_pos h]

private theorem emit_closed {r : Resolver} (h : r.closed = true) (status : StatusOr) :
    r.emit status = r := by
  rw [Resolver.emit,if_pos h]

/-- A closed resolver stays closed and calls nobody, unless a list of addresses arrives. -/
theorem closed_step {r r' : Resolver} {e : Event} (hr : r.state = .closed)
    (hlate : ∀ id outcome, e = .complete id outcome → outcome.found = false)
    (hstep : step t r e = some r') : r'.state = .closed ∧ r'.calls = r.calls := by
  have hclosed : r.closed = true := decide_eq_true hr
  cases e with
  | updateResolution =>
    cases hstep
    simp [Resolver.updateResolution,hclosed,hr]
  | tick =>
    obtain ⟨-,rfl⟩ := of_guard hstep
    rw [doRefresh_closed hclosed]
    exact ⟨hr,rfl⟩
  | destroy =>
    cases hstep
    simp [Resolver.destroy,hclosed,hr]
  | immediate =>
    cases hcallbacks : r.immediates with
    | nil => simp [step,hcallbacks] at hstep
    | cons callback rest =>
      have hrest : ({ r with immediates := rest } : Resolver).closed = true := hclosed
      cases callback with
      | doRefresh =>
        simp only [step,hcallbacks,Option.some.injEq] at hstep
        subst r'
        rw [doRefresh_closed hrest]
        exact ⟨hr,rfl⟩
      | emit status =>
        simp only [step,hcallbacks,Option.some.injEq] at hstep
        subst r'
        rw [emit_closed hrest]
        exact ⟨hr,rfl⟩
  | complete id outcome =>
    obtain ⟨-,rfl⟩ := of_guard hstep
    have hfound := hlate id outcome rfl
    cases outcome with
    | failed message => simp [Resolver.settled,Resolver.defer,hr]
    | addresses found =>
      cases found with
      | nil => simp [Resolver.settled,Resolver.ready,Resolver.defer,hr]
      | cons addr rest => cases hfound

private theorem closed_of_reach (h : (observed t).ReachUnder NoLateEndpoints x)
    (hd : x.2.destroyed = true) : x.1.state = .closed ∧ x.1.calls = x.2.callsBefore := by
  induction h with
  | init hinit =>
    rw [hinit.2] at hd
    cases hd
  | @step x y e hx hlate hstep ih =>
    obtain ⟨hs,hj⟩ := Lts.journaled_step.mp hstep
    cases hbefore : x.2.destroyed with
    | true =>
      obtain ⟨hclosed,hcalls⟩ := ih hbefore
      obtain ⟨hclosed',hcalls'⟩ := closed_step hclosed (hlate hbefore) hs
      have hkept : y.2.callsBefore = x.2.callsBefore := by
        rw [hj]
        cases e with
        | destroy => simp [observe,hbefore]
        | _ => rfl
      exact ⟨hclosed',by rw [hcalls',hcalls,hkept]⟩
    | false =>
      have hlive := live_of_reach hx.reach hbefore
      have he : e = .destroy := by
        rw [hj] at hd
        cases e with
        | destroy => rfl
        | _ =>
          have hsame : x.2.destroyed = true := hd
          rw [hbefore] at hsame
          cases hsame
      subst e
      have hdestroy : y.1 = x.1.destroy := (Option.some.inj hs).symm
      rw [hj,hdestroy]
      simp [observe,hbefore,Resolver.destroy,hlive.open]

/-- At rest the resolver has called its listener last with the outcome of the resolution that
completed last among the published ones, which is the one that was started last if they completed
in the order of their starts.  Once it is destroyed it is closed and calls its listener no more,
unless a resolution completes with a list of addresses. -/
theorem publishes_last_completed (h : (observed t).Reach x) :
    (x.2.destroyed = false → Quiet x.1 →
      x.1.calls.getLast? =
        (publishable false x.2.completions).getLast?.map (fun c => c.outcome.status t) ∧
      ((x.2.completions.map Completion.id).Pairwise (· < ·) →
        ∀ c, (publishable false x.2.completions).getLast? = some c →
          ∀ d ∈ publishable false x.2.completions, d.id ≤ c.id)) ∧
    ((observed t).ReachUnder NoLateEndpoints x → x.2.destroyed = true →
      x.1.state = .closed ∧ x.1.calls = x.2.callsBefore) := by
  constructor
  · intro hd hquiet
    have hsent := (live_of_reach h hd).sent
    rw [hquiet.2,List.append_nil] at hsent
    refine ⟨hsent,fun hstarts c hc => last_started ?_ hc⟩
    exact hstarts.sublist ((publishable_sublist false _).map Completion.id)
  · exact closed_of_reach

/-! ## Concrete runs -/

def demoTarget : ResolverTarget := .dominion "shop/api:http"

instance (r : Resolver) : Decidable (Quiet r) :=
  inferInstanceAs (Decidable (_ ∧ _))

/-- One list, a failure, the same list again, and the end. -/
def demoRun : List Event :=
  [.immediate,.complete 0 (.addresses ["10.0.0.1:50051"]),.immediate,.tick,
    .complete 1 (.failed "timeout"),.immediate,.updateResolution,.immediate,
    .complete 2 (.addresses ["10.0.0.1:50051"]),.immediate]

/-- The end comes while a resolution runs, and this one fails. -/
def closedRun : List Event :=
  [.immediate,.complete 0 (.addresses ["10.0.0.1:50051"]),.immediate,.tick,.destroy,
    .complete 1 (.failed "canceled"),.immediate]

def lateCheck (x : Resolver × Journal) : Event → Bool
  | .complete _ outcome => !x.2.destroyed || !outcome.found
  | _ => true

private theorem noLateEndpoints_of_check (x : Resolver × Journal) (e : Event)
    (h : lateCheck x e = true) :
    NoLateEndpoints x e := by
  rintro hd id outcome rfl
  simpa [lateCheck,hd] using h

theorem publishes_last_completed_demo :
    (∃ x, (observed demoTarget).Reach x ∧ x.1.calls.length = 3 ∧ x.1.calls.getLast? =
      (publishable false x.2.completions).getLast?.map fun c => c.outcome.status demoTarget) ∧
    ∃ x, (observed demoTarget).Reach x ∧ x.2.destroyed = true ∧ x.2.callsBefore.length = 1 ∧
      x.1.state = .closed ∧ x.1.calls = x.2.callsBefore := by
  constructor
  · have hinit : (observed demoTarget).Reach ({},{}) := .init ⟨rfl,rfl⟩
    have hrun : (((observed demoTarget).run ({},{}) demoRun).any fun x =>
        decide (x.1.calls.length = 3 ∧ x.2.destroyed = false ∧ Quiet x.1)) = true := by
      decide
    obtain ⟨x,hx,hcheck⟩ := Lts.reach_of_run_any demoRun hinit hrun
    obtain ⟨hlength,hd,hquiet⟩ := of_decide_eq_true hcheck
    exact ⟨x,hx,hlength,((publishes_last_completed hx).1 hd hquiet).1⟩
  · have hinit : (observed demoTarget).ReachUnder NoLateEndpoints ({},{}) := .init ⟨rfl,rfl⟩
    have hrun : (((observed demoTarget).runUnder lateCheck ({},{}) closedRun).any fun x =>
        decide (x.2.destroyed = true ∧ x.2.callsBefore.length = 1)) = true := by
      decide
    obtain ⟨x,hx,hcheck⟩ :=
      Lts.reachUnder_of_runUnder_any noLateEndpoints_of_check closedRun hinit hrun
    obtain ⟨hd,hbefore⟩ := of_decide_eq_true hcheck
    exact ⟨x,hx.reach,hd,hbefore,(publishes_last_completed hx.reach).2 hx hd⟩

/-- A list that arrives after the end opens the resolver again and reaches the listener. -/
def lateRun : List Event :=
  [.immediate,.destroy,.complete 0 (.addresses ["10.0.0.1:50051"]),.immediate]

/-- The resolution that was started first completes last. -/
def overtakenRun : List Event :=
  [.immediate,.tick,.complete 1 (.addresses ["10.0.0.2:50051"]),
    .complete 0 (.addresses ["10.0.0.1:50051"]),.immediate,.immediate]

theorem late_list_reopens :
    (∃ x, (observed demoTarget).Reach x ∧ x.2.destroyed = true ∧ x.1.state ≠ .closed ∧
      x.1.calls ≠ x.2.callsBefore) ∧
    ∃ x, (observed demoTarget).Reach x ∧ x.2.destroyed = false ∧ Quiet x.1 ∧
      ∃ c ∈ publishable false x.2.completions,
        (∀ d ∈ publishable false x.2.completions, d.id ≤ c.id) ∧
        x.1.calls.getLast? ≠ some (c.outcome.status demoTarget) := by
  have hinit : (observed demoTarget).Reach ({},{}) := .init ⟨rfl,rfl⟩
  constructor
  · have hrun : (((observed demoTarget).run ({},{}) lateRun).any fun x =>
        decide (x.2.destroyed = true ∧ x.1.state ≠ .closed ∧ x.1.calls ≠ x.2.callsBefore)) =
          true := by
      decide
    obtain ⟨x,hx,hcheck⟩ := Lts.reach_of_run_any lateRun hinit hrun
    exact ⟨x,hx,of_decide_eq_true hcheck⟩
  · have hrun : (((observed demoTarget).run ({},{}) overtakenRun).any fun x =>
        decide (x.2.destroyed = false) && decide (Quiet x.1) &&
          (publishable false x.2.completions).any fun c =>
            (publishable false x.2.completions).all (fun d => decide (d.id ≤ c.id)) &&
              decide (x.1.calls.getLast? ≠ some (c.outcome.status demoTarget))) = true := by
      decide
    obtain ⟨x,hx,hcheck⟩ := Lts.reach_of_run_any overtakenRun hinit hrun
    simp only [Bool.and_eq_true,decide_eq_true_eq,List.any_eq_true,List.all_eq_true] at hcheck
    obtain ⟨⟨hd,hquiet⟩,c,hc,hall,hlast⟩ := hcheck
    exact ⟨x,hx,hd,hquiet,c,hc,hall,hlast⟩

end runs

end Dominion.Grpc
