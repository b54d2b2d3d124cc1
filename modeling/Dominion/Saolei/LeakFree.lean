import Dominion.Framework.Ownership
import Dominion.Saolei.Materialize
import Mathlib.Data.List.Basic
import Mathlib.Data.List.Perm.Basic

/-! # Who owns a handle

Every live handle has one owner: the installed team, a call that is still running, or the disposal.
A disturbed step leaves a handle without an owner, or a registration that the orchestrator has
forgotten, and nothing will ever release it. -/
namespace Dominion.Saolei.Materialize

open Dominion.Framework

inductive Owner
  | team
  | call (i : Nat)
  | disposal
  deriving DecidableEq, Repr

/-- What an owner holds; the team of a disposed orchestrator belongs to the disposal. -/
def World.holds (s : World) : Owner → List Nat
  | .team => if s.orchestrator.disposed then [] else s.orchestrator.agents
  | .call i => (s.calls i).created
  | .disposal => s.disposal.bindings

/-- A call that has not failed yet. -/
def Phase.building : Phase → Bool
  | .composing _ => true
  | .creating _ _ => true
  | .assembling _ _ => true
  | _ => false

/-- What every run keeps. -/
structure Base (s : World) : Prop where
  nodup : s.handles.Nodup
  fresh : ∀ h ∈ s.handles, h < s.next
  registered : ∀ r ∈ s.registrations, r.id < s.next
  disposal : s.disposal = .idle ↔ s.orchestrator.disposed = false
  flow : s.orchestrator.flow.isSome = s.orchestrator.members.isSome
  roster : s.orchestrator.teamRegistration.map (fun r => (r.player,r.planner)) =
    s.orchestrator.members

/-- A live registration that the orchestrator does not remember. -/
def Stray (s : World) : Prop :=
  ∃ r ∈ s.registrations, s.orchestrator.teamRegistration ≠ some r

/-- Something lives that nobody will release. -/
def Leaked (s : World) : Prop :=
  Orphaned s.handles s.holds ∨ Stray s

/-- What the undisturbed runs keep. -/
structure Owned (s : World) : Prop where
  ownership : Ownership s.handles s.holds
  captured : s.orchestrator.disposed = true → s.orchestrator.members = none ∨
    ∃ bindings, s.disposal = .quiescing bindings
  registrations : s.registrations = s.orchestrator.teamRegistration.toList
  distinct : ∀ i player planner, s.calls i = .assembling player planner → player ≠ planner
  pair : ∀ player planner, s.orchestrator.members = some (player,planner) → player ≠ planner
  game : s.orchestrator.game.isSome = true → s.orchestrator.members ≠ none ∨
    ∃ i, (s.calls i).building = true

section worlds

variable {s : World} {i player planner : Nat} {phase : Phase} {created ended left : List Nat}

@[simp] theorem setCall_orchestrator : (s.setCall i phase).orchestrator = s.orchestrator := rfl
@[simp] theorem setCall_handles : (s.setCall i phase).handles = s.handles := rfl
@[simp] theorem setCall_registrations : (s.setCall i phase).registrations = s.registrations := rfl
@[simp] theorem setCall_next : (s.setCall i phase).next = s.next := rfl
@[simp] theorem setCall_disposal : (s.setCall i phase).disposal = s.disposal := rfl
@[simp] theorem setCall_self : (s.setCall i phase).calls i = phase := Function.update_self ..

private theorem setCall_other {j : Nat} (h : j ≠ i) : (s.setCall i phase).calls j = s.calls j :=
  Function.update_of_ne h ..

@[simp] theorem fail_handles : (s.fail i created).handles = s.handles := rfl
@[simp] theorem fail_next : (s.fail i created).next = s.next := rfl
@[simp] theorem fail_disposal : (s.fail i created).disposal = s.disposal := rfl
@[simp] theorem fail_disposed :
    (s.fail i created).orchestrator.disposed = s.orchestrator.disposed := rfl
@[simp] theorem fail_members : (s.fail i created).orchestrator.members = none := rfl
@[simp] theorem fail_flow : (s.fail i created).orchestrator.flow = none := rfl
@[simp] theorem fail_game : (s.fail i created).orchestrator.game = none := rfl
@[simp] theorem fail_teamRegistration :
    (s.fail i created).orchestrator.teamRegistration = none := rfl
@[simp] theorem fail_self : (s.fail i created).calls i = .rollingBack created :=
  Function.update_self ..

private theorem fail_other {j : Nat} (h : j ≠ i) : (s.fail i created).calls j = s.calls j :=
  Function.update_of_ne h ..

private theorem agents_eq_nil (h : s.orchestrator.members = none) : s.orchestrator.agents = [] := by
  simp [Orchestrator.agents,h]

private theorem agents_eq_pair (h : s.orchestrator.members = some (player,planner)) :
    s.orchestrator.agents = [player,planner] := by
  simp [Orchestrator.agents,h]

@[simp] theorem createAgent_handles : s.createAgent.handles = s.handles ++ [s.next] := rfl
@[simp] theorem createAgent_next : s.createAgent.next = s.next + 1 := rfl
@[simp] theorem endHandles_next : (s.endHandles ended left).next = s.next := rfl

private theorem mem_endHandles {x : Nat} :
    x ∈ (s.endHandles ended left).handles ↔ x ∈ s.handles ∧ (x ∉ ended ∨ x ∈ left) := by
  simp [World.endHandles]

/-- With no handle left, all that are ended are gone. -/
theorem endHandles_all (h : ∀ x ∈ ended, x ∉ left) :
    (s.endHandles ended left).handles = s.handles.filter fun x => decide (x ∉ ended) := by
  apply List.filter_congr
  intro x _
  have hiff : (x ∉ ended ∨ x ∈ left) ↔ x ∉ ended := by
    refine ⟨fun hx hended => ?_,Or.inl⟩
    rcases hx with hnot | hleft
    · exact hnot hended
    · exact h x hended hleft
  simp only [hiff]

/-- A registration that is taken back leaves what was there, and nothing is remembered. -/
theorem mem_register_fail {r : Registration} :
    r ∈ ((s.register player planner).fail i created).registrations ↔
      r ∈ s.registrations ∧ r ≠ ⟨s.next,player,planner⟩ := by
  show r ∈ (s.registrations ++ [_]).filter (fun r => decide (some _ ≠ some r)) ↔ _
  rw [List.mem_filter,List.mem_append,List.mem_singleton]
  constructor
  · rintro ⟨hmem,hne⟩
    have hne : r ≠ ⟨s.next,player,planner⟩ := fun he => of_decide_eq_true hne (by rw [he])
    exact ⟨hmem.resolve_right hne,hne⟩
  · rintro ⟨hmem,hne⟩
    exact ⟨Or.inl hmem,decide_eq_true fun he => hne (Option.some.inj he).symm⟩

end worlds

/-! ## The steps -/

/-- What a step can do. -/
inductive Step (s : World) : Label → World → Prop
  | refused (i : Nat) (mount : HooksMount) :
    s.calls i = .idle → Step s (.materialize i mount) (s.setCall i .thrown)
  | unmounted (i : Nat) :
    s.calls i = .idle → s.orchestrator.members = none →
    Step s (.materialize i .fails) (s.fail i [])
  | started (i : Nat) (mount : HooksMount) (hooks : Option Nat) (next : Nat) :
    s.calls i = .idle → s.next ≤ next →
    Step s (.materialize i mount) ({ s with
      orchestrator := { s.orchestrator with hooks := hooks }
      next := next }.setCall i (.composing none))
  | composed (i : Nat) (player : Option Nat) :
    s.calls i = .composing player → Step s (.composed i true) (s.setCall i (.creating player false))
  | setup (i : Nat) :
    s.calls i = .creating none false →
    Step s (.setup i) ({ s with
      orchestrator := { s.orchestrator with game := some s.next }
      next := s.next + 1 }.setCall i (.creating none true))
  | created (i : Nat) (phase : Phase) :
    phase.created = (s.calls i).created ++ [s.next] →
    (∀ player planner, phase = .assembling player planner →
      (s.calls i).created = [player] ∧ planner = s.next) →
    phase.building = true →
    Step s (.created i .creates) (s.createAgent.setCall i phase)
  | unconstructed (i : Nat) :
    Step s (.created i .constructionFails) (s.createAgent.fail i (s.calls i).created)
  | assembled (i player planner : Nat) :
    s.calls i = .assembling player planner →
    Step s (.assemble i .installs) ((s.register player planner).installFlow.setCall i .returned)
  | flowless (i player planner : Nat) :
    s.calls i = .assembling player planner →
    Step s (.assemble i .flowFails)
      ((s.register player planner).fail i (s.calls i).created)
  | failed (i : Nat) (l : Label) :
    l = .composed i false ∨ l = .created i .fails ∨ l = .assemble i .fails →
    Step s l (s.fail i (s.calls i).created)
  | rolledBack (i : Nat) (created left : List Nat) :
    s.calls i = .rollingBack created →
    Step s (.rolledBack i left) ((s.endHandles created left).setCall i .thrown)
  | ignored : s.orchestrator.disposed = true → Step s .dispose s
  | disposed :
    s.orchestrator.disposed = false →
    Step s .dispose { s with
      orchestrator := { s.orchestrator with disposed := true }
      disposal := .quiescing s.orchestrator.agents }
  | quiescent (bindings : List Nat) :
    s.disposal = .quiescing bindings →
    Step s .quiescent { s.unregister with
      orchestrator := { s.unregister.orchestrator with
        members := none
        game := none
        hooks := none
        announcerMember := none
        flow := none }
      disposal := .releasing bindings }
  | released (bindings left : List Nat) :
    s.disposal = .releasing bindings →
    Step s (.released left) { s.endHandles bindings left with disposal := .settled }

section steps

variable {s s' : World} {l : Label} {i : Nat}

private theorem materialize_step {mount : HooksMount} (h : s.materialize i mount = some s') :
    Step s (.materialize i mount) s' := by
  unfold World.materialize at h
  split at h
  · cases h
  · rename_i hidle
    have hidle : s.calls i = .idle := not_not.mp hidle
    split at h
    · cases h
      exact .refused i mount hidle
    · rename_i hopen
      have hfree : s.orchestrator.members = none := not_not.mp fun hne => hopen (Or.inr hne)
      cases mount with
      | absent =>
        cases h
        exact .started i _ none s.next hidle (Nat.le_refl _)
      | builds =>
        cases h
        exact .started i _ (some s.next) (s.next + 1) hidle (Nat.le_succ _)
      | fails =>
        cases h
        exact .unmounted i hidle hfree

private theorem composed_step {ok : Bool} (h : s.composed i ok = some s') :
    Step s (.composed i ok) s' := by
  rw [World.composed] at h
  split at h
  · rename_i player hphase
    cases ok with
    | true =>
      cases h
      exact .composed i player hphase
    | false =>
      cases h
      have hcreated : (s.calls i).created = player.toList := by rw [hphase]; rfl
      rw [← hcreated]
      exact .failed i _ (Or.inl rfl)
  · cases h

private theorem setup_step (h : s.setup i = some s') : Step s (.setup i) s' := by
  rw [World.setup] at h
  split at h
  · rename_i hphase
    cases h
    exact .setup i hphase
  · cases h

private theorem created_step {answer : Creation} (h : s.created i answer = some s') :
    Step s (.created i answer) s' := by
  rw [World.created] at h
  split at h
  · rename_i player setUp hphase
    have hcreated : (s.calls i).created = player.toList := by rw [hphase]; rfl
    cases answer with
    | fails =>
      cases h
      rw [← hcreated]
      exact .failed i _ (Or.inr (Or.inl rfl))
    | creates =>
      dsimp only at h
      split at h
      · cases h
      · cases h
        cases player with
        | none =>
          refine .created i _ ?_ ?_ rfl
          · rw [hcreated]
            rfl
          · intro player planner he
            cases he
        | some player =>
          refine .created i _ ?_ ?_ rfl
          · rw [hcreated]
            rfl
          · intro player' planner he
            cases he
            exact ⟨hcreated,rfl⟩
    | constructionFails =>
      dsimp only at h
      split at h
      · cases h
      · cases h
        rw [← hcreated]
        exact .unconstructed i
  · cases h

private theorem assemble_step {answer : Assembly} (h : s.assemble i answer = some s') :
    Step s (.assemble i answer) s' := by
  rw [World.assemble] at h
  split at h
  · rename_i player planner hphase
    have hcreated : (s.calls i).created = [player,planner] := by rw [hphase]; rfl
    cases answer with
    | fails =>
      cases h
      rw [← hcreated]
      exact .failed i _ (Or.inr (Or.inr rfl))
    | installs =>
      cases h
      exact .assembled i player planner hphase
    | flowFails =>
      cases h
      rw [← hcreated]
      exact .flowless i player planner hphase
  · cases h

private theorem step_cases (h : system.step s l = some s') : Step s l s' := by
  cases l with
  | materialize i mount => exact materialize_step h
  | composed i ok => exact composed_step h
  | setup i => exact setup_step h
  | created i answer => exact created_step h
  | assemble i answer => exact assemble_step h
  | rolledBack i left =>
    simp only [system,World.rolledBack] at h
    split at h
    · rename_i created hphase
      cases h
      exact .rolledBack i created left hphase
    · cases h
  | dispose =>
    simp only [system,World.dispose] at h
    split at h
    · rename_i hdisposed
      cases h
      exact .ignored hdisposed
    · rename_i hdisposed
      cases h
      exact .disposed (Bool.eq_false_iff.mpr hdisposed)
  | quiescent =>
    simp only [system,World.quiescent] at h
    split at h
    · rename_i bindings hbindings
      cases h
      exact .quiescent bindings hbindings
    · cases h
  | released left =>
    simp only [system,World.released] at h
    split at h
    · rename_i bindings hbindings
      cases h
      exact .released bindings left hbindings
    · cases h

/-! ## What every run keeps -/

private theorem Base.unregistered (h : Base s) (hfree : s.orchestrator.members = none) :
    s.orchestrator.teamRegistration = none := by
  have hroster := h.roster
  rw [hfree] at hroster
  exact Option.map_eq_none_iff.mp hroster

/-- A created agent is new. -/
theorem Base.create (h : Base s) :
    s.createAgent.handles.Nodup ∧ ∀ x ∈ s.createAgent.handles, x < s.createAgent.next := by
  have hnew : s.next ∉ s.handles := fun hmem => Nat.lt_irrefl _ (h.fresh _ hmem)
  constructor
  · rw [createAgent_handles,List.nodup_append]
    refine ⟨h.nodup,by simp,fun x hx y hy he => hnew ?_⟩
    rw [List.mem_singleton.mp hy] at he
    exact he ▸ hx
  · intro x hx
    rcases List.mem_append.mp hx with hold | hlast
    · exact Nat.lt_succ_of_lt (h.fresh x hold)
    · rw [List.mem_singleton.mp hlast]
      exact Nat.lt_succ_self _

private theorem Base.disposed_of_running (h : Base s) (hrunning : s.disposal ≠ .idle) :
    s.orchestrator.disposed = true := by
  cases hd : s.orchestrator.disposed with
  | true => rfl
  | false => exact absurd (h.disposal.mpr hd) hrunning

private theorem Base.step (h : Base s) (hstep : Step s l s') : Base s' := by
  cases hstep with
  | refused i mount hidle =>
    exact ⟨h.nodup,h.fresh,h.registered,h.disposal,h.flow,h.roster⟩
  | unmounted i hidle hfree =>
    exact ⟨h.nodup,h.fresh,fun r hr => h.registered r (List.mem_of_mem_filter hr),h.disposal,rfl,
      rfl⟩
  | started i mount hooks next hidle hnext =>
    exact ⟨h.nodup,fun x hx => Nat.lt_of_lt_of_le (h.fresh x hx) hnext,
      fun r hr => Nat.lt_of_lt_of_le (h.registered r hr) hnext,h.disposal,h.flow,h.roster⟩
  | composed i player hphase =>
    exact ⟨h.nodup,h.fresh,h.registered,h.disposal,h.flow,h.roster⟩
  | setup i hphase =>
    exact ⟨h.nodup,fun x hx => Nat.lt_succ_of_lt (h.fresh x hx),
      fun r hr => Nat.lt_succ_of_lt (h.registered r hr),h.disposal,h.flow,h.roster⟩
  | created i phase hcreated hpair hbuilding =>
    exact ⟨h.create.1,h.create.2,fun r hr => Nat.lt_succ_of_lt (h.registered r hr),h.disposal,
      h.flow,h.roster⟩
  | unconstructed i =>
    exact ⟨h.create.1,h.create.2,
      fun r hr => Nat.lt_succ_of_lt (h.registered r (List.mem_of_mem_filter hr)),h.disposal,rfl,
      rfl⟩
  | assembled i player planner hphase =>
    refine ⟨h.nodup,fun x hx => Nat.lt_add_right 3 (h.fresh x hx),fun r hr => ?_,h.disposal,rfl,
      rfl⟩
    rcases List.mem_append.mp hr with hold | hlast
    · exact Nat.lt_add_right 3 (h.registered r hold)
    · rw [List.mem_singleton.mp hlast]
      exact Nat.lt_add_of_pos_right (n := s.next) (k := 3) (by decide)
  | flowless i player planner hphase =>
    refine ⟨h.nodup,fun x hx => Nat.lt_add_right 2 (h.fresh x hx),fun r hr => ?_,h.disposal,rfl,
      rfl⟩
    exact Nat.lt_add_right 2 (h.registered r (mem_register_fail.mp hr).1)
  | failed i l hl =>
    exact ⟨h.nodup,h.fresh,fun r hr => h.registered r (List.mem_of_mem_filter hr),h.disposal,rfl,
      rfl⟩
  | rolledBack i created left hphase =>
    exact ⟨h.nodup.filter _,fun x hx => h.fresh x (mem_endHandles.mp hx).1,h.registered,h.disposal,
      h.flow,h.roster⟩
  | ignored hdisposed => exact h
  | disposed hdisposed => exact ⟨h.nodup,h.fresh,h.registered,by simp,h.flow,h.roster⟩
  | quiescent bindings hbindings =>
    have hdisposed := h.disposed_of_running (by simp [hbindings])
    exact ⟨h.nodup,h.fresh,fun r hr => h.registered r (List.mem_of_mem_filter hr),
      by simp [World.unregister,hdisposed],rfl,rfl⟩
  | released bindings left hbindings =>
    have hdisposed := h.disposed_of_running (by simp [hbindings])
    exact ⟨h.nodup.filter _,fun x hx => h.fresh x (mem_endHandles.mp hx).1,h.registered,
      by simp [World.endHandles,hdisposed],h.flow,h.roster⟩

/-! ## Keeping a leak -/

/-- An orphan stays one if handles are only released by who holds them, and only handed on by calls
that hold them and by the team to its disposal. -/
theorem orphaned_of (h : Orphaned s.handles s.holds) (hb : Base s)
    (hkeep : ∀ x ∈ s.handles, (∀ o, x ∉ s.holds o) → x ∈ s'.handles)
    (hcalls : ∀ i, ∀ x ∈ (s'.calls i).created, (∃ j, x ∈ (s.calls j).created) ∨ s.next ≤ x)
    (hdisposal : ∀ x ∈ s'.disposal.bindings, x ∈ s.disposal.bindings ∨
      (x ∈ s.orchestrator.agents ∧ s.orchestrator.disposed = false))
    (hteam : ∀ x ∈ s'.orchestrator.agents, (∃ j, x ∈ (s.calls j).created) ∨
      (x ∈ s.orchestrator.agents ∧
        (s.orchestrator.disposed = true → s'.orchestrator.disposed = true))) :
    Orphaned s'.handles s'.holds := by
  have hinstalled : ∀ x ∈ s.orchestrator.agents, s.orchestrator.disposed = false →
      x ∈ s.holds .team := by
    intro x hx hopen
    rw [World.holds,hopen]
    exact hx
  apply Orphaned.step h hkeep
  intro o x hx
  cases o with
  | team =>
    cases hopen : s'.orchestrator.disposed with
    | true => simp [World.holds,hopen] at hx
    | false =>
      rw [World.holds,hopen] at hx
      rcases hteam x hx with ⟨j,hj⟩ | ⟨hagent,hmono⟩
      · exact Or.inl ⟨.call j,hj⟩
      · refine Or.inl ⟨.team,hinstalled x hagent ?_⟩
        cases hd : s.orchestrator.disposed with
        | false => rfl
        | true =>
          rw [hmono hd] at hopen
          cases hopen
  | call i =>
    rcases hcalls i x hx with ⟨j,hj⟩ | hnew
    · exact Or.inl ⟨.call j,hj⟩
    · exact Or.inr fun hlive => Nat.lt_irrefl _ (Nat.lt_of_lt_of_le (hb.fresh x hlive) hnew)
  | disposal =>
    rcases hdisposal x hx with hold | ⟨hagent,hopen⟩
    · exact Or.inl ⟨.disposal,hold⟩
    · exact Or.inl ⟨.team,hinstalled x hagent hopen⟩

/-- A call's new phase holds what its old one held, or what was just created. -/
theorem created_setCall {t : World} {phase : Phase} (ht : t.calls = s.calls)
    (hphase : ∀ x ∈ phase.created, x ∈ (s.calls i).created ∨ s.next ≤ x) :
    ∀ j, ∀ x ∈ ((t.setCall i phase).calls j).created,
      (∃ k, x ∈ (s.calls k).created) ∨ s.next ≤ x := by
  intro j x hx
  by_cases hj : j = i
  · subst hj
    rw [setCall_self] at hx
    exact (hphase x hx).imp_left fun hold => ⟨j,hold⟩
  · rw [setCall_other hj,ht] at hx
    exact Or.inl ⟨j,hx⟩

private theorem orphaned_fail {t : World} {created : List Nat} (h : Orphaned s.handles s.holds)
    (hb : Base s) (hhandles : ∀ x ∈ s.handles, x ∈ t.handles) (hcalls : t.calls = s.calls)
    (hdisposal : t.disposal = s.disposal) (hcreated : ∀ x ∈ created, x ∈ (s.calls i).created) :
    Orphaned (t.fail i created).handles (t.fail i created).holds := by
  apply orphaned_of h hb
  · exact fun x hx _ => hhandles x hx
  · exact created_setCall (t := t) hcalls fun x hx => Or.inl (hcreated x hx)
  · intro x hx
    rw [fail_disposal,hdisposal] at hx
    exact Or.inl hx
  · intro x hx
    rw [agents_eq_nil fail_members] at hx
    cases hx

private theorem orphaned_step (h : Orphaned s.handles s.holds) (hb : Base s) (hstep : Step s l s') :
    Orphaned s'.handles s'.holds := by
  cases hstep with
  | refused i mount hidle =>
    refine orphaned_of h hb (fun x hx _ => hx) ?_ (fun x hx => Or.inl hx)
      (fun x hx => Or.inr ⟨hx,id⟩)
    exact created_setCall rfl (by simp [Phase.created])
  | unmounted i hidle hfree =>
    exact orphaned_fail h hb (fun x hx => hx) rfl rfl (by simp)
  | started i mount hooks next hidle hnext =>
    refine orphaned_of h hb (fun x hx _ => hx) ?_ (fun x hx => Or.inl hx)
      (fun x hx => Or.inr ⟨hx,id⟩)
    exact created_setCall rfl (by simp [Phase.created])
  | composed i player hphase =>
    refine orphaned_of h hb (fun x hx _ => hx) ?_ (fun x hx => Or.inl hx)
      (fun x hx => Or.inr ⟨hx,id⟩)
    exact created_setCall rfl fun x hx => Or.inl (by rw [hphase]; exact hx)
  | setup i hphase =>
    refine orphaned_of h hb (fun x hx _ => hx) ?_ (fun x hx => Or.inl hx)
      (fun x hx => Or.inr ⟨hx,id⟩)
    exact created_setCall rfl (by simp [Phase.created])
  | created i phase hcreated hpair hbuilding =>
    refine orphaned_of h hb (fun x hx _ => List.mem_append_left _ hx) ?_ (fun x hx => Or.inl hx)
      (fun x hx => Or.inr ⟨hx,id⟩)
    refine created_setCall rfl fun x hx => ?_
    rw [hcreated] at hx
    rcases List.mem_append.mp hx with hold | hnew
    · exact Or.inl hold
    · exact Or.inr (Nat.le_of_eq (List.mem_singleton.mp hnew).symm)
  | unconstructed i =>
    exact orphaned_fail h hb (fun x hx => List.mem_append_left _ hx) rfl rfl fun x hx => hx
  | assembled i player planner hphase =>
    refine orphaned_of h hb (fun x hx _ => hx) ?_ (fun x hx => Or.inl hx) (fun x hx => ?_)
    · exact created_setCall rfl (by simp [Phase.created])
    · exact Or.inl ⟨i,by rw [hphase]; exact hx⟩
  | flowless i player planner hphase =>
    exact orphaned_fail h hb (fun x hx => hx) rfl rfl fun x hx => hx
  | failed i l hl => exact orphaned_fail h hb (fun x hx => hx) rfl rfl fun x hx => hx
  | rolledBack i created left hphase =>
    refine orphaned_of h hb (fun x hx hfree => ?_) ?_ (fun x hx => Or.inl hx)
      (fun x hx => Or.inr ⟨hx,id⟩)
    · have hnot : x ∉ (s.calls i).created := hfree (.call i)
      rw [hphase] at hnot
      exact mem_endHandles.mpr ⟨hx,Or.inl hnot⟩
    · exact created_setCall rfl (by simp [Phase.created])
  | ignored hdisposed => exact h
  | disposed hdisposed =>
    exact orphaned_of h hb (fun x hx _ => hx) (fun j x hx => Or.inl ⟨j,hx⟩)
      (fun x hx => Or.inr ⟨hx,hdisposed⟩) (fun x hx => Or.inr ⟨hx,fun _ => rfl⟩)
  | quiescent bindings hbindings =>
    refine orphaned_of h hb (fun x hx _ => hx) (fun j x hx => Or.inl ⟨j,hx⟩) (fun x hx => Or.inl ?_)
      (fun x hx => ?_)
    · rw [hbindings]
      exact hx
    · rw [agents_eq_nil rfl] at hx
      cases hx
  | released bindings left hbindings =>
    refine orphaned_of h hb (fun x hx hfree => ?_) (fun j x hx => Or.inl ⟨j,hx⟩) (fun x hx => ?_)
      (fun x hx => Or.inr ⟨hx,id⟩)
    · have hnot : x ∉ s.disposal.bindings := hfree .disposal
      rw [hbindings] at hnot
      exact mem_endHandles.mpr ⟨hx,Or.inl hnot⟩
    · cases hx

/-- A registration that was forgotten is only ended by whoever remembers it. -/
theorem stray_unregistered {t : World} (h : Stray s) (ht : t.registrations = s.unregister.registrations)
    (hnone : t.orchestrator.teamRegistration = none) : Stray t := by
  obtain ⟨r,hr,hne⟩ := h
  refine ⟨r,?_,by rw [hnone]; simp⟩
  rw [ht]
  exact List.mem_filter.mpr ⟨hr,decide_eq_true hne⟩

private theorem stray_step (h : Stray s) (hb : Base s) (hstep : Step s l s') : Stray s' := by
  cases hstep with
  | unmounted i hidle hfree => exact stray_unregistered h rfl rfl
  | unconstructed i => exact stray_unregistered h rfl rfl
  | failed i l hl => exact stray_unregistered h rfl rfl
  | quiescent bindings hbindings => exact stray_unregistered h rfl rfl
  | assembled i player planner hphase =>
    obtain ⟨r,hr,_⟩ := h
    refine ⟨r,List.mem_append_left _ hr,fun he => ?_⟩
    have hid : s.next = r.id := congrArg Registration.id (Option.some.inj he)
    exact Nat.ne_of_lt (hb.registered r hr) hid.symm
  | flowless i player planner hphase =>
    obtain ⟨r,hr,_⟩ := h
    refine ⟨r,mem_register_fail.mpr ⟨hr,fun he => ?_⟩,by rw [fail_teamRegistration]; simp⟩
    exact Nat.ne_of_lt (hb.registered r hr) (congrArg Registration.id he)
  | refused => exact h
  | started => exact h
  | composed => exact h
  | setup => exact h
  | created => exact h
  | rolledBack => exact h
  | ignored => exact h
  | disposed => exact h
  | released => exact h

private theorem Leaked.step (h : Leaked s) (hb : Base s) (hstep : Step s l s') : Leaked s' :=
  h.imp (fun horphan => orphaned_step horphan hb hstep) fun hstray => stray_step hstray hb hstep

/-! ## Keeping the ownership -/

private theorem holds_team (hdisposed : s.orchestrator.disposed = false) :
    s.holds .team = s.orchestrator.agents := by
  simp [World.holds,hdisposed]

private theorem holds_team_eq_nil
    (h : s.orchestrator.members = none ∨ s.orchestrator.disposed = true) :
    s.holds .team = [] := by
  rcases h with hfree | hdisposed
  · simp [World.holds,agents_eq_nil hfree]
  · simp [World.holds,hdisposed]

private theorem holds_setCall_other {phase : Phase} {o : Owner} (h : o ≠ .call i) :
    (s.setCall i phase).holds o = s.holds o := by
  cases o with
  | team => rfl
  | call j =>
    have hj : j ≠ i := fun he => h (he ▸ rfl)
    simp [World.holds,setCall_other hj]
  | disposal => rfl

private theorem holds_setCall {phase : Phase} (h : phase.created = (s.calls i).created)
    (o : Owner) :
    (s.setCall i phase).holds o = s.holds o := by
  by_cases ho : o = .call i
  · subst ho
    simp [World.holds,h]
  · exact holds_setCall_other ho

/-- What a failed call has collected, it still holds; the team holds nothing. -/
theorem mem_holds_fail {t : World} {created : List Nat} {o : Owner} {x : Nat}
    (hcalls : t.calls = s.calls) (hdisposal : t.disposal = s.disposal)
    (hcreated : created = (s.calls i).created) (hx : x ∈ (t.fail i created).holds o) :
    o ≠ .team ∧ x ∈ s.holds o := by
  cases o with
  | team =>
    rw [holds_team_eq_nil (Or.inl fail_members)] at hx
    cases hx
  | call j =>
    refine ⟨nofun,?_⟩
    by_cases hj : j = i
    · subst hj
      rw [World.holds,fail_self,hcreated] at hx
      exact hx
    · rw [World.holds,fail_other hj,hcalls] at hx
      exact hx
  | disposal =>
    rw [World.holds,fail_disposal,hdisposal] at hx
    exact ⟨nofun,hx⟩

private theorem holds_fail {t : World} {created : List Nat} (hcalls : t.calls = s.calls)
    (hdisposal : t.disposal = s.disposal) (hcreated : created = (s.calls i).created)
    (hfree : s.orchestrator.members = none ∨ s.orchestrator.disposed = true) (o : Owner) :
    (t.fail i created).holds o = s.holds o := by
  cases o with
  | team => rw [holds_team_eq_nil hfree,holds_team_eq_nil (Or.inl fail_members)]
  | call j =>
    by_cases hj : j = i
    · subst hj
      simp [World.holds,Phase.created,hcreated]
    · simp [World.holds,fail_other hj,hcalls]
  | disposal => simp [World.holds,hdisposal]

/-- A call goes on with what it holds. -/
theorem Owned.setCall {phase : Phase} (h : Owned s) (hcreated : phase.created = (s.calls i).created)
    (hpair : ∀ player planner, phase ≠ .assembling player planner)
    (hbuilding : (s.calls i).building = true → phase.building = true) :
    Owned (s.setCall i phase) where
  ownership := h.ownership.congr (holds_setCall hcreated)
  captured := h.captured
  registrations := h.registrations
  distinct j player planner hj := by
    by_cases he : j = i
    · subst he
      rw [setCall_self] at hj
      exact absurd hj (hpair player planner)
    · rw [setCall_other he] at hj
      exact h.distinct j player planner hj
  pair := h.pair
  game hgame := by
    refine (h.game hgame).imp_right fun ⟨j,hj⟩ => ⟨j,?_⟩
    by_cases he : j = i
    · subst he
      rw [setCall_self]
      exact hbuilding hj
    · rwa [setCall_other he]

/-- The failure of a call, which may have registered a team before, under no installed team. -/
theorem Owned.fail {t : World} {created : List Nat} (h : Owned s)
    (hhandles : t.handles = s.handles) (hcalls : t.calls = s.calls)
    (hdisposal : t.disposal = s.disposal) (hregistrations : t.unregister.registrations = [])
    (hcreated : created = (s.calls i).created)
    (hfree : s.orchestrator.members = none ∨ s.orchestrator.disposed = true) :
    Owned (t.fail i created) where
  ownership := by
    rw [fail_handles,hhandles]
    exact h.ownership.congr (holds_fail hcalls hdisposal hcreated hfree)
  captured _ := Or.inl fail_members
  registrations := hregistrations
  distinct j player planner hj := by
    by_cases he : j = i
    · subst he
      rw [fail_self] at hj
      cases hj
    · rw [fail_other he,hcalls] at hj
      exact h.distinct j player planner hj
  pair player planner hmembers := by
    rw [fail_members] at hmembers
    cases hmembers
  game hgame := by
    rw [fail_game] at hgame
    cases hgame

/-- What the orchestrator remembers is all that is registered. -/
theorem Owned.unregister (h : Owned s) : s.unregister.registrations = [] := by
  show (s.registrations.filter _) = []
  rw [h.registrations]
  cases s.orchestrator.teamRegistration <;> simp

private theorem Owned.setup (h : Owned s) (hphase : s.calls i = .creating none false) :
    Owned ({ s with
      orchestrator := { s.orchestrator with game := some s.next }
      next := s.next + 1 }.setCall i (.creating none true)) := by
  have hnext : Owned (s.setCall i (.creating none true)) := by
    refine h.setCall (by rw [hphase]; rfl) ?_ fun _ => rfl
    intro player planner he
    cases he
  exact ⟨hnext.ownership,hnext.captured,hnext.registrations,hnext.distinct,hnext.pair,
    fun _ => Or.inr ⟨i,by rw [setCall_self]; rfl⟩⟩

private theorem Owned.created {phase : Phase} (h : Owned s) (hb : Base s)
    (hcreated : phase.created = (s.calls i).created ++ [s.next])
    (hpair : ∀ player planner, phase = .assembling player planner →
      (s.calls i).created = [player] ∧ planner = s.next)
    (hbuilding : phase.building = true) :
    Owned (s.createAgent.setCall i phase) where
  ownership := by
    refine h.ownership.acquire (.call i) ?_ ?_ ?_
    · exact fun hmem => Nat.lt_irrefl _ (hb.fresh _ hmem)
    · simp [World.holds,hcreated]
    · exact fun o ho => holds_setCall_other ho
  captured := h.captured
  registrations := h.registrations
  distinct j player planner hj := by
    by_cases he : j = i
    · subst he
      rw [setCall_self] at hj
      obtain ⟨hplayer,rfl⟩ := hpair player planner hj
      have hlive : player ∈ s.handles :=
        h.ownership.alive (.call j) player (by simp [World.holds,hplayer])
      exact Nat.ne_of_lt (hb.fresh player hlive)
    · rw [setCall_other he] at hj
      exact h.distinct j player planner hj
  pair := h.pair
  game hgame := by
    refine (h.game hgame).imp_right fun _ => ⟨i,?_⟩
    rwa [setCall_self]

private theorem Owned.assembled {player planner : Nat} (h : Owned s) (hb : Base s)
    (hphase : s.calls i = .assembling player planner) (hfree : s.orchestrator.members = none)
    (hopen : s.orchestrator.disposed = false) :
    Owned ((s.register player planner).installFlow.setCall i .returned) where
  ownership := by
    refine h.ownership.transfer (.call i) .team ?_ ?_ ?_ ?_
    · exact holds_team_eq_nil (Or.inl hfree)
    · simp [World.holds,Phase.created]
    · simp [World.holds,World.register,World.installFlow,Phase.created,hopen,hphase,
        Orchestrator.agents]
    · intro o ho hteam
      cases o with
      | team => exact absurd rfl hteam
      | call j => exact holds_setCall_other ho
      | disposal => rfl
  captured hdisposed := by
    rw [show s.orchestrator.disposed = true from hdisposed] at hopen
    cases hopen
  registrations := by
    show s.registrations ++ _ = _
    rw [h.registrations,hb.unregistered hfree]
    rfl
  distinct j player' planner' hj := by
    by_cases he : j = i
    · subst he
      rw [setCall_self] at hj
      cases hj
    · rw [setCall_other he] at hj
      exact h.distinct j player' planner' hj
  pair player' planner' hmembers := by
    cases hmembers
    exact h.distinct i _ _ hphase
  game _ := Or.inl nofun

private theorem Owned.rolledBack {created left : List Nat} (h : Owned s)
    (hphase : s.calls i = .rollingBack created) (hleft : ∀ x ∈ created, x ∉ left) :
    Owned ((s.endHandles created left).setCall i .thrown) where
  ownership := by
    have hcreated : s.holds (.call i) = created := by rw [World.holds,hphase]; rfl
    have hrelease : Ownership _ (s.setCall i .thrown).holds :=
      h.ownership.release (.call i) (by simp [World.holds,Phase.created])
        fun o ho => holds_setCall_other ho
    rw [hcreated,← endHandles_all hleft] at hrelease
    exact hrelease
  captured := h.captured
  registrations := h.registrations
  distinct j player planner hj := by
    by_cases he : j = i
    · subst he
      rw [setCall_self] at hj
      cases hj
    · rw [setCall_other he] at hj
      exact h.distinct j player planner hj
  pair := h.pair
  game hgame := by
    refine (h.game hgame).imp_right fun ⟨j,hj⟩ => ⟨j,?_⟩
    have he : j ≠ i := by
      rintro rfl
      rw [hphase] at hj
      cases hj
    rw [setCall_other he]
    exact hj

private theorem Owned.disposed (h : Owned s) (hb : Base s)
    (hopen : s.orchestrator.disposed = false) :
    Owned { s with
      orchestrator := { s.orchestrator with disposed := true }
      disposal := .quiescing s.orchestrator.agents } where
  ownership := by
    refine h.ownership.transfer .team .disposal ?_ rfl ?_ ?_
    · simp [World.holds,hb.disposal.mpr hopen,Disposal.bindings]
    · simp [World.holds,hopen,Disposal.bindings]
    · intro o hteam hdisposal
      cases o with
      | team => exact absurd rfl hteam
      | call j => rfl
      | disposal => exact absurd rfl hdisposal
  captured _ := Or.inr ⟨_,rfl⟩
  registrations := h.registrations
  distinct := h.distinct
  pair := h.pair
  game := h.game

private theorem Owned.quiescent {bindings : List Nat} (h : Owned s) (hb : Base s)
    (hbindings : s.disposal = .quiescing bindings) :
    Owned { s.unregister with
      orchestrator := { s.unregister.orchestrator with
        members := none
        game := none
        hooks := none
        announcerMember := none
        flow := none }
      disposal := .releasing bindings } where
  ownership := by
    refine h.ownership.congr fun o => ?_
    cases o with
    | team =>
      have hne : ¬s.orchestrator.disposed = false := by
        rw [← hb.disposal,hbindings]
        simp
      simp [World.holds,World.unregister,hne]
    | call j => rfl
    | disposal => simp [World.holds,hbindings,Disposal.bindings]
  captured _ := Or.inl rfl
  registrations := h.unregister
  distinct := h.distinct
  pair player planner hmembers := by cases hmembers
  game hgame := by cases hgame

private theorem Owned.released {bindings left : List Nat} (h : Owned s)
    (hbindings : s.disposal = .releasing bindings) (hleft : ∀ x ∈ bindings, x ∉ left) :
    Owned { s.endHandles bindings left with disposal := .settled } where
  ownership := by
    have hheld : s.holds .disposal = bindings := by rw [World.holds,hbindings]; rfl
    have hrelease : Ownership (s.handles.filter fun r => decide (r ∉ s.holds .disposal))
        { s with disposal := Disposal.settled }.holds := by
      refine h.ownership.release .disposal rfl fun o ho => ?_
      cases o with
      | team => rfl
      | call j => rfl
      | disposal => exact absurd rfl ho
    rw [hheld,← endHandles_all hleft] at hrelease
    exact hrelease
  captured hdisposed := by
    rcases h.captured hdisposed with hnone | ⟨found,hfound⟩
    · exact Or.inl hnone
    · rw [hfound] at hbindings
      cases hbindings
  registrations := h.registrations
  distinct := h.distinct
  pair := h.pair
  game := h.game

private theorem undisturbed_failed (hl : l = .composed i false ∨ l = .created i .fails ∨
    l = .assemble i .fails) : Undisturbed s l =
      (decide (s.orchestrator.members = none) || s.orchestrator.disposed) := by
  rcases hl with rfl | rfl | rfl <;> rfl

private theorem undisturbed_rolledBack {created left : List Nat}
    (hphase : s.calls i = .rollingBack created) :
    Undisturbed s (.rolledBack i left) = true ↔ ∀ x ∈ created, x ∉ left := by
  simp [Undisturbed,hphase,Phase.created]

private theorem undisturbed_released {bindings left : List Nat}
    (hbindings : s.disposal = .releasing bindings) :
    Undisturbed s (.released left) = true ↔ ∀ x ∈ bindings, x ∉ left := by
  simp [Undisturbed,hbindings,Disposal.bindings]

private theorem Owned.step (h : Owned s) (hb : Base s) (hstep : Step s l s')
    (hclean : Undisturbed s l = true) : Owned s' := by
  cases hstep with
  | refused i mount hidle =>
    refine h.setCall (by rw [hidle]; rfl) ?_ fun hbuilding => ?_
    · intro player planner he
      cases he
    · rw [hidle] at hbuilding
      cases hbuilding
  | unmounted i hidle hfree =>
    exact h.fail rfl rfl rfl h.unregister (by rw [hidle]; rfl) (Or.inl hfree)
  | started i mount hooks next hidle hnext =>
    have hnew : Owned (s.setCall i (.composing none)) := by
      refine h.setCall (by rw [hidle]; rfl) ?_ fun _ => rfl
      intro player planner he
      cases he
    exact ⟨hnew.ownership,hnew.captured,hnew.registrations,hnew.distinct,hnew.pair,hnew.game⟩
  | composed i player hphase =>
    refine h.setCall (by rw [hphase]; rfl) ?_ fun _ => rfl
    intro player planner he
    cases he
  | setup i hphase => exact h.setup hphase
  | created i phase hcreated hpair hbuilding => exact h.created hb hcreated hpair hbuilding
  | assembled i player planner hphase =>
    have hboth : s.orchestrator.members = none ∧ s.orchestrator.disposed = false := by
      simpa [Undisturbed] using hclean
    exact h.assembled hb hphase hboth.1 hboth.2
  | unconstructed i => cases hclean
  | flowless i player planner hphase =>
    have hfree : s.orchestrator.members = none := by simpa [Undisturbed] using hclean
    refine h.fail rfl rfl rfl ?_ rfl (Or.inl hfree)
    apply List.eq_nil_iff_forall_not_mem.mpr
    intro r hr
    have hfailed : r ∈ ((s.register player planner).fail i []).registrations := hr
    have hmem := (mem_register_fail.mp hfailed).1
    rw [h.registrations,hb.unregistered hfree] at hmem
    cases hmem
  | failed i l hl =>
    rw [undisturbed_failed hl] at hclean
    exact h.fail rfl rfl rfl h.unregister rfl (by simpa using hclean)
  | rolledBack i created left hphase =>
    exact h.rolledBack hphase ((undisturbed_rolledBack hphase).mp hclean)
  | ignored hdisposed => exact h
  | disposed hopen => exact h.disposed hb hopen
  | quiescent bindings hbindings => exact h.quiescent hb hbindings
  | released bindings left hbindings =>
    exact h.released hbindings ((undisturbed_released hbindings).mp hclean)

/-! ## Losing a handle -/

/-- A failure under a team that is installed and not being disposed drops it. -/
theorem Owned.dropped {t : World} {created : List Nat} (h : Owned s)
    (hhandles : t.handles = s.handles) (hcalls : t.calls = s.calls)
    (hdisposal : t.disposal = s.disposal) (hcreated : created = (s.calls i).created)
    (hmembers : s.orchestrator.members ≠ none) (hopen : s.orchestrator.disposed = false) :
    Orphaned (t.fail i created).handles (t.fail i created).holds := by
  obtain ⟨⟨player,planner⟩,hmembers⟩ := Option.ne_none_iff_exists'.mp hmembers
  have hheld : player ∈ s.holds .team := by simp [holds_team hopen,agents_eq_pair hmembers]
  apply h.ownership.abandon hheld
  · intro x hx
    rw [fail_handles,hhandles]
    exact hx
  · exact fun hx => (mem_holds_fail hcalls hdisposal hcreated hx).1 rfl
  · exact fun o _ x hx => (mem_holds_fail hcalls hdisposal hcreated hx).2

/-- An installation over a team, or under a disposal that has already collected what it releases. -/
theorem Owned.overwritten {player planner : Nat} (h : Owned s)
    (hphase : s.calls i = .assembling player planner)
    (hdisturbed : s.orchestrator.members = none → s.orchestrator.disposed = true) :
    Leaked ((s.register player planner).installFlow.setCall i .returned) := by
  have hplayer : player ∈ s.holds (.call i) := by simp [World.holds,hphase,Phase.created]
  have hcall : ∀ x, x ∉ ((s.register player planner).installFlow.setCall i .returned).holds
      (.call i) := by
    intro x hx
    rw [World.holds,setCall_self] at hx
    cases hx
  cases hdisposed : s.orchestrator.disposed with
  | true =>
    -- The new team is nobody's.
    refine Or.inl (h.ownership.abandon hplayer (fun x hx => hx) (hcall player) fun o ho x hx => ?_)
    cases o with
    | team =>
      have hnone := holds_team_eq_nil
        (s := (s.register player planner).installFlow.setCall i .returned) (Or.inr hdisposed)
      rw [hnone] at hx
      cases hx
    | call j =>
      rw [holds_setCall_other ho] at hx
      exact hx
    | disposal => exact hx
  | false =>
    -- The old team is overwritten.
    have hinstalled : s.orchestrator.members ≠ none := by
      intro hnone
      rw [hdisturbed hnone] at hdisposed
      cases hdisposed
    obtain ⟨⟨old,other⟩,hmembers⟩ := Option.ne_none_iff_exists'.mp hinstalled
    have hold : old ∈ s.holds .team := by simp [holds_team hdisposed,agents_eq_pair hmembers]
    refine Or.inl ⟨old,h.ownership.alive _ _ hold,fun o ho => ?_⟩
    cases o with
    | team =>
      -- What is installed now, the call held, and not the team.
      have hpair : old ∈ s.holds (.call i) := by
        have hteam := holds_team
          (s := (s.register player planner).installFlow.setCall i .returned) hdisposed
        have hagents : ((s.register player planner).installFlow.setCall i .returned).orchestrator.agents
            = [player,planner] := agents_eq_pair rfl
        rw [hteam,hagents] at ho
        simpa [World.holds,hphase,Phase.created] using ho
      cases h.ownership.unique .team (.call i) old hold hpair
    | call j =>
      by_cases hj : j = i
      · exact hcall old (hj ▸ ho)
      · rw [holds_setCall_other (by simpa using hj)] at ho
        cases h.ownership.unique .team (.call j) old hold ho
    | disposal => cases h.ownership.unique .team .disposal old hold ho

/-- A registration under an installed team, whose own one is forgotten. -/
theorem Owned.forgotten {player planner : Nat} {created : List Nat} (h : Owned s) (hb : Base s)
    (hinstalled : s.orchestrator.members ≠ none) :
    Stray ((s.register player planner).fail i created) := by
  obtain ⟨r,hr⟩ : ∃ r, s.orchestrator.teamRegistration = some r := by
    have hroster := hb.roster
    cases hregistration : s.orchestrator.teamRegistration with
    | none =>
      rw [hregistration] at hroster
      exact absurd hroster.symm hinstalled
    | some r => exact ⟨r,rfl⟩
  have hmem : r ∈ s.registrations := by simp [h.registrations,hr]
  refine ⟨r,mem_register_fail.mpr ⟨hmem,fun he => ?_⟩,by rw [fail_teamRegistration]; simp⟩
  exact Nat.ne_of_lt (hb.registered r hmem) (congrArg Registration.id he)

private theorem Owned.disturbed (h : Owned s) (hb : Base s) (hstep : Step s l s')
    (hclean : Undisturbed s l = false) : Leaked s' := by
  cases hstep with
  | assembled i player planner hphase =>
    exact h.overwritten hphase (by simpa [Undisturbed] using hclean)
  | flowless i player planner hphase =>
    exact Or.inr (h.forgotten hb (by simpa [Undisturbed] using hclean))
  | failed i l hl =>
    rw [undisturbed_failed hl] at hclean
    have hboth : s.orchestrator.members ≠ none ∧ s.orchestrator.disposed = false := by
      simpa using hclean
    exact Or.inl (h.dropped rfl rfl rfl rfl hboth.1 hboth.2)
  | unconstructed i =>
    -- Nobody has collected the new handle.
    have hnew : s.next ∉ s.handles := fun hmem => Nat.lt_irrefl _ (hb.fresh _ hmem)
    refine Or.inl ⟨s.next,List.mem_append_right _ (List.mem_singleton_self _),fun o ho => ?_⟩
    exact hnew (h.ownership.alive o _ (mem_holds_fail (s := s) rfl rfl rfl ho).2)
  | rolledBack i created left hphase =>
    obtain ⟨x,hx,hleft⟩ : ∃ x ∈ created, x ∈ left := by
      by_contra hall
      push Not at hall
      rw [(undisturbed_rolledBack hphase).mpr hall] at hclean
      cases hclean
    have hheld : x ∈ s.holds (.call i) := by
      rw [World.holds,hphase]
      exact hx
    refine Or.inl ⟨x,mem_endHandles.mpr ⟨h.ownership.alive _ _ hheld,Or.inr hleft⟩,fun o ho => ?_⟩
    by_cases hcall : o = .call i
    · rw [hcall,World.holds,setCall_self] at ho
      cases ho
    · rw [holds_setCall_other hcall] at ho
      exact hcall (h.ownership.unique o (.call i) x (by cases o <;> exact ho) hheld)
  | released bindings left hbindings =>
    obtain ⟨x,hx,hleft⟩ : ∃ x ∈ bindings, x ∈ left := by
      by_contra hall
      push Not at hall
      rw [(undisturbed_released hbindings).mpr hall] at hclean
      cases hclean
    have hheld : x ∈ s.holds .disposal := by
      rw [World.holds,hbindings]
      exact hx
    refine Or.inl ⟨x,mem_endHandles.mpr ⟨h.ownership.alive _ _ hheld,Or.inr hleft⟩,fun o ho => ?_⟩
    cases o with
    | team => cases h.ownership.unique .team .disposal x ho hheld
    | call j => cases h.ownership.unique (.call j) .disposal x ho hheld
    | disposal => cases ho
  | refused => cases hclean
  | unmounted => cases hclean
  | started => cases hclean
  | composed => cases hclean
  | setup => cases hclean
  | created => cases hclean
  | ignored => cases hclean
  | disposed => cases hclean
  | quiescent => cases hclean

end steps

/-! ## Runs -/

/-- The system beside the news whether all steps so far were undisturbed. -/
def observed : Lts (World × Bool) Label :=
  system.journaled (fun s l _ clean => clean && Undisturbed s l) true

/-- The invariant of the runs. -/
def Accounted (x : World × Bool) : Prop :=
  Base x.1 ∧ if x.2 then Owned x.1 else Leaked x.1

private theorem accounted_init : Accounted ({},true) := by
  refine ⟨⟨by simp,by simp,by simp,by simp,rfl,rfl⟩,?_⟩
  refine ⟨⟨fun o r hr => ?_,by simp,fun o o' r hr _ => ?_⟩,by simp,rfl,by simp,by simp,by simp⟩
  · cases o <;> cases hr
  · cases o <;> cases hr

private theorem accounted : Lts.Inductive observed (fun _ _ => True) Accounted where
  init x hx := by
    obtain ⟨s,clean⟩ := x
    obtain ⟨rfl,rfl⟩ : s = {} ∧ clean = true := hx
    exact accounted_init
  step x l y hx _ hstep := by
    obtain ⟨hs,hclean⟩ := Lts.journaled_step.mp hstep
    have hmove := step_cases hs
    refine ⟨hx.1.step hmove,?_⟩
    have howned := hx.2
    rw [hclean]
    cases hold : x.2 with
    | false =>
      rw [hold] at howned
      exact Leaked.step howned hx.1 hmove
    | true =>
      rw [hold] at howned
      cases hnew : Undisturbed x.1 l with
      | true => exact Owned.step howned hx.1 hmove hnew
      | false => exact Owned.disturbed howned hx.1 hmove hnew

section settled

variable {s : World}

private theorem created_of_settled {phase : Phase} (h : phase.running = false) :
    phase.created = [] := by
  cases phase with
  | idle => rfl
  | returned => rfl
  | thrown => rfl
  | _ => cases h

private theorem building_of_settled {phase : Phase} (h : phase.running = false) :
    phase.building = false := by
  cases phase with
  | idle => rfl
  | returned => rfl
  | thrown => rfl
  | _ => cases h

private theorem bindings_of_settled {disposal : Disposal} (h : disposal.running = false) :
    disposal.bindings = [] := by
  cases disposal with
  | idle => rfl
  | settled => rfl
  | _ => cases h

/-- After the calls only the team owns anything. -/
theorem Owned.held_by_team (h : Owned s) (hsettled : Settled s) {x : Nat} (hx : x ∈ s.handles) :
    x ∈ s.holds .team := by
  obtain ⟨o,ho⟩ := h.ownership.held x hx
  cases o with
  | team => exact ho
  | call i =>
    have hnone : s.holds (.call i) = [] := created_of_settled (hsettled.1 i)
    rw [hnone] at ho
    cases ho
  | disposal =>
    have hnone : s.holds .disposal = [] := bindings_of_settled hsettled.2
    rw [hnone] at ho
    cases ho

private theorem Owned.clear (h : Owned s) (hb : Base s) (hsettled : Settled s)
    (hfree : s.orchestrator.members = none) : Clear s := by
  have hroster := hb.unregistered hfree
  have hflow : s.orchestrator.flow.isSome = false := by rw [hb.flow,hfree]; rfl
  refine ⟨?_,?_,hfree,hroster,by simpa using hflow,?_⟩
  · refine List.eq_nil_iff_forall_not_mem.mpr fun x hx => ?_
    have hteam := h.held_by_team hsettled hx
    rw [holds_team_eq_nil (Or.inl hfree)] at hteam
    cases hteam
  · rw [h.registrations,hroster]
    rfl
  · refine Option.not_isSome_iff_eq_none.mp fun hgame => ?_
    rcases h.game hgame with hmembers | ⟨i,hi⟩
    · exact hmembers hfree
    · rw [building_of_settled (hsettled.1 i)] at hi
      cases hi

private theorem Owned.materialized {player planner : Nat} (h : Owned s) (hb : Base s)
    (hsettled : Settled s) (hopen : s.orchestrator.disposed = false)
    (hmembers : s.orchestrator.members = some (player,planner)) : Materialized s := by
  have hteam : s.holds .team = [player,planner] := by
    rw [holds_team hopen,agents_eq_pair hmembers]
  have hperm : s.handles.Perm [player,planner] := by
    have hnodup : [player,planner].Nodup := by simp [h.pair player planner hmembers]
    refine (List.perm_ext_iff_of_nodup hb.nodup hnodup).mpr fun x => ?_
    rw [← hteam]
    exact ⟨h.held_by_team hsettled,h.ownership.alive _ _⟩
  obtain ⟨registration,hregistration,hpair⟩ : ∃ r, s.orchestrator.teamRegistration = some r ∧
      (r.player,r.planner) = (player,planner) := by
    have hroster := hb.roster
    rw [hmembers] at hroster
    exact Option.map_eq_some_iff.mp hroster
  refine ⟨hopen,player,planner,registration,hmembers,hperm,hregistration,?_,
    congrArg Prod.fst hpair,congrArg Prod.snd hpair,?_⟩
  · rw [h.registrations,hregistration]
    rfl
  · rw [hb.flow,hmembers]
    rfl

private theorem Owned.settled (h : Owned s) (hb : Base s) (hsettled : Settled s) :
    Materialized s ∨ Clear s := by
  cases hmembers : s.orchestrator.members with
  | none => exact Or.inr (h.clear hb hsettled hmembers)
  | some members =>
    refine Or.inl (h.materialized hb hsettled ?_ hmembers)
    cases hdisposed : s.orchestrator.disposed with
    | false => rfl
    | true =>
      rcases h.captured hdisposed with hnone | ⟨bindings,hbindings⟩
      · rw [hmembers] at hnone
        cases hnone
      · have hrunning := hsettled.2
        rw [hbindings] at hrunning
        cases hrunning

private theorem Leaked.not_settled (h : Leaked s) : ¬(Materialized s ∨ Clear s) := by
  rcases h with ⟨x,hx,hfree⟩ | ⟨r,hr,hne⟩
  · rintro (⟨hopen,player,planner,-,hmembers,hperm,-⟩ | ⟨hnone,-⟩)
    · apply hfree .team
      rw [holds_team hopen,agents_eq_pair hmembers]
      exact hperm.mem_iff.mp hx
    · rw [hnone] at hx
      cases hx
  · rintro (⟨-,-,-,registration,-,-,hregistration,hall,-⟩ | ⟨-,hnone,-⟩)
    · rw [hall] at hr
      rw [List.mem_singleton.mp hr] at hne
      exact hne hregistration
    · rw [hnone] at hr
      cases hr

end settled

/-- Once all calls have settled, the orchestrator is materialized or everything is released exactly
in the runs without a disturbed step. -/
theorem leakFree_iff_undisturbed (x : World × Bool) (h : Lts.Reach observed x)
    (hsettled : Settled x.1) : (Materialized x.1 ∨ Clear x.1) ↔ x.2 = true := by
  obtain ⟨hb,howned⟩ := accounted.of_reachUnder h
  cases hclean : x.2 with
  | true =>
    rw [hclean] at howned
    exact ⟨fun _ => rfl,fun _ => Owned.settled howned hb hsettled⟩
  | false =>
    rw [hclean] at howned
    exact ⟨fun hgood => absurd hgood (Leaked.not_settled howned),fun hfalse => by cases hfalse⟩

/-! ## Two runs -/

/-- One materialization that got both agents. -/
def assembling : List Label :=
  [.materialize 0 .absent,.composed 0 true,.setup 0,.created 0 .creates,.composed 0 true,
    .created 0 .creates]

/-- The world after one call went through some phases. -/
def single (orchestrator : Orchestrator) (phases : List Phase) (disposal : Disposal) : World where
  orchestrator := orchestrator
  handles := [1,2]
  registrations := [⟨3,1,2⟩]
  next := 6
  calls := phases.foldl (fun calls phase => Function.update calls 0 phase) fun _ => .idle
  disposal := disposal

def assembled (disposed : Bool) : Orchestrator where
  members := some (1,2)
  teamRegistration := some ⟨3,1,2⟩
  game := if disposed then none else some 0
  announcerMember := some 4
  flow := some 5
  disposed := disposed

def phases : List Phase :=
  [.composing none,.creating none false,.creating none true,.composing (some 1),
    .creating (some 1) false,.assembling 1 2,.returned]

private theorem single_settled {orchestrator : Orchestrator} {disposal : Disposal}
    (h : disposal.running = false) : Settled (single orchestrator phases disposal) := by
  refine ⟨fun i => ?_,h⟩
  by_cases hi : i = 0
  · subst hi
    rfl
  · simp [single,phases,Function.update_of_ne hi,Phase.running]

theorem leakFree_iff_undisturbed_demo :
    Materialized (single (assembled false) phases .idle) ∨
      Clear (single (assembled false) phases .idle) :=
  (leakFree_iff_undisturbed (single (assembled false) phases .idle,true)
    (Lts.reach_of_run (s := ({},true)) (assembling ++ [.assemble 0 .installs]) (.init ⟨rfl,rfl⟩) rfl)
    (single_settled rfl)).mpr rfl

/-- The disposal settles between the creation of the second agent and the installation. -/
theorem disposed_while_materializing : ∃ s, Lts.Reach system s ∧ Settled s ∧
    s.orchestrator.disposed = true ∧ s.handles = [1,2] ∧ ¬(Materialized s ∨ Clear s) := by
  refine ⟨single (assembled true) phases .settled,?_,single_settled rfl,rfl,rfl,?_⟩
  · exact Lts.reach_of_run
      (assembling ++ [.dispose,.quiescent,.released [],.assemble 0 .installs]) (.init rfl) rfl
  · rintro (⟨hopen,-⟩ | ⟨hnone,-⟩)
    · cases hopen
    · cases hnone

end Dominion.Saolei.Materialize
