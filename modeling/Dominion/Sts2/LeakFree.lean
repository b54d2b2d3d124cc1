import Dominion.Framework.Ownership
import Dominion.Sts2.Orchestrator
import Mathlib.Data.List.Basic

/-! # Who owns the main agent

Every live handle has one owner: the orchestrator, a call that is still running, or the disposal.
A disturbed step leaves a handle without an owner. -/
namespace Dominion.Sts2.Orchestration

open Dominion.Framework

inductive Owner where
  | orchestrator
  | call (i : Nat)
  | disposal
  deriving DecidableEq

/-- The handle that a call created and has not handed over. -/
def Phase.created : Phase → List Nat
  | .rollingBack created _ => created.toList
  | _ => []

def Disposal.handles : Disposal → List Nat
  | .settling _ _ handle => handle.toList
  | .releasing handle => [handle]
  | _ => []

/-- The driver whose turn the disposal awaits. -/
def Disposal.drivers : Disposal → List Nat
  | .settling driver _ _ => [driver]
  | _ => []

@[simp] theorem created_rollingBack {created : Option Nat} {error : String} :
    (Phase.rollingBack created error).created = created.toList := rfl

@[simp] theorem handles_idle : Disposal.idle.handles = [] := rfl

@[simp] theorem drivers_idle : Disposal.idle.drivers = [] := rfl

/-- What an owner holds; a disposed orchestrator holds nothing. -/
def World.holds (s : World) : Owner → List Nat
  | .orchestrator => if s.orchestrator.disposed then [] else s.orchestrator.handle.toList
  | .call i => (s.calls i).created
  | .disposal => s.disposal.handles

/-- What every run keeps. -/
structure Base (s : World) : Prop where
  nodup : s.handles.Nodup
  fresh : ∀ h ∈ s.handles, h < s.next
  idle : s.disposal = .idle ↔ s.orchestrator.disposed = false
  driver : s.orchestrator.driver = s.orchestrator.handle
  events : s.orchestrator.events = s.orchestrator.handle
  settling : ∀ d events handle, s.disposal = .settling d events handle →
    events = some d ∧ handle = some d

/-- What the undisturbed runs keep. -/
structure Owned (s : World) : Prop where
  ownership : Ownership s.handles s.holds
  uninstalled : s.orchestrator.disposed = true → s.orchestrator.handle = none
  streams : s.streams = s.orchestrator.handle.toList ++ s.disposal.drivers
  listeners : s.listeners = s.orchestrator.handle.toList ++ s.disposal.drivers

/-- Nothing that the ownership is about has changed. -/
structure Same (s s' : World) : Prop where
  orchestrator : s'.orchestrator = s.orchestrator
  handles : s'.handles = s.handles
  streams : s'.streams = s.streams
  listeners : s'.listeners = s.listeners
  next : s'.next = s.next
  disposal : s'.disposal = s.disposal
  created : ∀ i, (s'.calls i).created = (s.calls i).created

/-- What a step can do. -/
inductive Step (s : World) : Label → World → Prop
  | kept (l : Label) (s' : World) : Same s s' → Undisturbed s l = true → Step s l s'
  | unconstructed (i : Nat) (error : String) :
    (s.calls i).created = [] →
    Step s (.created i (.constructionFails error))
      ({ s with handles := s.handles ++ [s.next], next := s.next + 1 }.setCall i
        (.rollingBack (some s.next) error))
  | installed (i : Nat) (session : String) :
    (s.calls i).created = [] →
    Step s (.created i .creates) ({ s with
      handles := s.handles ++ [s.next]
      streams := s.streams ++ [s.next]
      listeners := s.listeners ++ [s.next]
      drivers := Function.update s.drivers s.next {}
      next := s.next + 1
      orchestrator := { s.orchestrator with
        handle := some s.next
        events := some s.next
        driver := some s.next
        session := some session } }.setCall i .returned)
  | rolledBack (i h : Nat) (live : Bool) (error : String) :
    s.calls i = .rollingBack (some h) error →
    Step s (.rolledBack i live) ((s.endHandle h live).setCall i (.thrown (.failed error)))
  | disposed :
    s.orchestrator.disposed = false → Step s .dispose s.dispose
  | settled (d : Nat) (events handle : Option Nat) :
    s.disposal = .settling d events handle →
    Step s .driverSettled (s.release (some d) events handle)
  | released (h : Nat) (live : Bool) :
    s.disposal = .releasing h →
    Step s (.released live) { s.endHandle h live with disposal := .settled }

section steps

variable {s s' : World} {l : Label} {i : Nat}

private theorem setCall_self {phase : Phase} : (s.setCall i phase).calls i = phase :=
  Function.update_self ..

private theorem setCall_other {phase : Phase} {j : Nat} (h : j ≠ i) :
    (s.setCall i phase).calls j = s.calls j :=
  Function.update_of_ne h ..

private theorem Same.setCall {phase : Phase} (h : phase.created = (s.calls i).created) :
    Same s (s.setCall i phase) where
  orchestrator := rfl
  handles := rfl
  streams := rfl
  listeners := rfl
  next := rfl
  disposal := rfl
  created j := by
    by_cases hj : j = i
    · rw [hj,setCall_self,h]
    · rw [setCall_other hj]

private theorem Same.setDriver {h : Nat} {w : Sts2.World} : Same s (s.setDriver h w) :=
  ⟨rfl,rfl,rfl,rfl,rfl,rfl,fun _ => rfl⟩

private theorem Same.refl : Same s s :=
  ⟨rfl,rfl,rfl,rfl,rfl,rfl,fun _ => rfl⟩

private theorem materialize_step {input : MaterializeInput} (h : s.materialize i input = some s') :
    Step s (.materialize i input) s' := by
  rw [World.materialize] at h
  split at h
  · rename_i hidle
    have hnone : (s.calls i).created = [] := by rw [hidle]; rfl
    refine .kept _ _ ?_ rfl
    cases h
    split
    · exact .setCall hnone.symm
    · split
      · exact .setCall hnone.symm
      · split <;> exact .setCall hnone.symm
  · cases h

private theorem composed_step {answer : Except String String} (h : s.composed i answer = some s') :
    Step s (.composed i answer) s' := by
  rw [World.composed] at h
  split at h
  · rename_i input member hcomposing
    have hnone : (s.calls i).created = [] := by rw [hcomposing]; rfl
    refine .kept _ _ ?_ rfl
    cases h
    cases answer <;> exact .setCall hnone.symm
  · cases h

private theorem created_step {answer : Creation} (h : s.created i answer = some s') :
    Step s (.created i answer) s' := by
  rw [World.created] at h
  split at h
  · rename_i session options hcreating
    have hnone : (s.calls i).created = [] := by rw [hcreating]; rfl
    cases h
    cases answer with
    | fails error => exact .kept _ _ (.setCall hnone.symm) rfl
    | creates => exact .installed i session hnone
    | constructionFails error => exact .unconstructed i error hnone
  · cases h

private theorem rolledBack_step {live : Bool} (h : s.rolledBack i live = some s') :
    Step s (.rolledBack i live) s' := by
  rw [World.rolledBack] at h
  split at h
  · rename_i error hrolling
    cases h
    refine .kept _ _ (.setCall ?_) ?_
    · rw [hrolling]
      rfl
    · simp [Undisturbed,hrolling]
  · rename_i handle error hrolling
    cases h
    exact .rolledBack i handle live error hrolling
  · cases h

private theorem submit_step {message : UserMessage} (h : s.step (.submit message) = some s') :
    Step s (.submit message) s' := by
  refine .kept _ _ ?_ rfl
  simp only [World.step,World.submit] at h
  split at h
  · cases h
    exact .refl
  · rename_i found hfound
    split at hfound
    · cases hfound
    · split at hfound
      · cases hfound
      · cases hfound
        obtain ⟨w,_,rfl⟩ := Option.map_eq_some_iff.mp h
        exact .setDriver

private theorem cancel_step (h : s.step .cancel = some s') : Step s .cancel s' := by
  refine .kept _ _ ?_ rfl
  simp only [World.step,World.cancel] at h
  split at h
  · cases h
    exact .refl
  · rename_i found hfound
    cases h
    split at hfound
    · cases hfound
      exact .refl
    · split at hfound
      · cases hfound
      · cases hfound
        exact .setDriver

private theorem step_cases (h : system.step s l = some s') : Step s l s' := by
  cases l with
  | materialize i input => exact materialize_step h
  | composed i answer => exact composed_step h
  | created i answer => exact created_step h
  | rolledBack i live => exact rolledBack_step h
  | submit message => exact submit_step h
  | cancel => exact cancel_step h
  | turn handle l =>
    obtain ⟨_,hmap⟩ : isTurn l = true ∧ ((s.drivers handle).step l).map (s.setDriver handle) =
        some s' := by
      simpa [system,World.step,World.turn] using h
    obtain ⟨w,_,rfl⟩ := Option.map_eq_some_iff.mp hmap
    exact .kept _ _ .setDriver rfl
  | dispose =>
    obtain rfl : s.dispose = s' := Option.some.inj h
    cases hdisposed : s.orchestrator.disposed with
    | true =>
      have hsame : s.dispose = s := by simp [World.dispose,hdisposed]
      rw [hsame]
      exact .kept _ _ .refl rfl
    | false => exact .disposed hdisposed
  | driverSettled =>
    simp only [system,World.step,World.driverSettled] at h
    split at h
    · rename_i d events handle hsettling
      split at h
      · cases h
      · cases h
        exact .settled d events handle hsettling
    · cases h
  | released live =>
    simp only [system,World.step,World.released] at h
    split at h
    · rename_i handle hreleasing
      cases h
      exact .released handle live hreleasing
    · cases h

/-- A disposal takes over what the orchestrator refers to. -/
theorem dispose_spec (hb : Base s) (hopen : s.orchestrator.disposed = false) :
    ∃ drivers disposal, s.dispose = { s with
      orchestrator := { s.orchestrator with
        disposed := true, driver := none, events := none, handle := none, session := none }
      drivers := drivers
      disposal := disposal } ∧
      disposal ≠ .idle ∧ disposal.handles = s.orchestrator.handle.toList ∧
      disposal.drivers = s.orchestrator.handle.toList ∧
      ∀ d events handle, disposal = .settling d events handle →
        events = some d ∧ handle = some d := by
  have hdriver := hb.driver
  have hevents := hb.events
  cases hhandle : s.orchestrator.handle with
  | none =>
    rw [hhandle] at hdriver hevents
    refine ⟨s.drivers,.settled,?_,by simp,rfl,rfl,fun d events handle he => by cases he⟩
    simp [World.dispose,World.release,hopen,hdriver,hevents,hhandle]
  | some h =>
    rw [hhandle] at hdriver hevents
    let w := s.drivers h
    let converging := if w.driver.activeTurn.isSome then w.cancel else w
    refine ⟨Function.update s.drivers h converging,.settling h (some h) (some h),?_,by simp,rfl,rfl,
      fun d events handle he => ?_⟩
    · simp [World.dispose,World.setDriver,hopen,hdriver,hevents,hhandle,converging,w]
    · cases he
      exact ⟨rfl,rfl⟩

/-! ## What every run keeps -/

private theorem mem_endHandle {h x : Nat} {live : Bool} (hx : x ∈ (s.endHandle h live).handles) :
    x ∈ s.handles := by
  cases live with
  | true => exact hx
  | false => exact List.mem_of_mem_filter hx

private theorem endHandle_released (h : Nat) :
    (s.endHandle h false).handles = s.handles.filter fun r => decide (r ∉ [h]) := by
  simp [World.endHandle]

private theorem nodup_endHandle {h : Nat} {live : Bool} (hs : s.handles.Nodup) :
    (s.endHandle h live).handles.Nodup := by
  cases live with
  | true => exact hs
  | false => exact hs.filter _

/-- A created agent is new. -/
theorem Base.create (h : Base s) :
    (s.handles ++ [s.next]).Nodup ∧ ∀ x ∈ s.handles ++ [s.next], x < s.next + 1 := by
  have hnew : s.next ∉ s.handles := fun hmem => Nat.lt_irrefl _ (h.fresh _ hmem)
  constructor
  · rw [List.nodup_append]
    refine ⟨h.nodup,by simp,fun x hx y hy he => hnew ?_⟩
    rw [List.mem_singleton.mp hy] at he
    exact he ▸ hx
  · intro x hx
    rcases List.mem_append.mp hx with hold | hlast
    · have hlt := h.fresh x hold
      omega
    · have he := List.mem_singleton.mp hlast
      omega

private theorem Base.disposed_of_running (h : Base s) (hrunning : s.disposal ≠ .idle) :
    s.orchestrator.disposed = true := by
  cases hd : s.orchestrator.disposed with
  | true => rfl
  | false => exact absurd (h.idle.mpr hd) hrunning

private theorem Base.step (h : Base s) (hstep : Step s l s') : Base s' := by
  cases hstep with
  | kept l s' hsame hclean =>
    have ho := hsame.orchestrator
    refine ⟨?_,?_,?_,?_,?_,?_⟩
    · rw [hsame.handles]
      exact h.nodup
    · rw [hsame.handles,hsame.next]
      exact h.fresh
    · rw [hsame.disposal,ho]
      exact h.idle
    · rw [ho]
      exact h.driver
    · rw [ho]
      exact h.events
    · rw [hsame.disposal]
      exact h.settling
  | unconstructed i error hnone =>
    exact ⟨h.create.1,h.create.2,h.idle,h.driver,h.events,h.settling⟩
  | installed i session hnone => exact ⟨h.create.1,h.create.2,h.idle,rfl,rfl,h.settling⟩
  | rolledBack i handle live error hrolling =>
    refine ⟨nodup_endHandle h.nodup,fun x hx => ?_,?_,?_,?_,?_⟩
    · have hlt := h.fresh x (mem_endHandle hx)
      cases live <;> exact hlt
    · cases live <;> exact h.idle
    · cases live <;> exact h.driver
    · cases live <;> exact h.events
    · cases live <;> exact h.settling
  | disposed hopen =>
    obtain ⟨drivers,disposal,he,hidle,_,_,hsettling⟩ := dispose_spec h hopen
    rw [he]
    exact ⟨h.nodup,h.fresh,by simp [hidle],rfl,rfl,hsettling⟩
  | settled d events handle hsettling =>
    have hdisposed := h.disposed_of_running (by simp [hsettling])
    refine ⟨h.nodup,h.fresh,?_,h.driver,h.events,?_⟩
    · cases handle <;> simp [World.release,hdisposed]
    · cases handle <;> simp [World.release]
  | released handle live hreleasing =>
    have hdisposed := h.disposed_of_running (by simp [hreleasing])
    refine ⟨nodup_endHandle h.nodup,fun x hx => ?_,?_,?_,?_,by simp⟩
    · have hlt := h.fresh x (mem_endHandle hx)
      cases live <;> exact hlt
    · cases live <;> simp [World.endHandle,hdisposed]
    · cases live <;> exact h.driver
    · cases live <;> exact h.events

/-! ## Keeping the ownership -/

private theorem Same.holds (h : Same s s') (o : Owner) : s'.holds o = s.holds o := by
  cases o with
  | orchestrator => simp [World.holds,h.orchestrator]
  | call i => exact h.created i
  | disposal => simp [World.holds,h.disposal]

/-- A call's new phase only changes what the call holds. -/
theorem holds_setCall_other {phase : Phase} {o : Owner} (h : o ≠ .call i) :
    (s.setCall i phase).holds o = s.holds o := by
  cases o with
  | orchestrator => rfl
  | call j =>
    have hj : j ≠ i := fun he => h (he ▸ rfl)
    simp [World.holds,setCall_other hj]
  | disposal => rfl

private theorem Owned.kept (h : Owned s) (hsame : Same s s') : Owned s' where
  ownership := by
    rw [hsame.handles]
    exact h.ownership.congr hsame.holds
  uninstalled := by
    rw [hsame.orchestrator]
    exact h.uninstalled
  streams := by
    rw [hsame.streams,hsame.orchestrator,hsame.disposal]
    exact h.streams
  listeners := by
    rw [hsame.listeners,hsame.orchestrator,hsame.disposal]
    exact h.listeners

private theorem Owned.unconstructed {error : String} (h : Owned s) (hb : Base s)
    (hnone : (s.calls i).created = []) :
    Owned ({ s with handles := s.handles ++ [s.next], next := s.next + 1 }.setCall i
      (.rollingBack (some s.next) error)) where
  ownership := by
    apply h.ownership.acquire (.call i)
    · exact fun hmem => Nat.lt_irrefl _ (hb.fresh _ hmem)
    · simp [World.holds,setCall_self,hnone]
    · exact fun o ho => holds_setCall_other ho
  uninstalled := h.uninstalled
  streams := h.streams
  listeners := h.listeners

private theorem Owned.installed {session : String} (h : Owned s) (hb : Base s)
    (hnone : (s.calls i).created = []) (hfree : s.orchestrator.handle = none)
    (hopen : s.orchestrator.disposed = false) :
    Owned ({ s with
      handles := s.handles ++ [s.next]
      streams := s.streams ++ [s.next]
      listeners := s.listeners ++ [s.next]
      drivers := Function.update s.drivers s.next {}
      next := s.next + 1
      orchestrator := { s.orchestrator with
        handle := some s.next
        events := some s.next
        driver := some s.next
        session := some session } }.setCall i .returned) := by
  have hidle := hb.idle.mpr hopen
  refine ⟨?_,fun hd => ?_,?_,?_⟩
  · apply h.ownership.acquire .orchestrator
    · exact fun hmem => Nat.lt_irrefl _ (hb.fresh _ hmem)
    · simp [World.holds,World.setCall,hfree,hopen]
    · intro o ho
      cases o with
      | orchestrator => exact absurd rfl ho
      | call j =>
        by_cases hj : j = i
        · rw [hj,World.holds,setCall_self,World.holds,hnone]
          rfl
        · simp [World.holds,setCall_other hj]
      | disposal => rfl
  · rw [show s.orchestrator.disposed = true from hd] at hopen
    cases hopen
  · simp [World.setCall,h.streams,hfree,hidle]
  · simp [World.setCall,h.listeners,hfree,hidle]

private theorem Owned.rolledBack {handle : Nat} {error : String} (h : Owned s)
    (hrolling : s.calls i = .rollingBack (some handle) error) :
    Owned ((s.endHandle handle false).setCall i (.thrown (.failed error))) where
  ownership := by
    have hcreated : s.holds (.call i) = [handle] := by rw [World.holds,hrolling]; rfl
    have hrelease : Ownership (s.handles.filter fun r => decide (r ∉ s.holds (.call i)))
        (s.setCall i (.thrown (.failed error))).holds := by
      apply h.ownership.release (.call i)
      · simp [World.holds,setCall_self,Phase.created]
      · exact fun o ho => holds_setCall_other ho
    rw [hcreated,← endHandle_released] at hrelease
    exact hrelease
  uninstalled := h.uninstalled
  streams := h.streams
  listeners := h.listeners

private theorem Owned.disposed (h : Owned s) (hb : Base s)
    (hopen : s.orchestrator.disposed = false) :
    Owned s.dispose := by
  obtain ⟨drivers,disposal,he,_,hhandles,hdrivers,_⟩ := dispose_spec hb hopen
  have hidle := hb.idle.mpr hopen
  have hstreams : s.streams = disposal.drivers := by
    simp [h.streams,hidle,hdrivers]
  have hlisteners : s.listeners = disposal.drivers := by
    simp [h.listeners,hidle,hdrivers]
  rw [he]
  refine ⟨?_,fun _ => rfl,hstreams,hlisteners⟩
  apply h.ownership.transfer .orchestrator .disposal
  · simp [World.holds,hidle]
  · simp [World.holds]
  · simp [World.holds,hopen,hhandles]
  · intro o ho hd
    cases o with
    | orchestrator => exact absurd rfl ho
    | call j => rfl
    | disposal => exact absurd rfl hd

private theorem Owned.settled {d : Nat} {events handle : Option Nat} (h : Owned s) (hb : Base s)
    (hsettling : s.disposal = .settling d events handle) :
    Owned (s.release (some d) events handle) := by
  obtain ⟨rfl,rfl⟩ := hb.settling d events handle hsettling
  have hfree := h.uninstalled (hb.disposed_of_running (by simp [hsettling]))
  have hstreams := h.streams
  have hlisteners := h.listeners
  rw [hfree,hsettling] at hstreams hlisteners
  refine ⟨h.ownership.congr fun o => ?_,h.uninstalled,?_,?_⟩
  · cases o with
    | orchestrator => rfl
    | call j => rfl
    | disposal => simp [World.holds,World.release,hsettling,Disposal.handles]
  · simp [World.release,hstreams,hfree,Disposal.drivers]
  · simp [World.release,hlisteners,hfree,Disposal.drivers]

private theorem Owned.released {handle : Nat} (h : Owned s)
    (hreleasing : s.disposal = .releasing handle) :
    Owned { s.endHandle handle false with disposal := .settled } where
  ownership := by
    have hheld : s.holds .disposal = [handle] := by rw [World.holds,hreleasing]; rfl
    have hrelease : Ownership (s.handles.filter fun r => decide (r ∉ s.holds .disposal))
        { s with disposal := Disposal.settled }.holds := by
      apply h.ownership.release .disposal
      · rfl
      · intro o ho
        cases o with
        | orchestrator => rfl
        | call j => rfl
        | disposal => exact absurd rfl ho
    rw [hheld,← endHandle_released] at hrelease
    exact hrelease
  uninstalled := h.uninstalled
  streams := by
    have hstreams := h.streams
    rw [hreleasing] at hstreams
    exact hstreams
  listeners := by
    have hlisteners := h.listeners
    rw [hreleasing] at hlisteners
    exact hlisteners

private theorem Owned.step (h : Owned s) (hb : Base s) (hstep : Step s l s')
    (hclean : Undisturbed s l = true) : Owned s' := by
  cases hstep with
  | kept l s' hsame _ => exact h.kept hsame
  | unconstructed i error hnone => exact h.unconstructed hb hnone
  | installed i session hnone =>
    obtain ⟨hfree,hopen⟩ : s.orchestrator.handle = none ∧ s.orchestrator.disposed = false := by
      simpa [Undisturbed] using hclean
    exact h.installed hb hnone hfree hopen
  | rolledBack i handle live error hrolling =>
    obtain rfl : live = false := by simpa [Undisturbed,hrolling] using hclean
    exact h.rolledBack hrolling
  | disposed hopen => exact h.disposed hb hopen
  | settled d events handle hsettling => exact h.settled hb hsettling
  | released handle live hreleasing =>
    obtain rfl : live = false := by simpa [Undisturbed] using hclean
    exact h.released hreleasing

/-! ## Losing a handle -/

/-- A handle that nobody releases. -/
def Leaked (s : World) : Prop :=
  Orphaned s.handles s.holds

private theorem mem_endHandle_of_ne {h x : Nat} {live : Bool} (hx : x ∈ s.handles) (hne : x ≠ h) :
    x ∈ (s.endHandle h live).handles := by
  cases live with
  | true => exact hx
  | false =>
    rw [endHandle_released]
    exact List.mem_filter.mpr ⟨hx,by simp [hne]⟩

private theorem holds_endHandle {h : Nat} {live : Bool} (o : Owner) :
    (s.endHandle h live).holds o = s.holds o := by
  cases live <;> cases o <;> rfl

private theorem Leaked.step (h : Leaked s) (hb : Base s) (hstep : Step s l s') : Leaked s' := by
  have hnew : s.next ∉ s.handles := fun hmem => Nat.lt_irrefl _ (hb.fresh _ hmem)
  cases hstep with
  | kept l s' hsame _ =>
    apply Orphaned.step h
    · intro x hx _
      rw [hsame.handles]
      exact hx
    · exact fun o x hx => Or.inl ⟨o,hsame.holds o ▸ hx⟩
  | unconstructed i error hnone =>
    apply Orphaned.step h
    · exact fun x hx _ => List.mem_append_left _ hx
    · intro o x hx
      by_cases ho : o = .call i
      · rw [ho,World.holds,setCall_self,created_rollingBack] at hx
        have he : x = s.next := by simpa using hx
        exact Or.inr (he ▸ hnew)
      · rw [holds_setCall_other ho] at hx
        exact Or.inl ⟨o,hx⟩
  | installed i session hnone =>
    apply Orphaned.step h
    · exact fun x hx _ => List.mem_append_left _ hx
    · intro o x hx
      cases o with
      | orchestrator =>
        have he : x = s.next := by
          cases hdisposed : s.orchestrator.disposed with
          | true => simp [World.holds,World.setCall,hdisposed] at hx
          | false => simpa [World.holds,World.setCall,hdisposed] using hx
        exact Or.inr (he ▸ hnew)
      | call j =>
        by_cases hj : j = i
        · rw [hj,World.holds,setCall_self] at hx
          cases hx
        · rw [World.holds,setCall_other hj] at hx
          exact Or.inl ⟨.call j,hx⟩
      | disposal => exact Or.inl ⟨.disposal,hx⟩
  | rolledBack i handle live error hrolling =>
    have hheld : handle ∈ s.holds (.call i) := by simp [World.holds,hrolling]
    apply Orphaned.step h
    · intro x hx hfree
      exact mem_endHandle_of_ne hx fun he => hfree (.call i) (he ▸ hheld)
    · intro o x hx
      by_cases ho : o = .call i
      · rw [ho,World.holds,setCall_self] at hx
        cases hx
      · rw [holds_setCall_other ho,holds_endHandle] at hx
        exact Or.inl ⟨o,hx⟩
  | disposed hopen =>
    obtain ⟨drivers,disposal,he,_,hhandles,_,_⟩ := dispose_spec hb hopen
    rw [he]
    apply Orphaned.step h
    · exact fun x hx _ => hx
    · intro o x hx
      cases o with
      | orchestrator => simp [World.holds] at hx
      | call j => exact Or.inl ⟨.call j,hx⟩
      | disposal =>
        rw [World.holds,hhandles] at hx
        refine Or.inl ⟨.orchestrator,?_⟩
        rw [World.holds,hopen]
        exact hx
  | settled d events handle hsettling =>
    apply Orphaned.step h
    · exact fun x hx _ => hx
    · intro o x hx
      refine Or.inl ⟨o,?_⟩
      cases o with
      | orchestrator => exact hx
      | call j => exact hx
      | disposal =>
        rw [World.holds,hsettling]
        cases handle with
        | none => cases hx
        | some handle => exact hx
  | released handle live hreleasing =>
    have hheld : handle ∈ s.holds .disposal := by
      rw [World.holds,hreleasing]
      exact List.mem_singleton_self handle
    apply Orphaned.step h
    · intro x hx hfree
      exact mem_endHandle_of_ne hx fun he => hfree .disposal (he ▸ hheld)
    · intro o x hx
      cases o with
      | orchestrator => exact Or.inl ⟨.orchestrator,holds_endHandle (.orchestrator) ▸ hx⟩
      | call j => exact Or.inl ⟨.call j,holds_endHandle (.call j) ▸ hx⟩
      | disposal => cases hx

private theorem Owned.disturbed (h : Owned s) (hb : Base s) (hstep : Step s l s')
    (hclean : Undisturbed s l = false) : Leaked s' := by
  cases hstep with
  | kept l s' _ hkept => cases hkept.symm.trans hclean
  | unconstructed => cases hclean
  | installed i session hnone =>
    have hnew : s.next ∉ s.handles := fun hmem => Nat.lt_irrefl _ (hb.fresh _ hmem)
    cases hdisposed : s.orchestrator.disposed with
    | true =>
      -- The new handle is nobody's: the disposal has already taken over what it releases.
      refine ⟨s.next,List.mem_append_right _ (List.mem_singleton_self _),fun o ho => ?_⟩
      cases o with
      | orchestrator => simp [World.holds,World.setCall,hdisposed] at ho
      | call j =>
        by_cases hj : j = i
        · rw [hj,World.holds,setCall_self] at ho
          cases ho
        · rw [World.holds,setCall_other hj] at ho
          exact hnew (h.ownership.alive (.call j) _ ho)
      | disposal => exact hnew (h.ownership.alive .disposal _ ho)
    | false =>
      -- The old handle is overwritten.
      have hinstalled : s.orchestrator.handle ≠ none := by
        intro hnone
        simp [Undisturbed,hnone,hdisposed] at hclean
      obtain ⟨old,hold⟩ := Option.ne_none_iff_exists'.mp hinstalled
      have hheld : old ∈ s.holds .orchestrator := by simp [World.holds,hdisposed,hold]
      apply h.ownership.abandon hheld
      · exact fun x hx => List.mem_append_left _ hx
      · intro hx
        have he : old = s.next := by simpa [World.holds,World.setCall,hdisposed] using hx
        exact hnew (he ▸ h.ownership.alive .orchestrator old hheld)
      · intro o ho x hx
        cases o with
        | orchestrator => exact absurd rfl ho
        | call j =>
          by_cases hj : j = i
          · rw [hj,World.holds,setCall_self] at hx
            cases hx
          · rw [World.holds,setCall_other hj] at hx
            exact hx
        | disposal => exact hx
  | rolledBack i handle live error hrolling =>
    obtain rfl : live = true := by simpa [Undisturbed,hrolling] using hclean
    have hheld : handle ∈ s.holds (.call i) := by simp [World.holds,hrolling]
    apply h.ownership.abandon hheld
    · exact fun x hx => hx
    · rw [World.holds,setCall_self]
      exact List.not_mem_nil
    · intro o ho x hx
      rw [holds_setCall_other ho] at hx
      exact hx
  | disposed => cases hclean
  | settled => cases hclean
  | released handle live hreleasing =>
    obtain rfl : live = true := by simpa [Undisturbed] using hclean
    have hheld : handle ∈ s.holds .disposal := by
      rw [World.holds,hreleasing]
      exact List.mem_singleton_self handle
    apply h.ownership.abandon hheld
    · exact fun x hx => hx
    · exact List.not_mem_nil
    · intro o ho x hx
      cases o with
      | orchestrator => exact hx
      | call j => exact hx
      | disposal => exact absurd rfl ho

end steps

/-! ## Runs -/

/-- The system beside the news whether all steps so far were undisturbed. -/
def observed : Lts (World × Bool) Label :=
  system.journaled (fun s l _ clean => clean && Undisturbed s l) true

/-- The invariant of the runs. -/
def Accounted (x : World × Bool) : Prop :=
  Base x.1 ∧ if x.2 then Owned x.1 else Leaked x.1

private theorem accounted_init {provider : Option String} :
    Accounted ({ orchestrator := { provider := provider } },true) := by
  refine ⟨⟨by simp,by simp,by simp,rfl,rfl,by simp⟩,?_⟩
  refine ⟨⟨fun o r hr => ?_,by simp,fun o o' r hr _ => ?_⟩,by simp,rfl,rfl⟩
  · cases o <;> cases hr
  · cases o <;> cases hr

private theorem accounted : Lts.Inductive observed (fun _ _ => True) Accounted where
  init x hx := by
    obtain ⟨s,clean⟩ := x
    obtain ⟨⟨provider,rfl⟩,rfl⟩ : (∃ provider, s = { orchestrator := { provider := provider } }) ∧
      clean = true := hx
    exact accounted_init
  step x l y hx _ hstep := by
    obtain ⟨hs,hclean⟩ := Lts.journaled_step.mp hstep
    have hmove := step_cases hs
    refine ⟨hx.1.step hmove,?_⟩
    have howned := hx.2
    rw [hclean]
    cases hold : x.2 with
    | false =>
      rw [hold] at howned
      exact Leaked.step howned hx.1 hmove
    | true =>
      rw [hold] at howned
      cases hnew : Undisturbed x.1 l with
      | true => exact Owned.step howned hx.1 hmove hnew
      | false => exact Owned.disturbed howned hx.1 hmove hnew

section settled

variable {s : World}

private theorem created_of_settled {phase : Phase} (h : phase.running = false) :
    phase.created = [] := by
  cases phase with
  | rollingBack => cases h
  | _ => rfl

private theorem disposal_of_settled {disposal : Disposal} (h : disposal.running = false) :
    disposal.handles = [] ∧ disposal.drivers = [] := by
  cases disposal with
  | idle => exact ⟨rfl,rfl⟩
  | settled => exact ⟨rfl,rfl⟩
  | _ => cases h

/-- After the calls only the orchestrator owns anything. -/
theorem Owned.held_by_orchestrator (h : Owned s) (hsettled : Settled s) {x : Nat}
    (hx : x ∈ s.handles) : x ∈ s.holds .orchestrator := by
  obtain ⟨o,ho⟩ := h.ownership.held x hx
  cases o with
  | orchestrator => exact ho
  | call i =>
    have hnone : s.holds (.call i) = [] := created_of_settled (hsettled.1 i)
    rw [hnone] at ho
    cases ho
  | disposal =>
    have hnone : s.holds .disposal = [] := (disposal_of_settled hsettled.2).1
    rw [hnone] at ho
    cases ho

private theorem Owned.clear (h : Owned s) (hsettled : Settled s)
    (hfree : s.orchestrator.handle = none) :
    Clear s := by
  have hdrivers := (disposal_of_settled hsettled.2).2
  refine ⟨?_,by simp [h.streams,hfree,hdrivers],by simp [h.listeners,hfree,hdrivers]⟩
  refine List.eq_nil_iff_forall_not_mem.mpr fun x hx => ?_
  have hheld := h.held_by_orchestrator hsettled hx
  simp [World.holds,hfree] at hheld

private theorem Owned.materialized {handle : Nat} (h : Owned s) (hb : Base s) (hsettled : Settled s)
    (hopen : s.orchestrator.disposed = false) (hhandle : s.orchestrator.handle = some handle) :
    Materialized s := by
  have hholds : s.holds .orchestrator = [handle] := by simp [World.holds,hopen,hhandle]
  have hperm : s.handles.Perm [handle] := by
    refine (List.perm_ext_iff_of_nodup hb.nodup (by simp)).mpr fun x => ?_
    rw [← hholds]
    exact ⟨h.held_by_orchestrator hsettled,h.ownership.alive _ _⟩
  have hevents := hb.events.trans hhandle
  refine ⟨hopen,handle,List.perm_singleton.mp hperm,?_,?_,?_,hb.driver.trans hhandle⟩
  · simp [Orchestrator.members,hhandle]
  · simp [Orchestrator.member,hhandle]
  · simp [Orchestrator.teamEvents,hopen,hevents]

private theorem Owned.leakFree (h : Owned s) (hb : Base s) (hsettled : Settled s) : LeakFree s := by
  refine ⟨?_,h.uninstalled⟩
  cases hhandle : s.orchestrator.handle with
  | none => exact Or.inr (h.clear hsettled hhandle)
  | some handle =>
    refine Or.inl (h.materialized hb hsettled ?_ hhandle)
    cases hdisposed : s.orchestrator.disposed with
    | false => rfl
    | true => cases (h.uninstalled hdisposed).symm.trans hhandle

private theorem Leaked.not_leakFree (h : Leaked s) : ¬LeakFree s := by
  obtain ⟨x,hx,hfree⟩ := h
  rintro ⟨⟨hopen,handle,hhandles,_,hmember,_⟩ | hclear,_⟩
  · have hinstalled : s.orchestrator.handle = some handle := by
      simpa [Orchestrator.member] using hmember
    rw [hhandles] at hx
    exact hfree .orchestrator (by simpa [World.holds,hopen,hinstalled] using hx)
  · rw [hclear.1] at hx
    cases hx

end settled

/-- Once all calls have settled, no agent has leaked exactly if no step was disturbed. -/
theorem agent_leakFree_iff (x : World × Bool) (h : Lts.Reach observed x)
    (hsettled : Settled x.1) : LeakFree x.1 ↔ x.2 = true := by
  obtain ⟨hb,howned⟩ := accounted.of_reachUnder h
  cases hclean : x.2 with
  | true =>
    rw [hclean] at howned
    exact ⟨fun _ => rfl,fun _ => Owned.leakFree howned hb hsettled⟩
  | false =>
    rw [hclean] at howned
    exact ⟨fun hgood => absurd hgood (Leaked.not_leakFree howned),fun hfalse => by cases hfalse⟩

/-- A roster that the host has validated. -/
def demoInput : MaterializeInput where
  session := "templates/t/sessions/s"
  template := "t"
  members := [{ role := "main", preset := "p" }]

/-- The world after one call has installed its agent. -/
def installed (disposed : Bool) (disposal : Disposal) : World where
  orchestrator := {
    handle := some 0
    driver := some 0
    events := some 0
    session := some demoInput.session
    disposed := disposed }
  handles := [0]
  streams := [0]
  listeners := [0]
  drivers := Function.update (fun _ => {}) 0 {}
  next := 1
  calls := [.composing demoInput { role := "main", preset := "p" },
    .creating demoInput.session ⟨"templates/t/sessions/s/main","p","glm-responses",none⟩,
    .returned].foldl (fun calls phase => Function.update calls 0 phase) fun _ => .idle
  disposal := disposal

private theorem installed_settled {disposed : Bool} {disposal : Disposal}
    (h : disposal.running = false) :
    Settled (installed disposed disposal) := by
  refine ⟨fun i => ?_,h⟩
  by_cases hi : i = 0
  · rw [hi]
    rfl
  · simp [installed,hi,Phase.running]

theorem agent_leakFree_demo : LeakFree (installed false .idle) :=
  (agent_leakFree_iff (installed false .idle,true)
    (Lts.reach_of_run (s := ({},true))
      [.materialize 0 demoInput,.composed 0 (.ok "p"),.created 0 .creates] (.init ⟨⟨none,rfl⟩,rfl⟩)
      rfl)
    (installed_settled rfl)).mpr rfl

/-- The disposal settles before the agent is created, which is then installed and stays. -/
theorem installed_after_dispose : ¬ ∀ s, Lts.Reach system s → Settled s → LeakFree s := by
  intro hall
  have hrun : Lts.Reach system (installed true .settled) :=
    Lts.reach_of_run (s := {})
      [.materialize 0 demoInput,.composed 0 (.ok "p"),.dispose,.created 0 .creates]
      (.init ⟨none,rfl⟩) rfl
  cases (hall _ hrun (installed_settled rfl)).2 rfl

end Dominion.Sts2.Orchestration
