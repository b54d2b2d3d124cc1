import Dominion.Deploy.System.Runs

/-! # Generations, services and messages of a stored environment

A command writes its target with the next generation; the reconciler writes a status over the state
and the generation it read.  `TransitionStatus` leaves a message alone that its status does not
carry. -/
namespace Dominion.Deploy

open Dominion.Framework Dominion.Deploy.Domain World

/-- The statuses that the reconciler hands to `TransitionStatus`, with the state and the generation
that it expects. -/
inductive Transition : EnvironmentState → Nat → EnvironmentStatus → Prop
  | reconciling {source : EnvironmentState} {generation : Nat} {desired : EnvironmentDesired} :
      Transition source generation { state := .reconciling, desired }
  | waiting {generation : Nat} {services : List ServiceStatus} :
      Transition .reconciling generation { state := .waitingRollout, desired := .present,
                                           observedGeneration := generation, services }
  | ready {generation : Nat} {services : List ServiceStatus} :
      Transition .waitingRollout generation { state := .ready, desired := .present,
                                              observedGeneration := generation
                                              message := "ready", services }
  | failed {generation : Nat} {message : String} {services : List ServiceStatus} :
      Transition .waitingRollout generation { state := .failed, desired := .present,
                                              observedGeneration := generation, message, services }
  | retained {generation : Nat} {message : String} {services : List ServiceStatus} :
      Transition .waitingRollout generation { state := .waitingRollout, desired := .present,
                                              message, services }
  | deleting {source : EnvironmentState} {generation : Nat} :
      Transition source generation { state := .deleting, desired := .absent }
  | exhausted {source : EnvironmentState} {generation : Nat} :
      Transition source generation { state := .failed, observedGeneration := generation
                                     message := "retry count exhausted" }

/-- The states in which the services of a rollout are known. -/
def RolloutKnown (state : EnvironmentState) : Prop :=
  state = .waitingRollout ∨ state = .ready ∨ state = .failed

/-- The transitions that carry no message. -/
def Silent (source target : EnvironmentState) : Prop :=
  target = .reconciling ∨ target = .deleting ∨ (source = .reconciling ∧ target = .waitingRollout)

namespace Transition

variable {source : EnvironmentState} {generation : Nat} {st : EnvironmentStatus}

theorem rolloutKnown (h : Transition source generation st) (hne : st.services ≠ []) :
    RolloutKnown st.state := by
  cases h with
  | waiting => exact .inl rfl
  | ready => exact .inr (.inl rfl)
  | failed => exact .inr (.inr rfl)
  | retained => exact .inl rfl
  | _ => exact absurd rfl hne

theorem observed (h : Transition source generation st) :
    st.observedGeneration = 0 ∨ st.observedGeneration = generation := by
  cases h <;> simp

theorem message (h : Transition source generation st) (hsilent : Silent source st.state) :
    st.message = "" := by
  cases h <;> simp [Silent] at hsilent ⊢

end Transition

/-- The updates that a thread may make. -/
def Writes (t : Tid) (op : Call) : Prop :=
  match t,op with
  | .api _,.updateOne _ u => ∃ ds desired, u = MongoRepository.desiredUpdate ds desired
  | .worker,.updateOne f u => ∃ n source generation st, f = ⟨n,generation,some source⟩ ∧
      Transition source generation st ∧ u = MongoRepository.statusUpdate st
  | _,_ => True

/-! ## The programs -/

section programs

variable {t : Tid} {i : Nat} {n : EnvironmentName} {env : Environment}

theorem writes_get : (MongoRepository.get n).Uses (Writes t) := by
  refine .bind (.perform (by cases t <;> trivial)) fun ans => ?_
  cases ans with
  | error err => exact trivial
  | ok found => cases found <;> exact trivial

theorem writes_enqueue {α : Type} (a : α) :
    (do enqueue n; return a : Prog α).Uses (Writes (.api i)) :=
  .bind (.perform trivial) fun _ => trivial

theorem writes_updateDesired (generation : Nat) (ds : Option DesiredState)
    (desired : EnvironmentDesired) :
    (MongoRepository.updateDesired n generation ds desired).Uses (Writes (.api i)) := by
  refine .bind (.perform ⟨ds,desired,rfl⟩) fun ans => ?_
  cases ans with
  | error err => exact trivial
  | ok matchedCount =>
    dsimp only
    split <;> exact trivial

theorem writes_create (envType : EnvironmentType) (description : String) (ds : Option DesiredState) :
    (EnvironmentCommandService.create n envType description ds).Uses (Writes (.api i)) := by
  refine .bind writes_get fun found => ?_
  cases found with
  | ok env => exact trivial
  | error err =>
    dsimp only
    split
    · cases newEnvironment n envType description ds with
      | error err => exact trivial
      | ok env =>
        refine .bind (.perform trivial) fun reserved => ?_
        cases reserved with
        | error err => exact trivial
        | ok names =>
          dsimp only
          cases env.validateEnvConflict names with
          | error err => exact trivial
          | ok _ =>
            refine .bind (.bind (.perform trivial) fun inserted => ?_) fun created => ?_
            · cases inserted with
              | error err => exact trivial
              | ok new => cases new <;> exact trivial
            · cases created with
              | error err => exact trivial
              | ok _ => exact writes_enqueue _
    · exact trivial

theorem writes_update (ds : Option DesiredState) :
    (EnvironmentCommandService.update n ds).Uses (Writes (.api i)) := by
  refine .bind writes_get fun found => ?_
  cases found with
  | error err => exact trivial
  | ok env =>
    dsimp only [EnvironmentCommandService.updateLoaded]
    split
    · exact trivial
    · cases env.setDesiredPresent ds with
      | error err => exact trivial
      | ok updated =>
        refine .bind (.perform trivial) fun reserved => ?_
        cases reserved with
        | error err => exact trivial
        | ok names =>
          dsimp only
          cases updated.validateEnvConflict names with
          | error err => exact trivial
          | ok _ =>
            refine .bind (writes_updateDesired _ _ _) fun written => ?_
            cases written with
            | error err => exact trivial
            | ok _ => exact writes_enqueue _

theorem writes_delete : (EnvironmentCommandService.delete n).Uses (Writes (.api i)) := by
  refine .bind writes_get fun found => ?_
  cases found with
  | error err => exact trivial
  | ok env =>
    refine .bind (writes_updateDesired _ _ _) fun written => ?_
    cases written with
    | error err => exact trivial
    | ok _ => exact writes_enqueue _

theorem writes_transition {source : EnvironmentState} {generation : Nat} {st : EnvironmentStatus}
    (h : Transition source generation st) (result : ProcessResult) :
    (ReconcileService.transition n generation source st result).Uses (Writes .worker) := by
  refine .bind (.bind (.perform ⟨n,source,generation,st,rfl,h,rfl⟩) fun ans => ?_) fun written => ?_
  · cases ans with
    | error err => exact trivial
    | ok matchedCount =>
      dsimp only
      split
      · refine .bind (.perform trivial) fun found => ?_
        cases found with
        | error err => exact trivial
        | ok doc =>
          cases doc with
          | none => exact trivial
          | some doc =>
            dsimp only
            split <;> exact trivial
      · exact trivial
  · cases written with
    | error err =>
      dsimp only
      split <;> exact trivial
    | ok _ => exact trivial

theorem writes_checkRollout (env : Environment) :
    (ReconcileService.checkRollout env).Uses (Writes .worker) := by
  refine .bind (.perform trivial) fun ans => ?_
  cases ans with
  | error err => exact trivial
  | ok status =>
    dsimp only
    split
    · exact writes_transition .ready _
    · exact writes_transition .failed _
    · dsimp only [ReconcileService.retainWaitingRollout]
      split
      · exact trivial
      · exact writes_transition .retained _

theorem writes_processPresent (env : Environment) :
    (ReconcileService.processPresent env).Uses (Writes .worker) := by
  unfold ReconcileService.processPresent
  split
  · exact writes_transition .reconciling _
  · split
    · exact trivial
    · exact writes_transition .reconciling _
  · exact writes_transition .reconciling _
  · refine .bind (.perform trivial) fun ans => ?_
    cases ans with
    | error err =>
      dsimp only
      split <;> exact trivial
    | ok _ => exact writes_transition .waiting _
  · exact writes_checkRollout env
  · exact trivial

theorem writes_processAbsent (env : Environment) :
    (ReconcileService.processAbsent env).Uses (Writes .worker) := by
  unfold ReconcileService.processAbsent
  split
  · exact writes_transition .deleting _
  · refine .bind (.perform trivial) fun ans => ?_
    cases ans with
    | error err =>
      dsimp only
      split <;> exact trivial
    | ok _ =>
      refine .bind (.bind (.perform trivial) fun deleted => ?_) fun removed => ?_
      · cases deleted with
        | error err => exact trivial
        | ok count =>
          dsimp only
          split <;> exact trivial
      · cases removed <;> exact trivial

theorem writes_processOne : (ReconcileService.processOne n).Uses (Writes .worker) := by
  refine .bind writes_get fun found => ?_
  cases found with
  | error err =>
    dsimp only
    split <;> exact trivial
  | ok env =>
    dsimp only
    split
    · exact writes_processPresent env
    · exact writes_processAbsent env
    · exact trivial

theorem writes_markRetryExhausted :
    (ReconcileService.markRetryExhausted n).Uses (Writes .worker) := by
  refine .bind writes_get fun found => ?_
  cases found with
  | error err =>
    dsimp only
    split <;> exact trivial
  | ok env => exact writes_transition .exhausted _

theorem writes_maybeRequeue (item : WorkItem) (result : Option ProcessResult) :
    (Worker.maybeRequeue item result).Uses (Writes .worker) := by
  cases result with
  | none => exact trivial
  | some result =>
    dsimp only [Worker.maybeRequeue]
    split
    · exact trivial
    · split
      · exact .perform trivial
      · exact trivial

theorem writes_process (maxRetries : Nat) (item : WorkItem) :
    (Worker.process maxRetries item).Uses (Writes .worker) := by
  refine .bind writes_processOne fun processed => .bind (.perform trivial) fun _ => ?_
  cases processed with
  | ok result => exact .bind (writes_maybeRequeue item _) fun _ => trivial
  | error err =>
    dsimp only
    split
    · split
      · refine .bind (.bind writes_markRetryExhausted fun exhausted => ?_) fun _ => trivial
        exact .bind (writes_maybeRequeue item _) fun _ => trivial
      · exact .bind (.perform trivial) fun _ => trivial
    · exact trivial

/-- Every update of a command is of the target, and every update of the worker is a transition. -/
theorem writes_program (maxRetries : Nat) (t : Tid) (request : Request) (c : Prog Reply)
    (h : program maxRetries t request = some c) : c.Uses (Writes t) := by
  cases t with
  | api i =>
    cases request with
    | create n envType description ds =>
      cases h
      exact .bind (writes_create _ _ _) fun _ => trivial
    | update n ds =>
      cases h
      exact .bind (writes_update _) fun _ => trivial
    | delete n =>
      cases h
      exact .bind writes_delete fun _ => trivial
    | iterate => cases h
  | worker =>
    cases request with
    | iterate =>
      cases h
      refine .bind (.bind (.perform trivial) fun envName => .bind (.perform trivial) fun found => ?_)
        fun _ => trivial
      cases found with
      | none => exact trivial
      | some item => exact .bind (writes_process maxRetries item) fun _ => trivial
    | _ => cases h

end programs

/-! ## Steps of a stored environment -/

/-- The write is one of a command, and it matches the document of `n`. -/
def World.accepts (n : EnvironmentName) (w : World) (t : Tid) (op : Call) : Bool :=
  match t,op with
  | .api _,.updateOne f _ => decide (f.name = n) && (w.matched f).isSome
  | _,_ => false

namespace Service

variable {maxRetries : Nat} {s s' : Service} {l : Label} {n : EnvironmentName} {d d' : Stored}

/-- The step is the write of an accepted `Update` or `Delete` of `n`. -/
def accepts (n : EnvironmentName) (s : Service) (l : Label) : Bool :=
  s.makes (World.accepts n) l

/-- The step is a `TransitionStatus` of `n` to `st` that takes effect. -/
def Transits (s : Service) (l : Label) (n : EnvironmentName) (st : EnvironmentStatus) : Prop :=
  ∃ c f, l = .call .worker c ∧ c.takesEffect = true ∧
    s.next .worker = some (.updateOne f (MongoRepository.statusUpdate st)) ∧
    (s.world.matched f).isSome ∧ f.name = n

/-- What a step does to the document of a name that is stored before and after it. -/
inductive DocStep (s : Service) (l : Label) (n : EnvironmentName) (d : Stored) : Stored → Prop
  | same (haccepts : s.accepts n l = false) (htransits : ∀ st, ¬s.Transits l n st) :
      DocStep s l n d d
  | command {ds : Option DesiredState} {desired : EnvironmentDesired}
      (haccepts : s.accepts n l = true) (htransits : ∀ st, ¬s.Transits l n st) :
      DocStep s l n d ⟨d.id,(MongoRepository.desiredUpdate ds desired).apply d.doc⟩
  | status {st : EnvironmentStatus} (haccepts : s.accepts n l = false)
      (htransits : s.Transits l n st)
      (hstep : Transition d.doc.status.state d.doc.generation st) :
      DocStep s l n d ⟨d.id,(MongoRepository.statusUpdate st).apply d.doc⟩

theorem not_transits_of_world (h : ∀ c, l ≠ .call .worker c) (st : EnvironmentStatus) :
    ¬s.Transits l n st := by
  rintro ⟨c,f,hl,-⟩
  exact h c hl

/-- A call that leaves the documents alone matches no update that takes effect. -/
theorem quiet_of_updateOne {t : Tid} {c : Choice} {f : Filter} {u : Update}
    (hnext : s.next t = some (.updateOne f u))
    (h : c.takesEffect = false ∨ s.world.matched f = none ∨ f.name ≠ n) :
    s.accepts n (.call t c) = false ∧ ∀ st, ¬s.Transits (.call t c) n st := by
  constructor
  · cases t with
    | worker => simp [accepts,makes,hnext,World.accepts]
    | api i =>
      rcases h with h | h | h <;> simp [accepts,makes,hnext,World.accepts,h]
  · rintro st ⟨c',f',hl,heffect,hnext',hmatched,hname⟩
    cases hl
    cases hnext.symm.trans hnext'
    rcases h with h | h | h
    · rw [h] at heffect
      cases heffect
    · rw [h] at hmatched
      cases hmatched
    · exact h hname

theorem quiet_of_next {t : Tid} {c : Choice} {op : Call} (hnext : s.next t = some op)
    (h : ∀ f u, op ≠ .updateOne f u) :
    s.accepts n (.call t c) = false ∧ ∀ st, ¬s.Transits (.call t c) n st := by
  constructor
  · cases t with
    | worker => simp [accepts,makes,hnext,World.accepts]
    | api i =>
      cases op with
      | updateOne f u => exact absurd rfl (h f u)
      | _ => simp [accepts,makes,hnext,World.accepts]
  · rintro st ⟨c',f',hl,-,hnext',-⟩
    cases hl
    exact h _ _ (Option.some.inj (hnext.symm.trans hnext'))

theorem docs_of_effect {t : Tid} {op : Call} {w w' : World} (h : Effect w t op w')
    (hop : ∀ f u, op ≠ .updateOne f u) (hd : w.docs n = some d) (hd' : w'.docs n = some d') :
    d' = d := by
  cases h with
  | insert hfree =>
    rename_i doc
    have hne : n ≠ doc.name := by
      rintro rfl
      rw [hfree] at hd
      cases hd
    simp only [World.insert,Function.update_of_ne hne,hd] at hd'
    exact (Option.some.inj hd').symm
  | write hmatched => exact absurd rfl (hop _ _)
  | remove hgone =>
    rename_i m _
    by_cases hn : n = m
    · simp only [World.remove,hn,Function.update_self,reduceCtorEq] at hd'
    · simp only [World.remove,Function.update_of_ne hn,hd] at hd'
      exact (Option.some.inj hd').symm
  | _ => exact Option.some.inj (hd'.symm.trans hd)

theorem doc_step (h : (system maxRetries).Reach s) (hstep : (system maxRetries).step s l = some s')
    (hd : s.world.docs n = some d) (hd' : s'.world.docs n = some d') : DocStep s l n d d' := by
  rcases step_cases h hstep with
    ⟨hl,hsame⟩ | ⟨t,c,op,a,rfl,hnext,hc,hexec⟩ | ⟨e,rfl,htick⟩
  · rw [hsame,hd] at hd'
    cases hd'
    rcases hl with ⟨t,r,rfl⟩ | ⟨t,rfl⟩
    · exact .same rfl (not_transits_of_world fun c hc => by cases hc)
    · exact .same rfl (not_transits_of_world fun c hc => by cases hc)
  · by_cases hop : ∃ f u, op = .updateOne f u
    · obtain ⟨f,u,rfl⟩ := hop
      have hwrites := Pool.uses_next (writes_program maxRetries) h hnext
      cases hmatched : s.world.matched f with
      | none =>
        have hsame : s'.world = s.world := by
          rcases updateOne_cases hexec with ⟨e,he,-⟩ | ⟨hsame,-⟩
          · rw [hmatched] at he
            cases he
          · exact hsame
        rw [hsame,hd] at hd'
        cases hd'
        obtain ⟨haccepts,htransits⟩ := quiet_of_updateOne (n := n) (c := c) hnext (.inr (.inl hmatched))
        exact .same haccepts htransits
      | some e =>
        obtain ⟨hdocs,hname,hgen,hstate⟩ := matched_some hmatched
        have hw := exec_takesEffect hmatched hexec
        cases heffect : c.takesEffect with
        | false =>
          rw [heffect,if_neg Bool.false_ne_true] at hw
          rw [hw,hd] at hd'
          cases hd'
          obtain ⟨haccepts,htransits⟩ := quiet_of_updateOne (n := n) hnext (.inl heffect)
          exact .same haccepts htransits
        | true =>
          rw [heffect,if_pos rfl] at hw
          rw [hw,(write_frame _ _ _).1,hname] at hd'
          by_cases hn : n = f.name
          · subst n
            rw [hdocs] at hd
            cases hd
            rw [Function.update_self] at hd'
            cases hd'
            cases t with
            | api i =>
              obtain ⟨ds,desired,rfl⟩ := hwrites
              refine .command ?_ (not_transits_of_world fun c hc => by cases hc)
              simp [accepts,makes,hnext,World.accepts,heffect,hmatched]
            | worker =>
              obtain ⟨m,source,generation,st,rfl,htransition,rfl⟩ := hwrites
              have hsource := hstate source rfl
              refine .status ?_ ⟨c,_,rfl,heffect,hnext,by rw [hmatched]; rfl,rfl⟩ ?_
              · simp [accepts,makes,hnext,World.accepts]
              · rw [hsource,hgen]
                exact htransition
          · rw [Function.update_of_ne hn,hd] at hd'
            cases hd'
            obtain ⟨haccepts,htransits⟩ :=
              quiet_of_updateOne (n := n) (c := c) hnext (.inr (.inr (Ne.symm hn)))
            exact .same haccepts htransits
    · have hother : ∀ f u, op ≠ .updateOne f u := fun f u he => hop ⟨f,u,he⟩
      cases docs_of_effect (exec_effect hexec) hother hd hd'
      obtain ⟨haccepts,htransits⟩ := quiet_of_next (n := n) (c := c) hnext hother
      exact .same haccepts htransits
  · obtain ⟨q,timers,hw⟩ := tick_frame htick
    rw [hw] at hd'
    cases hd.symm.trans hd'
    exact .same rfl (not_transits_of_world fun c hc => by cases hc)

/-- A name without a document gets a fresh one. -/
theorem fresh_of_effect {t : Tid} {op : Call} {w w' : World} (h : Effect w t op w')
    (hc : contract t op w) (hd : w.docs n = none) (hd' : w'.docs n = some d') : Fresh d'.doc := by
  cases h with
  | insert hfree =>
    rename_i doc
    by_cases hn : n = doc.name
    · subst n
      simp only [World.insert,Function.update_self,Option.some.injEq] at hd'
      cases hd'
      cases t with
      | api i => exact hc
      | worker => exact hc.elim
    · simp only [World.insert,Function.update_of_ne hn,hd,reduceCtorEq] at hd'
  | write hmatched =>
    rename_i f u e
    obtain ⟨hdocs,hname,-⟩ := matched_some hmatched
    rw [(write_frame _ _ _).1] at hd'
    by_cases hn : n = e.doc.name
    · rw [hn,hname,hdocs] at hd
      cases hd
    · rw [Function.update_of_ne hn,hd] at hd'
      cases hd'
  | remove hgone =>
    rename_i m _
    by_cases hn : n = m
    · simp only [World.remove,hn,Function.update_self,reduceCtorEq] at hd'
    · simp only [World.remove,Function.update_of_ne hn,hd,reduceCtorEq] at hd'
  | _ => cases hd.symm.trans hd'

theorem fresh_of_step (h : (system maxRetries).Reach s)
    (hstep : (system maxRetries).step s l = some s') (hd : s.world.docs n = none)
    (hd' : s'.world.docs n = some d') : Fresh d'.doc := by
  rcases step_cases h hstep with ⟨-,hsame⟩ | ⟨t,c,op,a,-,-,hc,hexec⟩ | ⟨e,-,htick⟩
  · rw [hsame,hd] at hd'
    cases hd'
  · exact fresh_of_effect (exec_effect hexec) hc hd hd'
  · obtain ⟨q,timers,hw⟩ := tick_frame htick
    rw [hw] at hd'
    cases hd.symm.trans hd'

/-! ## The books of an incarnation -/

/-- The accepted commands of each stored incarnation. -/
abbrev Accepted := EnvironmentName → Nat

def countAccepted (s : Service) (l : Label) (_ : Service) (accepted : Accepted) : Accepted :=
  fun n =>
    if (s.world.docs n).isNone then 0
    else accepted n + if s.accepts n l then 1 else 0

/-- The service beside the number of commands accepted for each incarnation. -/
def counted (maxRetries : Nat) : Lts (Service × Accepted) Label :=
  (system maxRetries).journaled countAccepted fun _ => 0

/-- Its generation counts the accepted commands, and its services are those of a rollout. -/
structure Booked (accepted : Nat) (doc : MongoEnvironment) : Prop where
  generation : doc.generation = 1 + accepted
  services : doc.status.services ≠ [] → RolloutKnown doc.status.state

theorem booked_fresh {doc : MongoEnvironment} (h : Fresh doc) : Booked 0 doc where
  generation := h.generation
  services hne := by
    rw [h.status] at hne
    exact absurd rfl hne

theorem booked_step {accepted : Nat} (h : Booked accepted d.doc) (hstep : DocStep s l n d d') :
    Booked (accepted + if s.accepts n l then 1 else 0) d'.doc := by
  cases hstep with
  | same haccepts _ =>
    rw [haccepts]
    exact h
  | command haccepts _ =>
    rw [haccepts]
    refine ⟨?_,h.services⟩
    have hgen := h.generation
    simp only [Update.apply,MongoRepository.desiredUpdate,if_true]
    omega
  | status haccepts _ htransition =>
    rw [haccepts]
    refine ⟨h.generation,fun hne => ?_⟩
    simp only [Update.apply,MongoRepository.statusUpdate,Option.getD_some] at hne ⊢
    exact htransition.rolloutKnown hne

theorem booked_inductive (maxRetries : Nat) : Lts.Inductive (counted maxRetries)
    (fun _ _ => True) fun x => (system maxRetries).Reach x.1 ∧
      ∀ n d, x.1.world.docs n = some d → Booked (x.2 n) d.doc where
  init x hx := by
    refine ⟨.init hx.1,fun n d hd => ?_⟩
    rw [hx.1.1] at hd
    cases hd
  step x l x' h _ hs := by
    obtain ⟨hstep,haccepted⟩ := Lts.journaled_step.mp hs
    refine ⟨.step h.1 trivial hstep,fun n d' hd' => ?_⟩
    rw [haccepted,countAccepted]
    cases hd : x.1.world.docs n with
    | none =>
      rw [Option.isNone_none,if_pos rfl]
      exact booked_fresh (fresh_of_step h.1 hstep hd hd')
    | some d =>
      rw [if_neg (by simp)]
      exact booked_step (h.2 n d hd) (doc_step h.1 hstep hd hd')

theorem observed_step (hle : d.doc.status.observedGeneration ≤ d.doc.generation)
    (hstep : DocStep s l n d d') :
    d.doc.status.observedGeneration ≤ d'.doc.status.observedGeneration := by
  cases hstep with
  | same => exact Nat.le_refl _
  | command => exact Nat.le_refl _
  | status _ _ htransition =>
    simp only [Update.apply,MongoRepository.statusUpdate]
    split
    · exact Nat.le_refl _
    · rename_i hne
      have hobserved := htransition.observed.resolve_left hne
      rw [Option.getD_some,hobserved]
      exact hle

theorem generation_step (hstep : DocStep s l n d d') :
    d'.doc.generation = d.doc.generation + if s.accepts n l then 1 else 0 := by
  cases hstep with
  | same haccepts _ => rw [haccepts]; rfl
  | command haccepts _ => rw [haccepts]; rfl
  | status haccepts _ _ => rw [haccepts]; rfl

theorem message_of_statusUpdate {st st' : EnvironmentStatus}
    (h : MongoRepository.statusUpdate st = MongoRepository.statusUpdate st') :
    st.state = st'.state ∧ st.message = st'.message := by
  have hstate := congrArg Update.state h
  have hmessage := congrArg Update.message h
  simp only [MongoRepository.statusUpdate,Option.some.injEq] at hstate hmessage
  refine ⟨hstate,?_⟩
  by_cases hm : st.message = "" <;> by_cases hm' : st'.message = "" <;> simp [hm,hm'] at hmessage ⊢
  exact hmessage

theorem transits_unique {st st' : EnvironmentStatus} (h : s.Transits l n st)
    (h' : s.Transits l n st') : MongoRepository.statusUpdate st = MongoRepository.statusUpdate st' := by
  obtain ⟨c,f,-,-,hnext,-⟩ := h
  obtain ⟨c',f',-,-,hnext',-⟩ := h'
  exact (Call.updateOne.inj (Option.some.inj (hnext.symm.trans hnext'))).2

/-- A transition stores the message it carries; without one the stored message stays, as it does
through every other step. -/
theorem message_step (hstep : DocStep s l n d d') :
    (∀ st, s.Transits l n st →
      d'.doc.status.message = (if st.message = "" then d.doc.status.message else st.message) ∧
      (Silent d.doc.status.state st.state → st.message = "")) ∧
    ((∀ st, ¬s.Transits l n st) → d'.doc.status.message = d.doc.status.message) := by
  cases hstep with
  | same _ htransits => exact ⟨fun st hst => absurd hst (htransits st),fun _ => rfl⟩
  | command _ htransits => exact ⟨fun st hst => absurd hst (htransits st),fun _ => rfl⟩
  | @status st' _ htransits htransition =>
    refine ⟨fun st hst => ?_,fun hnone => absurd htransits (hnone st')⟩
    obtain ⟨hstate,hmessage⟩ := message_of_statusUpdate (transits_unique hst htransits)
    rw [hstate,hmessage]
    refine ⟨?_,htransition.message⟩
    simp only [Update.apply,MongoRepository.statusUpdate]
    split <;> rfl

/-- The generation counts the accepted commands of the incarnation and is never behind what was
observed, which never goes back; services are stored in the states of a rollout only; a transition
stores the message it carries, and one without a message keeps the stored one. -/
theorem status_bookkeeping {x : Service × Accepted} (h : (counted maxRetries).Reach x)
    (hd : x.1.world.docs n = some d) :
    d.doc.generation = 1 + x.2 n ∧
    d.doc.status.observedGeneration ≤ d.doc.generation ∧
    (d.doc.status.services ≠ [] → RolloutKnown d.doc.status.state) ∧
    ∀ l s' d', (system maxRetries).step x.1 l = some s' → s'.world.docs n = some d' →
      d'.doc.generation = d.doc.generation + (if x.1.accepts n l then 1 else 0) ∧
      d.doc.status.observedGeneration ≤ d'.doc.status.observedGeneration ∧
      (∀ st, x.1.Transits l n st →
        d'.doc.status.message = (if st.message = "" then d.doc.status.message else st.message) ∧
        (Silent d.doc.status.state st.state → st.message = "")) ∧
      ((∀ st, ¬x.1.Transits l n st) → d'.doc.status.message = d.doc.status.message) := by
  obtain ⟨hreach,hbooked⟩ := (booked_inductive maxRetries).of_reachUnder h
  have hb := hbooked n d hd
  have hobserved := ((inv_of_reach hreach).docs n d hd).observed
  refine ⟨hb.generation,hobserved,hb.services,fun l s' d' hstep hd' => ?_⟩
  have hdoc := doc_step hreach hstep hd hd'
  exact ⟨generation_step hdoc,observed_step hobserved hdoc,message_step hdoc⟩

/-- An environment becomes Ready and is updated; the worker is about to write Reconciling. -/
def redeployLabels : List Label :=
  createLabels 0 demoName demoEmpty ++ iterateLabels demoName (List.replicate 4 .done) ++
    iterateLabels demoName (List.replicate 5 .done) ++ [.tick (.fire ⟨demoName,0,.poll⟩)] ++
    iterateLabels demoName [.done,.rollout ⟨.ready,"",[]⟩,.done,.done] ++
    updateLabels 1 demoName demoCache ++ iterateLabels demoName [.done]

theorem status_bookkeeping_redeploy : ∃ x d, (counted Worker.defaultMaxRetries).Reach x ∧
    x.1.world.docs demoName = some d ∧ d.doc.generation = 2 ∧
    d.doc.status.observedGeneration ≤ 2 := by
  have hinit : (counted Worker.defaultMaxRetries).Reach (initial,fun _ => 0) :=
    .init ⟨⟨rfl,rfl⟩,rfl⟩
  obtain ⟨x,hx,hp⟩ := Lts.reach_of_run_any (M := counted Worker.defaultMaxRetries)
    (p := fun x : Service × Accepted =>
      decide (x.2 demoName = 1) && (x.1.world.docs demoName).isSome)
    redeployLabels hinit (by decide)
  obtain ⟨haccepted,hsome⟩ := Bool.and_eq_true_iff.mp hp
  obtain ⟨d,hd⟩ := Option.isSome_iff_exists.mp hsome
  obtain ⟨hgen,hobserved,-⟩ := status_bookkeeping hx hd
  rw [of_decide_eq_true haccepted] at hgen
  exact ⟨x,d,hx,hd,hgen,Nat.le_trans hobserved (Nat.le_of_eq hgen)⟩

/-- A status write without a message over a document that has one. -/
def keepsMessage (w : World) (_ : Tid) (op : Call) : Bool :=
  match op with
  | .updateOne f u => decide (u.message = none) &&
      (w.matched f).any fun d => decide (d.doc.status.message ≠ "")
  | _ => false

theorem keepsMessage_cases {w : World} {t : Tid} {op : Call} (h : keepsMessage w t op = true) :
    ∃ f u d, op = .updateOne f u ∧ u.message = none ∧ w.matched f = some d ∧
      d.doc.status.message ≠ "" := by
  cases op with
  | updateOne f u =>
    simp only [keepsMessage,Bool.and_eq_true,decide_eq_true_eq,Option.any_eq_true] at h
    obtain ⟨hu,d,hd,hne⟩ := h
    exact ⟨f,u,d,rfl,hu,hd,hne⟩
  | _ => cases h

/-- The message of the Ready state stays through the transition to Reconciling. -/
theorem ready_message_survives : ¬∀ s l s' n d d' st, (system Worker.defaultMaxRetries).Reach s →
    (system Worker.defaultMaxRetries).step s l = some s' → s.world.docs n = some d →
    s'.world.docs n = some d' → s.Transits l n st → d'.doc.status.message = st.message := by
  intro h
  obtain ⟨s,hs,hp⟩ := Lts.reach_of_run_any (M := system Worker.defaultMaxRetries)
    (p := fun s => s.makes keepsMessage (.call .worker .done) &&
      ((system Worker.defaultMaxRetries).step s (.call .worker .done)).isSome)
    redeployLabels initial_reach (by decide)
  obtain ⟨hmakes,hsome⟩ := Bool.and_eq_true_iff.mp hp
  obtain ⟨s',hs'⟩ := Option.isSome_iff_exists.mp hsome
  have hany : (s.next .worker).any (keepsMessage s.world .worker) = true := hmakes
  obtain ⟨op,hnext,hkeeps⟩ := (Option.any_eq_true _ _).mp hany
  obtain ⟨f,u,d,rfl,hu,hmatched,hne⟩ := keepsMessage_cases hkeeps
  obtain ⟨n,source,generation,st,rfl,-,rfl⟩ := Pool.uses_next (writes_program _) hs hnext
  obtain ⟨hd,-⟩ := matched_some hmatched
  have htransits : s.Transits (.call .worker .done) n st :=
    ⟨.done,_,rfl,rfl,hnext,by rw [hmatched]; rfl,rfl⟩
  have hsilent : st.message = "" := by
    by_contra hmessage
    simp [MongoRepository.statusUpdate,hmessage] at hu
  have hd' : ∃ d', s'.world.docs n = some d' := by
    rcases step_cases hs hs' with ⟨⟨t,r,hl⟩ | ⟨t,hl⟩,-⟩ | ⟨t,c,op,a,hl,hnext',-,hexec⟩ | ⟨e,hl,-⟩
    · cases hl
    · cases hl
    · cases hl
      cases hnext.symm.trans hnext'
      have hw := exec_takesEffect hmatched hexec
      rw [Choice.takesEffect,if_pos rfl] at hw
      obtain ⟨-,hname,-⟩ := matched_some hmatched
      exact ⟨_,by rw [hw,(write_frame _ _ _).1,hname,Function.update_self]⟩
    · cases hl
  obtain ⟨d',hd'⟩ := hd'
  have hkept := ((message_step (doc_step hs hs' hd hd')).1 st htransits).1
  rw [h s _ s' n d d' st hs hs' hd hd' htransits,hsilent,if_pos rfl] at hkept
  exact hne hkept.symm

end Service

end Dominion.Deploy
