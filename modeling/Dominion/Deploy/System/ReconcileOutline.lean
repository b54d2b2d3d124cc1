import Dominion.Deploy.System.WorkerOutline

/-! # Outlines of the reconcile steps and of the worker's loop -/
namespace Dominion.Deploy

open Dominion.Framework Dominion.Deploy.Domain World

variable {env : Environment} {n name : EnvironmentName} {st : EnvironmentStatus} {w : World}
  {d : Stored} {P : World → Prop}

private theorem docs_write_self (hname : d.doc.name = n) (u : Update) :
    (w.write d u).docs n = some ⟨d.id,u.apply d.doc⟩ := by
  rw [(write_frame w d u).1,hname,Function.update_self]

private theorem settled_write (hname : d.doc.name = n)
    (hdesired : d.doc.status.desired = .present) (hstate : st.state = .ready ∨ st.state = .failed)
    (hobs : st.observedGeneration = d.doc.generation)
    (hle : d.doc.status.observedGeneration ≤ d.doc.generation) :
    Settled (w.write d (MongoRepository.statusUpdate st)) n := by
  intro d' hd'
  rw [docs_write_self hname] at hd'
  cases hd'
  refine ⟨hdesired,?_,hstate⟩
  simp only [Update.apply,MongoRepository.statusUpdate,hobs]
  split
  · simp only [Option.getD_none,Bool.false_eq_true,if_false]
    omega
  · rfl

private theorem coming_write (h : w.Coming n) :
    Coming (w.write d (MongoRepository.statusUpdate st)) n := by
  obtain ⟨-,-,-,-,-,hqueue,htimers⟩ := write_frame w d (MongoRepository.statusUpdate st)
  unfold Coming
  rw [hqueue,htimers]
  exact h

/-- Ready or Failed written at the generation of a Present environment settles it. -/
private theorem covered_conclude (hi : w.Inv) (hd : w.docs env.name = some d)
    (hload : w.Loaded env) (hgen : d.doc.generation = env.generation)
    (hdesired : env.status.desired = .present) (hstate : st.state = .ready ∨ st.state = .failed)
    (hobs : st.observedGeneration = env.generation) :
    Covered (w.write d (MongoRepository.statusUpdate st)) env.name := by
  obtain ⟨r,d',-,hsnap,hd',hdesc,-⟩ := hload.stored hi
  rw [hd] at hd'
  cases hd'
  have hok := hi.docs _ d hd
  left
  refine settled_write hok.name ?_ hstate (hobs.trans hgen.symm) hok.observed
  rw [(hdesc.unwritten (hgen.trans hsnap.generation.symm)).2.1,hsnap.status]
  exact hdesired

private theorem covered_exhaust (hi : w.Inv) (hd : w.docs env.name = some d)
    (hload : w.Loaded env) (hgen : d.doc.generation = env.generation)
    (hstate : d.doc.status.state = env.status.state) (hto : st.state = .failed)
    (hobs : st.observedGeneration = env.generation)
    (h : ((env.status.state = .reconciling ∨ env.status.state = .waitingRollout) ∧
      (env.status.desired = .present ∨ w.Coming env.name)) ∨ env.status.state = .deleting) :
    Covered (w.write d (MongoRepository.statusUpdate st)) env.name := by
  rcases h with ⟨-,hdesired | hcoming⟩ | hdeleting
  · exact covered_conclude hi hd hload hgen hdesired (Or.inr hto) hobs
  · exact Or.inr (Or.inl (coming_write hcoming))
  · right
    right
    have hname := (hi.docs _ d hd).name
    rw [hdeleting] at hstate
    simp [World.write,MongoRepository.statusUpdate,Update.apply,hname,hstate,hto]

/-- The Ready environment whose generation is observed is settled or has work coming. -/
private theorem covered_ready (hi : w.Inv) (hload : w.Loaded env)
    (hdesired : env.status.desired = .present) (hready : env.status.state = .ready)
    (hobs : env.status.observedGeneration = env.generation) : w.Covered env.name := by
  obtain ⟨r,d,-,hsnap,hd,hdesc,hstate⟩ := hload.stored hi
  rcases hload.changed d hd with hgen | hcoming
  · left
    intro e he
    rw [hd] at he
    cases he
    refine ⟨?_,?_,Or.inl (hstate.trans hready)⟩
    · rw [(hdesc.unwritten (hgen.trans hsnap.generation.symm)).2.1,hsnap.status]
      exact hdesired
    · rw [(hload.state d hd).2,hobs,hgen]
  · exact Or.inr (Or.inl hcoming)

section

variable (hdesired : env.status.desired = .present)
include hdesired

private theorem sat_transitionToReconciling
    (hstate : env.status.state = .pending ∨ env.status.state = .ready ∨
      env.status.state = .failed) :
    protocol.Sat .worker (ReconcileService.transitionToReconciling env) (fun w => w.Loaded env)
      (ResultPost env.name) := by
  refine sat_transition rfl loaded_stable (fun w _ h => ⟨h,?_⟩) (fun _ => Or.inl rfl) ?_
  · exact .reconcile hdesired hstate rfl rfl
  · intro ht
    cases ht

private theorem sat_failed_apply (err : Err) (hP : protocol.Stable .worker P)
    (hload : ∀ w, P w → w.Loaded env)
    (hstate : env.status.state = .reconciling ∨ env.status.state = .waitingRollout) :
    protocol.Sat .worker (.pure (.error err)) P (ResultPost env.name) :=
  .pure hP fun w hi h _ => exhaustible_of_loaded (hload w h) hi (Or.inl ⟨hstate,hdesired⟩)

private theorem sat_applyAndWait (hstate : env.status.state = .reconciling) :
    protocol.Sat .worker (ReconcileService.applyAndWait env) (fun w => w.Loaded env)
      (ResultPost env.name) := by
  have happlied : protocol.Stable .worker fun w =>
      w.applied env.name = some env.desiredState := by
    intro w w' _ h hrely
    rw [(others_of_rely hrely).applied]
    exact h
  let R : Except Err Unit → World → Prop := fun ans w => w.Loaded env ∧
    (ans = .ok () → w.applied env.name = some env.desiredState)
  have hR : ∀ ans, protocol.Stable .worker (R ans) :=
    fun ans => loaded_stable.and (happlied.imp _)
  refine Protocol.Sat.bind (Q := R) (.perform loaded_stable hR (fun w _ h => ⟨h,hdesired,hstate⟩) ?_) ?_
  · intro c ans w w' hi h hexec
    rcases runtime_cases hexec with ⟨-,rfl⟩ | ⟨err,rfl,rfl⟩
    · refine ⟨⟨h.read,h.state,h.changed⟩,fun _ => ?_⟩
      simp only [Function.update_self]
    · exact ⟨h,fun herr => nomatch herr⟩
  · intro ans
    cases ans with
    | error err =>
      dsimp only
      split <;> exact sat_failed_apply hdesired _ (hR (.error err)) (fun w h => h.1) (Or.inl hstate)
    | ok _ =>
      refine sat_transition hstate (hR (.ok ())) (fun w _ h => ⟨h.1,?_⟩) (fun _ => Or.inl rfl) ?_
      · exact .await hdesired hstate (h.2 rfl) rfl rfl
      · intro ht
        cases ht

private theorem sat_conclude {result : ProcessResult} (hstate : env.status.state = .waitingRollout)
    (hto : st.state = .ready ∨ st.state = .failed) (hobs : st.observedGeneration = env.generation)
    (hresult : result.terminal = true) :
    protocol.Sat .worker
      (ReconcileService.transition env.name env.generation .waitingRollout st result)
      (fun w => w.Loaded env) (ResultPost env.name) := by
  refine sat_transition hstate loaded_stable (fun w _ h => ⟨h,.conclude hdesired hstate hto hobs⟩)
    ?_ ?_
  · intro ht
    rw [hresult] at ht
    cases ht
  · intro _ w d hi h hd hgen _
    exact covered_conclude hi hd h hgen hdesired hto hobs

private theorem sat_retain {status : RolloutStatus} (hstate : env.status.state = .waitingRollout) :
    protocol.Sat .worker (ReconcileService.retainWaitingRollout env status)
      (fun w => w.Loaded env) (ResultPost env.name) := by
  unfold ReconcileService.retainWaitingRollout
  split
  · exact sat_continue loaded_stable rfl (Or.inr (by decide))
  · refine sat_transition hstate loaded_stable (fun w _ h => ⟨h,?_⟩)
      (fun _ => Or.inr (by decide)) ?_
    · exact .retain hdesired hstate rfl rfl
    · intro ht
      cases ht

private theorem sat_checkRollout (hstate : env.status.state = .waitingRollout) :
    protocol.Sat .worker (ReconcileService.checkRollout env) (fun w => w.Loaded env)
      (ResultPost env.name) := by
  refine Protocol.Sat.bind (Q := fun _ w => w.Loaded env)
    (.perform loaded_stable (fun _ => loaded_stable) (fun _ _ _ => trivial) ?_) ?_
  · intro c ans w w' _ h hexec
    have heffect : Effect w .worker (.checkRollout env) w' := exec_effect hexec
    cases heffect
    exact h
  · intro ans
    cases ans with
    | error err =>
      exact sat_failed_apply hdesired err loaded_stable (fun w h => h) (Or.inr hstate)
    | ok status =>
      dsimp only
      split
      · exact sat_conclude hdesired hstate (Or.inl rfl) rfl rfl
      · exact sat_conclude hdesired hstate (Or.inr rfl) rfl rfl
      · exact sat_retain hdesired hstate

private theorem sat_processPresent :
    protocol.Sat .worker (ReconcileService.processPresent env) (fun w => w.Loaded env)
      (ResultPost env.name) := by
  unfold ReconcileService.processPresent
  split
  · rename_i hstate
    exact sat_transitionToReconciling hdesired (Or.inl hstate)
  · rename_i hstate
    split
    · rename_i hobs
      refine .pure loaded_stable fun w hi h => ⟨fun _ => ?_,fun ht => by cases ht⟩
      exact covered_ready hi h hdesired hstate hobs
    · exact sat_transitionToReconciling hdesired (Or.inr (Or.inl hstate))
  · rename_i hstate
    exact sat_transitionToReconciling hdesired (Or.inr (Or.inr hstate))
  · rename_i hstate
    exact sat_applyAndWait hdesired hstate
  · rename_i hstate
    exact sat_checkRollout hdesired hstate
  · exact sat_uncounted loaded_stable rfl

end

section

variable (hdesired : env.status.desired = .absent)
include hdesired

private theorem sat_transitionToDeleting (hstate : env.status.state ≠ .deleting) :
    protocol.Sat .worker (ReconcileService.transitionToDeleting env) (fun w => w.Loaded env)
      (ResultPost env.name) := by
  refine sat_transition rfl loaded_stable (fun w _ h => ⟨h,?_⟩) (fun _ => Or.inl rfl) ?_
  · exact .delete hdesired hstate rfl rfl
  · intro ht
    cases ht

omit hdesired in
private theorem deleted_stable : protocol.Stable .worker fun w => w.Loaded env ∧
    w.deleted env.name = true := by
  intro w w' hi h hrely
  obtain ⟨-,d,-,-,hd,-,-⟩ := h.1.stored hi
  refine ⟨loaded_stable w w' hi h.1 hrely,?_⟩
  rw [(others_of_rely hrely).deleted env.name (by rw [hd]; rfl)]
  exact h.2

private theorem sat_delete_document (hstate : env.status.state = .deleting) :
    protocol.Sat .worker (MongoRepository.delete env.name)
      (fun w => w.Loaded env ∧ w.deleted env.name = true)
      fun r w => match r with
        | .ok () => w.Covered env.name
        | .error err => err.is .errRetryCounted = false := by
  let R : Except Err Nat → World → Prop := fun ans w =>
    match ans with
    | .ok deletedCount => deletedCount ≠ 0 → w.Covered env.name
    | .error err => err.is .errRetryCounted = false
  have hR : ∀ ans, protocol.Stable .worker (R ans) := by
    intro ans
    cases ans with
    | ok deletedCount => exact covered_stable.imp _
    | error err => exact .const _
  refine Protocol.Sat.bind (Q := R) (.perform deleted_stable hR ?_ ?_) ?_
  · intro w _ h
    exact ⟨env,h.1,rfl,hdesired,hstate,h.2⟩
  · intro c ans w w' hi h hexec
    cases ans with
    | error err =>
      obtain ⟨fault,rfl⟩ := deleteOne_fault hexec
      exact fault_is_domain fault _ (by simp) (by simp)
    | ok deletedCount =>
      intro hne
      rcases deleteOne_cases hexec with ⟨-,rfl⟩ | ⟨-,hzero⟩
      · left
        intro d hd
        simp only [World.remove,Function.update_self,reduceCtorEq] at hd
      · exact absurd (hzero _ rfl).1 hne
  · intro ans
    cases ans with
    | error err => exact .pure (.const _) fun _ _ h => h
    | ok deletedCount =>
      dsimp only
      split
      · exact .pure (hR (.ok deletedCount)) fun _ _ _ => rfl
      · rename_i hne
        exact .pure (hR (.ok deletedCount)) fun _ _ h => h hne

private theorem sat_deleteAbsent (hstate : env.status.state = .deleting) :
    protocol.Sat .worker (ReconcileService.deleteAbsent env) (fun w => w.Loaded env)
      (ResultPost env.name) := by
  have hfail : ∀ err, protocol.Sat .worker (.pure (.error err)) (fun w => w.Loaded env)
      (ResultPost env.name) :=
    fun err => .pure loaded_stable fun w hi h _ => exhaustible_of_loaded h hi (Or.inr hstate)
  let R : Except Err Unit → World → Prop := fun ans w =>
    match ans with
    | .ok () => w.Loaded env ∧ w.deleted env.name = true
    | .error _ => w.Loaded env
  have hR : ∀ ans, protocol.Stable .worker (R ans) := by
    intro ans
    cases ans with
    | ok _ => exact deleted_stable
    | error err => exact loaded_stable
  refine Protocol.Sat.bind (Q := R) (.perform loaded_stable hR (fun _ _ _ => trivial) ?_) ?_
  · intro c ans w w' hi h hexec
    rcases runtime_cases hexec with ⟨rfl,rfl⟩ | ⟨err,rfl,rfl⟩
    · obtain ⟨-,d,-,-,hd,-,hs⟩ := h.stored hi
      refine ⟨⟨h.read,h.state,h.changed⟩,?_⟩
      simp [hd,hs,hstate]
    · exact h
  · intro ans
    cases ans with
    | error err =>
      dsimp only
      split <;> exact hfail _
    | ok _ =>
      refine Protocol.Sat.bind (sat_delete_document hdesired hstate) ?_
      intro deleted
      cases deleted with
      | error err =>
        refine .pure (.const _) fun w _ herr hc => ?_
        rw [show err.is .errRetryCounted = false from herr] at hc
        cases hc
      | ok _ => exact .pure covered_stable fun w _ h => ⟨fun _ => h,fun ht => by cases ht⟩

private theorem sat_processAbsent :
    protocol.Sat .worker (ReconcileService.processAbsent env) (fun w => w.Loaded env)
      (ResultPost env.name) := by
  unfold ReconcileService.processAbsent
  split
  · rename_i hstate
    exact sat_transitionToDeleting hdesired hstate
  · rename_i hstate
    exact sat_deleteAbsent hdesired (not_not.mp hstate)

end

theorem sat_processOne : protocol.Sat .worker (ReconcileService.processOne name)
    (fun _ => True) (ResultPost name) := by
  refine Protocol.Sat.bind (sat_get (F := fun _ _ => True) trivial_stable
    (fun _ => trivial_stable) fun _ _ _ _ _ => trivial) ?_
  intro found
  cases found with
  | error err => exact sat_of_get_error _
  | ok env =>
    apply sat_of_get
    rintro rfl
    have hload : protocol.Stable .worker fun w => w.Loaded env ∧ True :=
      loaded_stable.and trivial_stable
    dsimp only
    split
    · rename_i hdesired
      exact (sat_processPresent hdesired).strengthen hload fun _ _ h => h.1
    · rename_i hdesired
      exact (sat_processAbsent hdesired).strengthen hload fun _ _ h => h.1
    · exact sat_uncounted hload rfl

theorem sat_markRetryExhausted : protocol.Sat .worker (ReconcileService.markRetryExhausted n)
    (fun w => w.Exhaustible n) (ResultPost n) := by
  let F : EnvironmentStatus → World → Prop := fun status w =>
    ((status.state = .reconciling ∨ status.state = .waitingRollout) ∧
      (status.desired = .present ∨ w.Coming n)) ∨ status.state = .deleting
  have hcoming : protocol.Stable .worker fun w => w.Coming n :=
    fun w w' _ h hrely => (others_of_rely hrely).coming n h
  have hF : ∀ status, protocol.Stable .worker (F status) := fun status =>
    ((Protocol.Stable.const _).and ((Protocol.Stable.const _).or hcoming)).or (.const _)
  refine Protocol.Sat.bind (sat_get exhaustible_stable hF ?_) ?_
  · rintro w d - ⟨e,he,h⟩ hd
    rw [hd] at he
    cases he
    exact h
  · intro found
    cases found with
    | error err => exact sat_of_get_error _
    | ok env =>
      apply sat_of_get
      rintro rfl
      refine sat_transition rfl (loaded_stable.and (hF _)) (fun w _ h => ⟨h.1,?_⟩) ?_ ?_
      · exact .exhaust (h.2.elim (fun hs => hs.1.imp_right Or.inl)
          fun hs => Or.inr (Or.inr hs)) rfl rfl
      · intro ht
        cases ht
      · intro _ w d hi h hd hgen hstate
        exact covered_exhaust hi hd h.1 hgen hstate rfl rfl h.2

end Dominion.Deploy
