import Dominion.Deploy.System.Runs

/-! # Applied before reported

The reconciler stamps `ObservedGeneration` with the generation it loaded.  `applyAndWait` has
applied that generation; `markReadyFromRollout` stamps it without a look at what was applied. -/
namespace Dominion.Deploy

open Dominion.Framework Dominion.Deploy.Domain World

namespace World

variable {w w' : World} {t : Tid} {op : Call} {c : Choice}

/-- A waiting or Ready document that reports its generation as observed had its desired state
applied last. -/
def Applied (w : World) : Prop :=
  ∀ n d, w.docs n = some d →
    d.doc.status.state = .waitingRollout ∨ d.doc.status.state = .ready →
    d.doc.status.observedGeneration = d.doc.generation →
    w.applied n = some d.doc.desiredState

/-- An update that sets the state Ready and matches a document, by a thread that loaded the
environment with a generation it had not observed. -/
def marksUnobserved (w : World) (t : Tid) (op : Call) : Bool :=
  match op,w.reads t with
  | .updateOne f u,some r => decide (u.state = some .ready) && (w.matched f).isSome &&
      decide (r.stored.doc.status.observedGeneration ≠ r.stored.doc.generation)
  | _,_ => false

private theorem applied_status {f : Filter} {u : Update} {d : Stored} (hi : w.Inv)
    (h : w.Applied) (hd : w.matched f = some d) (hc : w.StatusWrite f u)
    (hnot : w.marksUnobserved .worker (.updateOne f u) = false)
    (hstate : (u.apply d.doc).status.state = .waitingRollout ∨
      (u.apply d.doc).status.state = .ready)
    (hobs : (u.apply d.doc).status.observedGeneration = (u.apply d.doc).generation) :
    w.applied d.doc.name = some d.doc.desiredState := by
  obtain ⟨env,st,hload,rfl,rfl,hstep⟩ := hc
  obtain ⟨hdocs,hname,hgen,hfrom⟩ := matched_some hd
  obtain ⟨r,e,hr,hsnap,he,hdesc,hes⟩ := hload.stored hi
  rw [hdocs] at he
  cases he
  have hst : st.state = .waitingRollout ∨ st.state = .ready := hstate
  cases hstep with
  | reconcile _ _ hto _ => simp [hto] at hst
  | delete _ _ hto _ => simp [hto] at hst
  | exhaust _ hto _ => simp [hto] at hst
  | await _ _ happlied _ _ =>
    have hsame := (hdesc.unwritten (hgen.trans hsnap.generation.symm)).2.2
    rw [hname,happlied,hsame,hsnap.desiredState]
  | retain _ hwaiting _ hkeep =>
    refine h _ d (hname ▸ hdocs) (Or.inl (hes.trans hwaiting)) ?_
    simpa [Update.apply,MongoRepository.statusUpdate,hkeep] using hobs
  | conclude _ hwaiting hto _ =>
    -- Failed is no case of `hst`, so the write is that of `markReadyFromRollout`.
    have hready : st.state = .ready := by
      rcases hto with hto | hto
      · exact hto
      · simp [hto] at hst
    refine h _ d (hname ▸ hdocs) (Or.inl (hes.trans hwaiting)) ?_
    have hread : r.stored.doc.status.observedGeneration = r.stored.doc.generation := by
      simpa [marksUnobserved,hr,hd,MongoRepository.statusUpdate,hready] using hnot
    calc d.doc.status.observedGeneration
      _ = env.status.observedGeneration := (hload.state d hdocs).2
      _ = r.stored.doc.status.observedGeneration := by rw [hsnap.status]
      _ = r.stored.doc.generation := hread
      _ = d.doc.generation := hsnap.generation.trans hgen.symm

private theorem applied_write {f : Filter} {u : Update} {d : Stored} (hi : w.Inv)
    (h : w.Applied) (hd : w.matched f = some d) (hc : contract t (.updateOne f u) w)
    (hnot : w.marksUnobserved t (.updateOne f u) = false) :
    (w.write d u).Applied := by
  obtain ⟨hdocs,-,-,-,happlied,-⟩ := write_frame w d u
  obtain ⟨hdocs',hname,-⟩ := matched_some hd
  intro n e he hstate hobs
  rw [hdocs] at he
  rw [happlied]
  by_cases hn : n = d.doc.name
  · subst n
    rw [Function.update_self] at he
    cases he
    cases t with
    | api i =>
      -- The generation is ahead of what was observed.
      have hle := (hi.docs _ d (hname ▸ hdocs')).observed
      obtain ⟨⟨r,-,-,-,hcommand⟩,-⟩ := hc
      cases hcommand <;>
      · simp only [Update.apply,MongoRepository.desiredUpdate,Option.getD_none,if_true] at hobs
        omega
    | worker =>
      have hds : u.desiredState = none := by
        obtain ⟨env,st,-,-,rfl,-⟩ := hc
        rfl
      rw [applied_status hi h hd hc hnot hstate hobs]
      simp only [Update.apply,hds,Option.getD_none]
  · rw [Function.update_of_ne hn] at he
    exact h n e he hstate hobs

theorem applied_effect (hi : w.Inv) (h : w.Applied) (hc : contract t op w)
    (he : Effect w t op w') (hnot : w.marksUnobserved t op = false) : w'.Applied := by
  cases he with
  | insert hfree =>
    rename_i doc
    cases t with
    | worker => exact hc.elim
    | api i =>
      intro n d hd hstate hobs
      by_cases hn : n = doc.name
      · subst n
        simp only [World.insert,Function.update_self,Option.some.injEq] at hd
        subst d
        simp [(show Fresh doc from hc).status] at hstate
      · simp only [World.insert,Function.update_of_ne hn] at hd
        exact h n d hd hstate hobs
  | write hd => exact applied_write hi h hd hc hnot
  | remove hd =>
    rename_i m d
    intro n e he hstate hobs
    by_cases hn : n = m
    · simp only [World.remove,hn,Function.update_self,reduceCtorEq] at he
    · simp only [World.remove,Function.update_of_ne hn] at he
      exact h n e he hstate hobs
  | apply =>
    rename_i env
    cases t with
    | api i => exact hc.elim
    | worker =>
      obtain ⟨hload,-,hreconciling⟩ := hc
      intro n d hd hstate hobs
      by_cases hn : n = env.name
      · subst n
        rw [(hload.state d hd).1,hreconciling] at hstate
        simp at hstate
      · simp only [Function.update_of_ne hn]
        exact h n d hd hstate hobs
  | _ => exact h

end World

namespace Service

variable {maxRetries : Nat} {s : Service} {n : EnvironmentName} {d : Stored}

/-- If no step writes Ready for an environment that was loaded with an unobserved generation, the
desired state of every Ready document that reports its generation as observed is the one applied
last. -/
theorem applied_of_ready (h : (system maxRetries).ReachUnder (Without marksUnobserved) s)
    (hd : s.world.docs n = some d) (hready : d.doc.status.state = .ready)
    (hobs : d.doc.status.observedGeneration = d.doc.generation) :
    s.world.applied n = some d.doc.desiredState := by
  have happlied : s.world.Applied := by
    refine world_of_without ?_ ?_ ?_ (fun w q timers h => h) h
    · intro w t op hpick
      cases op with
      | updateOne f u => exact ⟨f,u,rfl⟩
      | _ => cases hpick
    · intro n d hd
      cases hd
    · intro w t op w' hi h hc he hpick
      exact applied_effect hi h hc he hpick
  exact happlied n d hd (Or.inr hready) hobs

/-- The labels of a run to WaitingRollout. -/
def applyLabels : List Label :=
  createLabels 0 demoName demoEmpty ++ iterateLabels demoName (List.replicate 4 .done) ++
    iterateLabels demoName (List.replicate 5 .done)

/-- The worker checks the rollout, which is Ready, and writes its answer. -/
def readyLabels : List Label :=
  iterateLabels demoName [.done,.rollout ⟨.ready,"",[]⟩,.done]

/-- The document of the concrete runs is Present, Ready and reports its generation. -/
def reportsReady (s : Service) (ds : DesiredState) : Bool :=
  (s.world.docs demoName).any fun d => d.doc.status.desired == .present &&
    d.doc.status.state == .ready &&
    d.doc.status.observedGeneration == d.doc.generation && d.doc.desiredState == ds

theorem applied_of_ready_demo : ∃ (s : Service) (d : Stored),
    s.world.docs demoName = some d ∧ d.doc.status.state = .ready ∧
      s.world.applied demoName = some d.doc.desiredState := by
  obtain ⟨s,hs,hreports⟩ := reachUnder_of_run Worker.defaultMaxRetries
    (p := marksUnobserved) (q := fun s => s.reportsReady demoEmpty)
    (applyLabels ++ [.tick (.fire ⟨demoName,0,.poll⟩)] ++ readyLabels) (by decide)
  simp only [reportsReady,Option.any_eq_true,Bool.and_eq_true,beq_iff_eq] at hreports
  obtain ⟨d,hd,⟨⟨-,hready⟩,hobs⟩,-⟩ := hreports
  exact ⟨s,d,hd,hready,applied_of_ready hs hd hready hobs⟩

theorem ready_not_applied : ¬∀ s n d, (system Worker.defaultMaxRetries).Reach s →
    s.world.docs n = some d → d.doc.status.desired = .present → d.doc.status.state = .ready →
    d.doc.status.observedGeneration = d.doc.generation →
    s.world.applied n = some d.doc.desiredState := by
  intro h
  obtain ⟨s,hs,hreports⟩ := Lts.reach_of_run_any (M := system Worker.defaultMaxRetries)
    (p := fun s => s.reportsReady demoCache && s.world.applied demoName == some demoEmpty)
    (applyLabels ++ updateLabels 1 demoName demoCache ++ readyLabels) initial_reach
    (by decide)
  simp only [reportsReady,Option.any_eq_true,Bool.and_eq_true,beq_iff_eq] at hreports
  obtain ⟨⟨d,hd,⟨⟨hdesired,hready⟩,hobs⟩,hds⟩,happlied⟩ := hreports
  have hsame := h s demoName d hs hd hdesired hready hobs
  rw [happlied,hds] at hsame
  exact absurd hsame (by decide)

end Service

end Dominion.Deploy
