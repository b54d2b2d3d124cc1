import Dominion.Deploy.System.Lifecycle

/-! # Continuations of the worker's loop

The loop drops every error of the reconciler that is no counted retry, and the Failed state that
it writes when the retries are exhausted is final even over a deletion. -/
namespace Dominion.Deploy

open Dominion.Framework Dominion.Deploy.Domain World

namespace World

variable {w w' : World} {t : Tid} {op : Call} {n : EnvironmentName}

/-- A work item of the name that some later dequeue will hand to a worker. -/
def HasWork (w : World) (n : EnvironmentName) : Prop :=
  (w.queue.items n).isSome ∨
  ((w.queue.followUps n).isSome ∧ w.queue.inFlight n = true) ∨
  ∃ item ∈ w.timers, item.envName = n

private theorem leftDeleting_write {d : Stored} {u : Update} (h : w.leftDeleting n = false)
    (hd : w.docs d.doc.name = some d) (hlegal : LegalChanges w (w.write d u)) :
    (w.write d u).leftDeleting n = false := by
  have hstays : d.doc.status.state = .deleting → (u.apply d.doc).status.state = .deleting := by
    intro hdel
    by_contra hne
    have hd' : (w.write d u).docs d.doc.name = some ⟨d.id,u.apply d.doc⟩ := by
      rw [(write_frame w d u).1,Function.update_self]
    have hcan := hlegal _ d _ hd hd' (by rw [hdel]; exact hne)
    rw [hdel,canTransition_deleting] at hcan
    cases hcan
  unfold World.write
  dsimp only
  split
  · exact h
  · by_cases hn : n = d.doc.name
    · subst n
      simpa [h] using hstays
    · simpa only [Function.update_of_ne hn] using h

theorem leftDeleting_effect (hi : w.Inv) (h : ∀ n, w.leftDeleting n = false)
    (hc : contract t op w) (he : Effect w t op w') (hnot : w.exhaustsDeleting t op = false) :
    ∀ n, w'.leftDeleting n = false := by
  intro n
  have hlegal := legalChanges_effect hi hc he hnot
  cases he with
  | write hd =>
    obtain ⟨hdocs,hname,-⟩ := matched_some hd
    exact leftDeleting_write (h n) (hname ▸ hdocs) hlegal
  | _ => exact h n

end World

namespace Service

variable {maxRetries : Nat} {s : Service} {it : Worker.Iteration}

private theorem leftDeleting_of_without
    (h : (system maxRetries).ReachUnder (Without World.exhaustsDeleting) s) :
    ∀ n, s.world.leftDeleting n = false :=
  world_of_without (J := fun w => ∀ n, w.leftDeleting n = false) exhaustsDeleting_update
    (fun _ => rfl) (fun _ _ _ _ hi h hc he hnot => leftDeleting_effect hi h hc he hnot)
    (fun _ _ _ h => h) h

/-- If the retries of no Deleting environment are exhausted, an iteration that met no error but
counted retries leaves its environment settled or with a work item, once every command that
wrote it has made its `Enqueue`. -/
theorem iteration_continues
    (h : (system maxRetries).ReachUnder (Without World.exhaustsDeleting) s)
    (hreturned : s.returned .worker = some (.iteration (some it))) (hclean : it.Clean)
    (howed : s.world.owed it.item.envName = 0) :
    s.world.Settled it.item.envName ∨ s.world.HasWork it.item.envName := by
  obtain ⟨hcovered,-,hparked⟩ : Left it.item.envName s.world :=
    (outlined_of_reach h.reach).returned hreturned hclean
  rcases hcovered with hsettled | (howes | (hitem | hfollow) | htimer) | hleft
  · exact Or.inl hsettled
  · omega
  · exact Or.inr (Or.inl hitem)
  · rw [hparked] at hfollow
    cases hfollow
  · exact Or.inr (Or.inr (Or.inr htimer))
  · rw [leftDeleting_of_without h] at hleft
    cases hleft

/-- The worker has processed the environment of the concrete runs with a result or with an
error. -/
def processed (s : Service) (ok : Bool) : Bool :=
  match s.returned .worker with
  | some (.iteration (some it)) => it.item.envName == demoName && it.processed.isOk == ok &&
      it.exhausted.isNone
  | _ => false

private theorem processed_returned {ok : Bool} (h : s.processed ok = true) :
    ∃ it, s.returned .worker = some (.iteration (some it)) ∧ it.item.envName = demoName ∧
      it.processed.isOk = ok ∧ it.exhausted = none := by
  unfold processed at h
  split at h
  · rename_i it hreturned
    simp only [Bool.and_eq_true,beq_iff_eq,Option.isNone_iff_eq_none] at h
    exact ⟨it,hreturned,h.1.1,h.1.2,h.2⟩
  · cases h

theorem iteration_continues_demo : ∃ s : Service,
    s.world.Settled demoName ∨ s.world.HasWork demoName := by
  obtain ⟨s,hs,hrun⟩ := reachUnder_of_run Worker.defaultMaxRetries (p := World.exhaustsDeleting)
    (q := fun s => s.processed true && s.world.owed demoName == 0)
    (createLabels 0 demoName demoEmpty ++ iterateLabels demoName (List.replicate 4 .done))
    (by decide)
  simp only [Bool.and_eq_true,beq_iff_eq] at hrun
  obtain ⟨hprocessed,howed⟩ := hrun
  obtain ⟨it,hreturned,hname,hok,hexhausted⟩ := processed_returned hprocessed
  have hclean : it.Clean := by
    refine ⟨?_,?_⟩
    · intro err herr
      rw [herr] at hok
      cases hok
    · intro err herr
      rw [hexhausted] at herr
      cases herr
  have hcontinues := iteration_continues hs hreturned hclean (hname ▸ howed)
  rw [hname] at hcontinues
  exact ⟨s,hcontinues⟩

/-- The environment of the concrete runs is Pending and has neither an item nor a timer. -/
def strandsDemo (s : Service) : Bool :=
  (s.world.docs demoName).any (fun d => d.doc.status.state == .pending) &&
    (s.world.queue.items demoName).isNone && (s.world.queue.followUps demoName).isNone &&
    s.world.timers.isEmpty && s.world.owed demoName == 0

private theorem strandsDemo_not (h : s.strandsDemo = true) :
    ¬(s.world.Settled demoName ∨ s.world.HasWork demoName) := by
  simp only [strandsDemo,Bool.and_eq_true,Option.any_eq_true,beq_iff_eq,
    Option.isNone_iff_eq_none,List.isEmpty_iff] at h
  obtain ⟨⟨⟨⟨⟨d,hd,hpending⟩,hitem⟩,hfollow⟩,htimers⟩,-⟩ := h
  rintro (hsettled | hitem' | ⟨hfollow',-⟩ | ⟨item,htimer,-⟩)
  · rcases (hsettled d hd).2.2 with hstate | hstate <;>
    · rw [hpending] at hstate
      cases hstate
  · rw [hitem] at hitem'
    cases hitem'
  · rw [hfollow] at hfollow'
    cases hfollow'
  · rw [htimers] at htimer
    cases htimer

theorem failed_read_strands : ¬∀ s it, (system Worker.defaultMaxRetries).Reach s →
    s.returned .worker = some (.iteration (some it)) → s.world.owed it.item.envName = 0 →
    s.world.Settled it.item.envName ∨ s.world.HasWork it.item.envName := by
  intro h
  obtain ⟨s,hs,hrun⟩ := Lts.reach_of_run_any (M := system Worker.defaultMaxRetries)
    (p := fun s => s.processed false && s.strandsDemo)
    (createLabels 0 demoName demoEmpty ++
      iterateLabels demoName [.fail (.driver "connection reset"),.done]) initial_reach
    (by decide)
  obtain ⟨hprocessed,hstrands⟩ := Bool.and_eq_true_iff.mp hrun
  obtain ⟨it,hreturned,hname,-,-⟩ := processed_returned hprocessed
  have howed : s.world.owed demoName = 0 := by
    simp only [strandsDemo,Bool.and_eq_true,beq_iff_eq] at hstrands
    exact hstrands.2
  have hcontinues := h s it hs hreturned (hname ▸ howed)
  rw [hname] at hcontinues
  exact strandsDemo_not hstrands hcontinues

end Service

end Dominion.Deploy
