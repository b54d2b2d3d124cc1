import Dominion.Deploy.System.World

/-! # What a call does to the world

One inversion lemma for each kind of call says what it answers and what it changes; every
invariant of the service is derived from these. -/
namespace Dominion.Deploy

open Dominion.Framework Dominion.Deploy.Domain

/-- The choices under which a store call takes effect. -/
def Choice.takesEffect : Choice → Bool
  | .done | .lost _ => true
  | _ => false

namespace World

/-- The possible effects of a call. -/
inductive Effect (w : World) : Tid → Call → World → Prop
  | idle {t : Tid} {op : Call} : Effect w t op w
  | read {t : Tid} {n : EnvironmentName} : Effect w t (.findOne n) (w.read t n)
  | insert {t : Tid} {doc : MongoEnvironment} (h : w.docs doc.name = none) :
      Effect w t (.insertOne doc) (w.insert doc)
  | write {t : Tid} {f : Filter} {u : Update} {d : Stored} (h : w.matched f = some d) :
      Effect w t (.updateOne f u) (w.write d u)
  | remove {t : Tid} {n : EnvironmentName} {d : Stored} (h : w.docs n = some d) :
      Effect w t (.deleteOne n) (w.remove n)
  | apply {t : Tid} {env : Environment} : Effect w t (.applyResources env)
      { w with applied := Function.update w.applied env.name (some env.desiredState) }
  | runtimeDelete {t : Tid} {n : EnvironmentName} : Effect w t (.runtimeDelete n)
      { w with deleted := Function.update w.deleted n
                (w.deleted n || (w.docs n).any fun d => decide (d.doc.status.state = .deleting)) }
  | enqueue {t : Tid} {n : EnvironmentName} : Effect w t (.enqueue n)
      { w with queue := w.queue.enqueue n, owed := Function.update w.owed n (w.owed n - 1) }
  | requeue {t : Tid} {item : WorkItem} {delay : Nat} : Effect w t (.enqueueAfter item delay)
      { w with queue := w.queue.enqueueNow item }
  | schedule {t : Tid} {item : WorkItem} {delay : Nat} : Effect w t (.enqueueAfter item delay)
      { w with timers := item :: w.timers }
  | receive {t : Tid} {n : EnvironmentName} {q : Queue} (h : w.queue.receive = some (n,q)) :
      Effect w t .receive { w with queue := q }
  | markInFlight {t : Tid} {n : EnvironmentName} {item : WorkItem} {q : Queue}
      (h : w.queue.markInFlight n = some (item,q)) :
      Effect w t (.markInFlight n) { w with queue := q }
  | complete {t : Tid} {n : EnvironmentName} :
      Effect w t (.complete n) { w with queue := w.queue.complete n }

theorem fault_is_domain (fault : Fault) (s : Sentinel) (hs : s ≠ .contextCanceled)
    (hd : s ≠ .contextDeadlineExceeded) : fault.err.is s = false := by
  cases fault with
  | canceled => simpa [Fault.err] using hs
  | deadlineExceeded => simpa [Fault.err] using hd
  | driver text => simp [Fault.err,Err.new,Err.is]

variable {w w' e : World} {t : Tid} {c : Choice} {α : Type} {a x : α}

theorem store_cases {r : Except Err α} (h : w.store e a c = some (r,w')) :
    (r = .ok a ∧ w' = e) ∨ ∃ fault : Fault, r = .error fault.err ∧ (w' = w ∨ w' = e) := by
  cases c with
  | done => cases h; exact Or.inl ⟨rfl,rfl⟩
  | fail fault => cases h; exact Or.inr ⟨fault,rfl,Or.inl rfl⟩
  | lost fault => cases h; exact Or.inr ⟨fault,rfl,Or.inr rfl⟩
  | _ => cases h

theorem runtime_cases {r : Except Err α} (h : w.runtime e a c = some (r,w')) :
    (r = .ok a ∧ w' = e) ∨ ∃ err, r = .error err ∧ w' = w := by
  cases c with
  | done => cases h; exact Or.inl ⟨rfl,rfl⟩
  | runtimeErr err => cases h; exact Or.inr ⟨err,rfl,rfl⟩
  | _ => cases h

private theorem runtime_effect {r : Except Err α} {op : Call} (he : Effect w t op e)
    (h : w.runtime e a c = some (r,w')) : Effect w t op w' := by
  rcases runtime_cases h with ⟨-,rfl⟩ | ⟨-,-,rfl⟩
  · exact he
  · exact .idle

theorem read_self {n : EnvironmentName} {d : Stored} (hd : w.docs n = some d) :
    (w.read t n).reads t = some ⟨d,w.writes n,w.removals n,w.everAbsent n⟩ := by
  simp only [read,Function.update_self,hd,Option.map_some]

/-- A successful read answers the stored document and records it. -/
theorem findOne_cases {n : EnvironmentName} {r : Except Err (Option MongoEnvironment)}
    (h : w.exec t (.findOne n) c = some (r,w')) :
    (r = .ok ((w.docs n).map Stored.doc) ∧ w' = w.read t n) ∨
      ∃ fault : Fault, r = .error fault.err ∧ (w' = w ∨ w' = w.read t n) :=
  store_cases h

theorem matched_some {f : Filter} {d : Stored} (h : w.matched f = some d) :
    w.docs f.name = some d ∧ d.doc.name = f.name ∧ d.doc.generation = f.generation ∧
      ∀ s, f.state = some s → d.doc.status.state = s := by
  obtain ⟨hd,hf⟩ := Option.filter_eq_some_iff.mp h
  simp only [Filter.accepts,Bool.and_eq_true,decide_eq_true_eq] at hf
  refine ⟨hd,hf.1.1,hf.1.2,?_⟩
  intro s hs
  simpa [hs] using hf.2

theorem insertOne_cases {doc : MongoEnvironment} {r : Except Err Bool}
    (h : w.insertOne doc c = some (r,w')) :
    (w.docs doc.name = none ∧ w' = w.insert doc ∧ ∀ b, r = .ok b → b = true) ∨
      (w' = w ∧ r ≠ .ok true) := by
  unfold insertOne at h
  split at h
  · right
    rcases store_cases h with ⟨rfl,rfl⟩ | ⟨fault,rfl,rfl | rfl⟩ <;> exact ⟨rfl,by simp⟩
  · rename_i hd
    have hn : w.docs doc.name = none := by simpa using hd
    rcases store_cases h with ⟨rfl,rfl⟩ | ⟨fault,rfl,rfl | rfl⟩
    · exact Or.inl ⟨hn,rfl,by simp⟩
    · exact Or.inr ⟨rfl,by simp⟩
    · exact Or.inl ⟨hn,rfl,by simp⟩

theorem updateOne_cases {f : Filter} {u : Update} {r : Except Err Nat}
    (h : w.updateOne f u c = some (r,w')) :
    (∃ d, w.matched f = some d ∧ w' = w.write d u ∧ ∀ k, r = .ok k → k = 1) ∨
      (w' = w ∧ ∀ k, r = .ok k → k = 0 ∧ w.matched f = none) := by
  unfold updateOne at h
  split at h
  · rename_i d hd
    rcases store_cases h with ⟨rfl,rfl⟩ | ⟨fault,rfl,rfl | rfl⟩
    · exact Or.inl ⟨d,hd,rfl,by simp⟩
    · exact Or.inr ⟨rfl,by simp⟩
    · exact Or.inl ⟨d,hd,rfl,by simp⟩
  · rename_i hd
    rcases store_cases h with ⟨rfl,rfl⟩ | ⟨fault,rfl,rfl | rfl⟩
    · exact Or.inr ⟨rfl,by simp [hd]⟩
    · exact Or.inr ⟨rfl,by simp⟩
    · exact Or.inr ⟨rfl,by simp⟩

/-- An update that matches a document and does not fail reports it. -/
theorem exec_updateOne_matched {f : Filter} {u : Update} {d : Stored}
    (hd : w.matched f = some d) :
    w.exec t (.updateOne f u) .done = some (.ok 1,w.write d u) := by
  change w.updateOne f u .done = _
  unfold updateOne
  rw [hd]
  rfl

/-- What an update did to the document it matched. -/
theorem exec_takesEffect {f : Filter} {u : Update} {d : Stored} {r : Except Err Nat}
    (hd : w.matched f = some d) (h : w.exec t (.updateOne f u) c = some (r,w')) :
    w' = if c.takesEffect then w.write d u else w := by
  change w.updateOne f u c = _ at h
  unfold updateOne at h
  rw [hd] at h
  cases c <;> cases h <;> rfl

theorem deleteOne_cases {n : EnvironmentName} {r : Except Err Nat}
    (h : w.deleteOne n c = some (r,w')) :
    ((∃ d, w.docs n = some d) ∧ w' = w.remove n) ∨
      (w' = w ∧ ∀ k, r = .ok k → k = 0 ∧ w.docs n = none) := by
  unfold deleteOne at h
  split at h
  · rename_i hn
    have hd := Option.isSome_iff_exists.mp hn
    rcases store_cases h with ⟨rfl,rfl⟩ | ⟨fault,rfl,rfl | rfl⟩
    · exact Or.inl ⟨hd,rfl⟩
    · exact Or.inr ⟨rfl,by simp⟩
    · exact Or.inl ⟨hd,rfl⟩
  · rename_i hn
    have hd : w.docs n = none := by simpa using hn
    rcases store_cases h with ⟨rfl,rfl⟩ | ⟨fault,rfl,rfl | rfl⟩
    · exact Or.inr ⟨rfl,by simp [hd]⟩
    · exact Or.inr ⟨rfl,by simp⟩
    · exact Or.inr ⟨rfl,by simp⟩

private theorem store_fault {err : Err} (h : w.store e a c = some (.error err,w')) :
    ∃ fault : Fault, err = fault.err := by
  rcases store_cases h with ⟨hr,-⟩ | ⟨fault,hr,-⟩
  · cases hr
  · exact ⟨fault,Except.error.inj hr⟩

theorem updateOne_fault {f : Filter} {u : Update} {err : Err}
    (h : w.updateOne f u c = some (.error err,w')) : ∃ fault : Fault, err = fault.err := by
  unfold updateOne at h
  split at h <;> exact store_fault h

theorem deleteOne_fault {n : EnvironmentName} {err : Err}
    (h : w.deleteOne n c = some (.error err,w')) : ∃ fault : Fault, err = fault.err := by
  unfold deleteOne at h
  split at h <;> exact store_fault h

theorem exec_effect {op : Call} {r : op.Answer} (h : w.exec t op c = some (r,w')) :
    Effect w t op w' := by
  cases op with
  | findOne n =>
    rcases findOne_cases h with ⟨-,rfl⟩ | ⟨-,-,rfl | rfl⟩
    · exact .read
    · exact .idle
    · exact .read
  | insertOne doc =>
    rcases insertOne_cases h with ⟨hd,rfl,-⟩ | ⟨rfl,-⟩
    · exact .insert hd
    · exact .idle
  | updateOne f u =>
    rcases updateOne_cases h with ⟨d,hd,rfl,-⟩ | ⟨rfl,-⟩
    · exact .write hd
    · exact .idle
  | deleteOne n =>
    rcases deleteOne_cases h with ⟨⟨d,hd⟩,rfl⟩ | ⟨rfl,-⟩
    · exact .remove hd
    · exact .idle
  | reservedEnvironmentVariableNames =>
    cases c with
    | reserved names => cases h; exact .idle
    | runtimeErr err => cases h; exact .idle
    | _ => cases h
  | applyResources env => exact runtime_effect .apply h
  | checkRollout env =>
    cases c with
    | rollout status => cases h; exact .idle
    | runtimeErr err => cases h; exact .idle
    | _ => cases h
  | runtimeDelete n => exact runtime_effect .runtimeDelete h
  | enqueue n =>
    cases c with
    | done => cases h; exact .enqueue
    | _ => cases h
  | enqueueAfter item delay =>
    cases c with
    | done =>
      by_cases hd : delay = 0
      · simp only [exec,hd,if_true] at h
        cases h
        exact .requeue
      · simp only [exec,hd,if_false] at h
        cases h
        exact .schedule
    | _ => cases h
  | receive =>
    cases c with
    | done =>
      obtain ⟨⟨n,q⟩,hq,he⟩ := Option.map_eq_some_iff.mp h
      cases he
      exact .receive hq
    | _ => cases h
  | markInFlight n =>
    cases c with
    | done =>
      simp only [exec] at h
      split at h
      · rename_i item q hq
        cases h
        exact .markInFlight hq
      · cases h
        exact .idle
    | _ => cases h
  | complete n =>
    cases c with
    | done => cases h; exact .complete
    | _ => cases h

/-- A call changes no other thread's record of its last read. -/
theorem Effect.reads_other {op : Call} {t' : Tid} (h : Effect w t op w') (ht : t' ≠ t) :
    w'.reads t' = w.reads t' := by
  cases h with
  | read => simp only [World.read,Function.update_of_ne ht]
  | write hd =>
    simp only [World.write]
    split <;> rfl
  | _ => rfl

end World

end Dominion.Deploy
