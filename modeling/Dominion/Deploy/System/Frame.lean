import Dominion.Deploy.System.Contract

/-! # What a thread may rely on

The commands never touch a status, remove a document or take work from the queue, and whatever
they write they owe an `Enqueue` for. -/
namespace Dominion.Deploy.World

open Dominion.Framework Dominion.Deploy.Domain

/-- The steps that surround the worker. -/
structure Others (w w' : World) : Prop where
  reads : w'.reads .worker = w.reads .worker
  removals : w'.removals = w.removals
  applied : w'.applied = w.applied
  deleted : ∀ n, (w.docs n).isSome → w'.deleted n = w.deleted n
  leftDeleting : w'.leftDeleting = w.leftDeleting
  inFlight : w'.queue.inFlight = w.queue.inFlight
  followUps : ∀ n, w.queue.inFlight n = false → w.queue.followUps n = none →
    w'.queue.followUps n = none
  coming : ∀ n, w.Coming n → w'.Coming n
  docs : ∀ n, w'.docs n = w.docs n ∨ w'.Coming n
  state : ∀ n d, w.docs n = some d →
    ∃ d', w'.docs n = some d' ∧ d'.doc.status.state = d.doc.status.state ∧
      d'.doc.status.observedGeneration = d.doc.status.observedGeneration

variable {w w' : World} {n : EnvironmentName}

private theorem others_refl (hreads : w'.reads .worker = w.reads .worker)
    (hdocs : w'.docs = w.docs) (hremovals : w'.removals = w.removals)
    (happlied : w'.applied = w.applied) (hdeleted : w'.deleted = w.deleted)
    (hleft : w'.leftDeleting = w.leftDeleting) (hflight : w'.queue.inFlight = w.queue.inFlight)
    (hfollow : ∀ n, w.queue.inFlight n = false → w.queue.followUps n = none →
      w'.queue.followUps n = none)
    (hcoming : ∀ n, w.Coming n → w'.Coming n) : Others w w' := by
  refine ⟨hreads,hremovals,happlied,fun n _ => congrFun hdeleted n,hleft,hflight,hfollow,hcoming,
    fun n => Or.inl (congrFun hdocs n),?_⟩
  intro n d hd
  exact ⟨d,hdocs ▸ hd,rfl,rfl⟩

theorem coming_enqueue (h : w.Coming n) (m : EnvironmentName) :
    Coming { w with
      queue := w.queue.enqueue m
      owed := Function.update w.owed m (w.owed m - 1) } n := by
  by_cases he : n = m
  · subst n
    exact Or.inr (Or.inl (Queue.enqueueNow_pending w.queue ⟨m,0,.user⟩))
  · rcases h with h | h | h
    · left
      simpa only [Function.update_of_ne he] using h
    · exact Or.inr (Or.inl (Queue.pending_enqueueNow h _))
    · exact Or.inr (Or.inr h)

theorem coming_enqueueNow (h : w.Coming n) (item : WorkItem) :
    Coming { w with queue := w.queue.enqueueNow item } n :=
  h.imp_right fun h => h.imp_left fun hp => Queue.pending_enqueueNow hp item

private theorem coming_fire (h : w.Coming n) (item : WorkItem) :
    Coming { w with
      queue := w.queue.enqueueNow item
      timers := w.timers.erase item } n := by
  rcases h with h | h | ⟨timer,htimer,hname⟩
  · exact Or.inl h
  · exact Or.inr (Or.inl (Queue.pending_enqueueNow h item))
  · by_cases he : timer = item
    · subst timer
      exact Or.inr (Or.inl (hname ▸ Queue.enqueueNow_pending w.queue item))
    · exact Or.inr (Or.inr ⟨timer,(List.mem_erase_of_ne he).mpr htimer,hname⟩)

private theorem others_insert {doc : MongoEnvironment} (hfree : w.docs doc.name = none) :
    Others w (w.insert doc) := by
  have hcoming : ∀ n, w.Coming n → (w.insert doc).Coming n := by
    intro n h
    rcases h with h | h
    · left
      by_cases he : n = doc.name
      · simp [World.insert,he]
      · simpa only [World.insert,Function.update_of_ne he] using h
    · exact Or.inr h
  refine ⟨rfl,rfl,rfl,?_,rfl,rfl,fun _ _ h => h,hcoming,?_,?_⟩
  · intro n hn
    have he : n ≠ doc.name := by
      rintro rfl
      rw [hfree] at hn
      cases hn
    simp only [World.insert,Function.update_of_ne he]
  · intro n
    by_cases he : n = doc.name
    · right
      left
      simp [World.insert,he]
    · left
      simp only [World.insert,Function.update_of_ne he]
  · intro n d hd
    have he : n ≠ doc.name := by
      rintro rfl
      rw [hfree] at hd
      cases hd
    refine ⟨d,?_,rfl,rfl⟩
    simpa only [World.insert,Function.update_of_ne he] using hd

private theorem others_command {d : Stored} {u : Update} {r : Read}
    (hd : w.docs d.doc.name = some d) (hu : Command r u) : Others w (w.write d u) := by
  have hinc : u.incGeneration = true := by
    cases hu <;> rfl
  have hstate : u.state = none ∧ u.observedGeneration = none := by
    cases hu <;> exact ⟨rfl,rfl⟩
  have howed : (w.write d u).owed = Function.update w.owed d.doc.name (w.owed d.doc.name + 1) := by
    simp only [World.write,hinc,if_true]
  obtain ⟨hdocs,-,hremovals,hreads,happlied,hqueue,htimers⟩ := write_frame w d u
  have hcoming : ∀ n, w.Coming n → (w.write d u).Coming n := by
    intro n h
    rcases h with h | h
    · left
      rw [howed]
      by_cases he : n = d.doc.name
      · simp [he]
      · simpa only [Function.update_of_ne he] using h
    · right
      rw [hqueue,htimers]
      exact h
  refine ⟨by rw [hreads],hremovals,happlied,?_,?_,by rw [hqueue],?_,hcoming,?_,?_⟩
  · intro n _
    simp only [World.write,hinc,if_true]
  · simp only [World.write,hinc,if_true]
  · rw [hqueue]
    exact fun _ _ h => h
  · intro n
    by_cases he : n = d.doc.name
    · right
      left
      rw [howed,he]
      simp
    · left
      rw [hdocs,Function.update_of_ne he]
  · intro n d' hd'
    rw [hdocs]
    by_cases he : n = d.doc.name
    · subst n
      rw [hd] at hd'
      cases hd'
      refine ⟨_,Function.update_self _ _ _,?_⟩
      simp only [Update.apply,hstate.1,hstate.2,Option.getD_none,and_self]
    · exact ⟨d',by rw [Function.update_of_ne he]; exact hd',rfl,rfl⟩

theorem others_of_rely (h : protocol.Rely .worker w w') : Others w w' := by
  rcases h with ⟨t,op,c,a,ht,hc,hexec⟩ | ⟨e,he⟩
  · have heffect : Effect w t op w' := exec_effect hexec
    cases t with
    | worker => exact absurd rfl ht
    | api i =>
      cases heffect with
      | idle => exact others_refl rfl rfl rfl rfl rfl rfl rfl (fun _ _ h => h) fun _ h => h
      | read =>
        refine others_refl ?_ rfl rfl rfl rfl rfl rfl (fun _ _ h => h) fun _ h => h
        simp [World.read]
      | insert hfree => exact others_insert hfree
      | write hd =>
        obtain ⟨hdocs,hname,-⟩ := matched_some hd
        obtain ⟨⟨r,-,-,-,hu⟩,-⟩ := hc
        exact others_command (hname ▸ hdocs) hu
      | enqueue =>
        exact others_refl rfl rfl rfl rfl rfl rfl (Queue.enqueueNow_inFlight _ _)
          (fun n hf hn => Queue.enqueueNow_followUps hf hn _) fun n h => coming_enqueue h _
      | _ => exact hc.elim
  · cases e with
    | send n =>
      obtain ⟨q,hq,rfl⟩ := Option.map_eq_some_iff.mp he
      obtain ⟨-,hfollow,hflight⟩ := Queue.send_frame hq
      refine others_refl rfl rfl rfl rfl rfl rfl hflight ?_ ?_
      · intro m _ hm
        rw [hfollow]
        exact hm
      · intro m h
        exact h.imp_right fun h => h.imp_left (Queue.pending_send hq m).mpr
    | fire item =>
      change w.tick (.fire item) = some w' at he
      simp only [tick] at he
      split at he
      · cases he
        exact others_refl rfl rfl rfl rfl rfl rfl (Queue.enqueueNow_inFlight _ _)
          (fun n hf hn => Queue.enqueueNow_followUps hf hn _) fun n h => coming_fire h item
      · cases he
    | recover n =>
      cases he
      exact others_refl rfl rfl rfl rfl rfl rfl (Queue.enqueueNow_inFlight _ _)
        (fun n hf hn => Queue.enqueueNow_followUps hf hn _) fun n h => coming_enqueueNow h _

/-- Nobody else changes a thread's record of its last read. -/
theorem reads_of_rely {t : Tid} (h : protocol.Rely t w w') : w'.reads t = w.reads t := by
  rcases h with ⟨t',op,c,a,ht,-,hexec⟩ | ⟨e,he⟩
  · exact (exec_effect hexec).reads_other (Ne.symm ht)
  · change w.tick e = some w' at he
    cases e with
    | send n =>
      obtain ⟨q,-,rfl⟩ := Option.map_eq_some_iff.mp he
      rfl
    | fire item =>
      simp only [tick] at he
      split at he
      · cases he
        rfl
      · cases he
    | recover n =>
      cases he
      rfl

end Dominion.Deploy.World
