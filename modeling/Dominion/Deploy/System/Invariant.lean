import Dominion.Framework.RelyGuarantee
import Dominion.Deploy.System.Effect

/-! # The invariant and the contracts of the deploy service

The invariant relates each stored document, and each thread's last read of it, to the history of
its name: a read of the stored incarnation is behind it by the generations written since. -/
namespace Dominion.Deploy.World

open Dominion.Framework Dominion.Deploy.Domain

/-- What holds of every stored document. -/
structure DocOk (w : World) (n : EnvironmentName) (d : Stored) : Prop where
  name : d.doc.name = n
  fresh : d.id < w.nextId
  wellFormed : d.doc.desiredState.WellFormed
  observed : d.doc.status.observedGeneration ≤ d.doc.generation
  state : d.doc.status.state ≠ .unspecified
  absent : d.doc.status.desired = .absent → w.everAbsent n = true

/-- The stored document is the incarnation that was read, and what was written since. -/
structure Descends (w : World) (r : Read) (d : Stored) : Prop where
  id : d.id = r.stored.id
  generation : r.stored.doc.generation ≤ d.doc.generation
  unwritten : d.doc.generation = r.stored.doc.generation →
    w.writes r.stored.doc.name = r.writes ∧
    d.doc.status.desired = r.stored.doc.status.desired ∧
    d.doc.desiredState = r.stored.doc.desiredState
  everAbsent : r.everAbsent = true → w.everAbsent r.stored.doc.name = true

/-- What holds of every thread's last read. -/
structure ReadOk (w : World) (r : Read) : Prop where
  fresh : r.stored.id < w.nextId
  wellFormed : r.stored.doc.desiredState.WellFormed
  absent : r.stored.doc.status.desired = .absent → r.everAbsent = true
  removals : r.removals ≤ w.removals r.stored.doc.name
  same : w.removals r.stored.doc.name = r.removals →
    ∃ d, w.docs r.stored.doc.name = some d ∧ Descends w r d
  replaced : r.removals < w.removals r.stored.doc.name →
    ∀ d, w.docs r.stored.doc.name = some d → d.id ≠ r.stored.id

structure Inv (w : World) : Prop where
  docs : ∀ n d, w.docs n = some d → DocOk w n d
  reads : ∀ t r, w.reads t = some r → ReadOk w r

theorem inv_initial : Inv initial where
  docs n d h := by cases h
  reads t r h := by cases h

theorem DocOk.congr {w w' : World} {n : EnvironmentName} {d : Stored} (h : DocOk w n d)
    (hnext : w.nextId ≤ w'.nextId) (hever : w.everAbsent n = true → w'.everAbsent n = true) :
    DocOk w' n d :=
  ⟨h.name,Nat.lt_of_lt_of_le h.fresh hnext,h.wellFormed,h.observed,h.state,
    fun ha => hever (h.absent ha)⟩

/-- A read is unaffected by a step that leaves its name alone. -/
theorem ReadOk.congr {w w' : World} {r : Read} (h : ReadOk w r) (hnext : w.nextId ≤ w'.nextId)
    (hdocs : w'.docs r.stored.doc.name = w.docs r.stored.doc.name)
    (hwrites : w'.writes r.stored.doc.name = w.writes r.stored.doc.name)
    (hremovals : w'.removals r.stored.doc.name = w.removals r.stored.doc.name)
    (hever : w'.everAbsent r.stored.doc.name = w.everAbsent r.stored.doc.name) : ReadOk w' r := by
  refine ⟨Nat.lt_of_lt_of_le h.fresh hnext,h.wellFormed,h.absent,hremovals ▸ h.removals,?_,?_⟩
  · rw [hremovals,hdocs]
    intro hsame
    obtain ⟨d,hd,hdesc⟩ := h.same hsame
    exact ⟨d,hd,hdesc.id,hdesc.generation,hwrites ▸ hdesc.unwritten,hever ▸ hdesc.everAbsent⟩
  · rw [hremovals,hdocs]
    exact h.replaced

/-- The invariant only looks at the store and its history. -/
theorem Inv.congr {w w' : World} (h : Inv w) (hdocs : w'.docs = w.docs)
    (hnext : w'.nextId = w.nextId) (hwrites : w'.writes = w.writes)
    (hremovals : w'.removals = w.removals) (hever : w'.everAbsent = w.everAbsent)
    (hreads : w'.reads = w.reads) : Inv w' := by
  refine ⟨?_,?_⟩
  · intro n d hd
    rw [hdocs] at hd
    exact (h.docs n d hd).congr (Nat.le_of_eq hnext.symm) (by rw [hever]; exact id)
  · intro t r hr
    rw [hreads] at hr
    exact (h.reads t r hr).congr (Nat.le_of_eq hnext.symm) (by rw [hdocs]) (by rw [hwrites])
      (by rw [hremovals]) (by rw [hever])

/-- A status of a new environment. -/
structure Fresh (doc : MongoEnvironment) : Prop where
  status : doc.status = { desired := .present, state := .pending }
  generation : doc.generation = 1
  wellFormed : doc.desiredState.WellFormed

/-- The updates the service's writers make. -/
structure Admissible (d : Stored) (u : Update) : Prop where
  wellFormed : ∀ ds, u.desiredState = some ds → ds.WellFormed
  observed : ∀ g, u.observedGeneration = some g → g ≤ d.doc.generation
  state : u.state ≠ some .unspecified
  desired : u.incGeneration = false → u.desired = none ∧ u.desiredState = none

variable {w : World} {n : EnvironmentName} {d : Stored} {u : Update} {doc : MongoEnvironment}

theorem inv_read (h : Inv w) (t : Tid) (n : EnvironmentName) : Inv (w.read t n) := by
  refine ⟨fun m d hd => (h.docs m d hd).congr (Nat.le_refl _) id,?_⟩
  intro t' r hr
  by_cases he : t' = t
  · subst t'
    simp only [World.read,Function.update_self,Option.map_eq_some_iff] at hr
    obtain ⟨d,hd,rfl⟩ := hr
    obtain ⟨rfl,hfresh,hnorm,-,-,habsent⟩ := h.docs n d hd
    refine ⟨hfresh,hnorm,habsent,Nat.le_refl _,?_,?_⟩
    · intro _
      exact ⟨d,hd,rfl,Nat.le_refl _,fun _ => ⟨rfl,rfl,rfl⟩,id⟩
    · intro hlt
      exact absurd hlt (Nat.lt_irrefl _)
  · simp only [World.read,Function.update_of_ne he] at hr
    exact (h.reads t' r hr).congr (Nat.le_refl _) rfl rfl rfl rfl

theorem inv_insert (h : Inv w) (hfree : w.docs doc.name = none) (hdoc : Fresh doc) :
    Inv (w.insert doc) := by
  refine ⟨?_,?_⟩
  · intro n d hd
    by_cases he : n = doc.name
    · subst n
      simp only [insert,Function.update_self,Option.some.injEq] at hd
      subst d
      refine ⟨rfl,Nat.lt_succ_self _,hdoc.wellFormed,?_,?_,?_⟩
      · rw [hdoc.status]
        exact Nat.zero_le _
      · rw [hdoc.status]
        simp
      · intro ha
        simp only [insert,Function.update_self,decide_eq_true_eq]
        exact ha
    · simp only [insert,Function.update_of_ne he] at hd
      refine (h.docs n d hd).congr (Nat.le_succ _) ?_
      simp only [insert,Function.update_of_ne he]
      exact id
  · intro t r hr
    have hread := h.reads t r hr
    by_cases he : r.stored.doc.name = doc.name
    · refine ⟨Nat.lt_succ_of_lt hread.fresh,hread.wellFormed,hread.absent,hread.removals,?_,?_⟩
      · intro hsame
        obtain ⟨d,hd,-⟩ := hread.same hsame
        rw [he,hfree] at hd
        cases hd
      · intro _ d hd
        rw [he] at hd
        simp only [insert,Function.update_self,Option.some.injEq] at hd
        subst d
        exact Nat.ne_of_gt hread.fresh
    · refine hread.congr (Nat.le_succ _) ?_ ?_ rfl ?_
      all_goals simp only [insert,Function.update_of_ne he]

theorem inv_remove (h : Inv w) (n : EnvironmentName) : Inv (w.remove n) := by
  refine ⟨?_,?_⟩
  · intro m d hd
    by_cases he : m = n
    · simp only [remove,he,Function.update_self,reduceCtorEq] at hd
    · simp only [remove,Function.update_of_ne he] at hd
      exact (h.docs m d hd).congr (Nat.le_refl _) id
  · intro t r hr
    have hread := h.reads t r hr
    by_cases he : r.stored.doc.name = n
    · have hgone : (w.remove n).docs r.stored.doc.name = none := by
        simp only [remove,he,Function.update_self]
      have hcount : (w.remove n).removals r.stored.doc.name =
          w.removals r.stored.doc.name + 1 := by
        simp only [remove,he,Function.update_self]
      have hle := hread.removals
      refine ⟨hread.fresh,hread.wellFormed,hread.absent,by omega,?_,?_⟩
      · intro hsame
        omega
      · intro _ d hd
        rw [hgone] at hd
        cases hd
    · refine hread.congr (Nat.le_refl _) ?_ ?_ ?_ rfl
      all_goals simp only [remove,Function.update_of_ne he]

/-- What a write leaves alone and what it counts. -/
theorem write_frame (w : World) (d : Stored) (u : Update) :
    (w.write d u).docs = Function.update w.docs d.doc.name (some ⟨d.id,u.apply d.doc⟩) ∧
    (w.write d u).nextId = w.nextId ∧ (w.write d u).removals = w.removals ∧
    (w.write d u).reads = w.reads ∧ (w.write d u).applied = w.applied ∧
    (w.write d u).queue = w.queue ∧ (w.write d u).timers = w.timers := by
  unfold write
  dsimp only
  split <;> exact ⟨rfl,rfl,rfl,rfl,rfl,rfl,rfl⟩

theorem write_history (w : World) (d : Stored) (u : Update) (m : EnvironmentName) :
    (w.write d u).writes m =
      (if m = d.doc.name ∧ u.incGeneration then w.writes m + 1 else w.writes m) ∧
    (w.write d u).everAbsent m = (w.everAbsent m ||
      (decide (m = d.doc.name) && u.incGeneration && decide (u.desired = some .absent))) := by
  unfold write
  dsimp only
  by_cases hm : m = d.doc.name
  · subst m
    cases hi : u.incGeneration <;> simp
  · cases hi : u.incGeneration <;> simp [hm]

private theorem docOk_write (h : DocOk w n d) (hu : Admissible d u) :
    DocOk (w.write d u) n ⟨d.id,u.apply d.doc⟩ := by
  obtain ⟨-,hnext,-⟩ := write_frame w d u
  refine ⟨h.name,hnext ▸ h.fresh,?_,?_,?_,?_⟩
  · cases hds : u.desiredState with
    | none => simpa [Update.apply,hds] using h.wellFormed
    | some ds => simpa [Update.apply,hds] using hu.wellFormed ds hds
  · have hgen : d.doc.generation ≤ (u.apply d.doc).generation := by
      simp only [Update.apply]
      split <;> omega
    cases hobs : u.observedGeneration with
    | none => simpa [Update.apply,hobs] using Nat.le_trans h.observed hgen
    | some g => simpa [Update.apply,hobs] using Nat.le_trans (hu.observed g hobs) hgen
  · cases hs : u.state with
    | none => simpa [Update.apply,hs] using h.state
    | some s =>
      have hne := hu.state
      rw [hs] at hne
      simpa [Update.apply,hs] using hne
  · intro ha
    rw [(write_history w d u n).2]
    cases hi : u.incGeneration with
    | false =>
      simp only [Update.apply,(hu.desired hi).1,Option.getD_none] at ha
      rw [h.absent ha]
      rfl
    | true =>
      cases hd : u.desired with
      | none =>
        simp only [Update.apply,hd,Option.getD_none] at ha
        rw [h.absent ha]
        rfl
      | some desired =>
        simp only [Update.apply,hd,Option.getD_some] at ha
        simp [ha,h.name]

private theorem descends_write {r : Read} (h : Descends w r d)
    (hu : Admissible d u) : Descends (w.write d u) r ⟨d.id,u.apply d.doc⟩ := by
  refine ⟨h.id,?_,?_,?_⟩
  · have hgen := h.generation
    simp only [Update.apply]
    split <;> omega
  · intro hsame
    have hgen := h.generation
    cases hi : u.incGeneration with
    | true =>
      simp only [Update.apply,hi,if_true] at hsame
      omega
    | false =>
      simp only [Update.apply,hi,Bool.false_eq_true,if_false] at hsame
      obtain ⟨hwrites,hdesired,hds⟩ := h.unwritten hsame
      obtain ⟨hd1,hd2⟩ := hu.desired hi
      refine ⟨?_,?_,?_⟩
      · rw [(write_history w d u _).1,if_neg (by simp [hi])]
        exact hwrites
      · simpa only [Update.apply,hd1,Option.getD_none] using hdesired
      · simpa only [Update.apply,hd2,Option.getD_none] using hds
  · intro he
    rw [(write_history w d u _).2,h.everAbsent he]
    rfl

theorem inv_write (h : Inv w) (hd : w.docs d.doc.name = some d) (hu : Admissible d u) :
    Inv (w.write d u) := by
  obtain ⟨hdocs,hnext,hremovals,hreads,-⟩ := write_frame w d u
  refine ⟨?_,?_⟩
  · intro n d' hd'
    rw [hdocs] at hd'
    by_cases he : n = d.doc.name
    · subst n
      simp only [Function.update_self,Option.some.injEq] at hd'
      subst d'
      exact docOk_write (h.docs _ d hd) hu
    · rw [Function.update_of_ne he] at hd'
      refine (h.docs n d' hd').congr (Nat.le_of_eq hnext.symm) ?_
      intro ha
      rw [(write_history w d u n).2,ha]
      rfl
  · intro t r hr
    rw [hreads] at hr
    have hread := h.reads t r hr
    by_cases he : r.stored.doc.name = d.doc.name
    · refine ⟨hnext ▸ hread.fresh,hread.wellFormed,hread.absent,hremovals ▸ hread.removals,?_,?_⟩
      · rw [hremovals,hdocs,he]
        intro hsame
        obtain ⟨d',hd',hdesc⟩ := hread.same (he ▸ hsame)
        rw [he,hd] at hd'
        cases hd'
        exact ⟨_,Function.update_self _ _ _,descends_write hdesc hu⟩
      · rw [hremovals,hdocs,he]
        intro hlt d' hd'
        rw [Function.update_self] at hd'
        cases hd'
        exact hread.replaced (he ▸ hlt) d (he ▸ hd)
    · refine hread.congr (Nat.le_of_eq hnext.symm) ?_ ?_ ?_ ?_
      · rw [hdocs,Function.update_of_ne he]
      · rw [(write_history w d u _).1,if_neg (by simp [he])]
      · rw [hremovals]
      · rw [(write_history w d u _).2]
        simp [he]

end Dominion.Deploy.World
