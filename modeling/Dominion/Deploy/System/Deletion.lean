import Dominion.Deploy.System.Runs

/-! # Deletion

`SetDesiredPresent` refuses an Absent environment, and the generation filter makes the document
written the one that was read, as long as the name was not removed and created in between. -/
namespace Dominion.Deploy

open Dominion.Framework Dominion.Deploy.Domain World

namespace World

variable {w w' : World} {t : Tid} {op : Call} {c : Choice} {n : EnvironmentName} {d : Stored}

/-- An incarnation that has been Absent is Absent, in the store and in every read. -/
structure Absorbed (w : World) : Prop where
  docs : ∀ n d, w.docs n = some d → w.everAbsent n = true → d.doc.status.desired = .absent
  reads : ∀ t r, w.reads t = some r → r.everAbsent = true → r.stored.doc.status.desired = .absent

/-- An update that sets Present and matches a document, by a thread that read an incarnation removed
since. -/
def presentsReplaced (w : World) (t : Tid) (op : Call) : Bool :=
  match op,w.reads t with
  | .updateOne f u,some r => decide (u.desired = some .present) && (w.matched f).isSome &&
      decide (w.removals f.name ≠ r.removals)
  | _,_ => false

private theorem absorbed_read (h : w.Absorbed) (t : Tid) (n : EnvironmentName) :
    (w.read t n).Absorbed := by
  refine ⟨h.docs,?_⟩
  intro t' r hr hever
  by_cases ht : t' = t
  · subst t'
    simp only [World.read,Function.update_self,Option.map_eq_some_iff] at hr
    obtain ⟨d,hd,rfl⟩ := hr
    exact h.docs n d hd hever
  · simp only [World.read,Function.update_of_ne ht] at hr
    exact h.reads t' r hr hever

private theorem absorbed_insert {doc : MongoEnvironment} (h : w.Absorbed) :
    (w.insert doc).Absorbed := by
  refine ⟨?_,h.reads⟩
  intro n d hd hever
  by_cases hn : n = doc.name
  · subst n
    simp only [World.insert,Function.update_self,Option.some.injEq,decide_eq_true_eq] at hd hever
    subst d
    exact hever
  · simp only [World.insert,Function.update_of_ne hn] at hd hever
    exact h.docs n d hd hever

private theorem absorbed_remove (h : w.Absorbed) (m : EnvironmentName) :
    (w.remove m).Absorbed := by
  refine ⟨?_,h.reads⟩
  intro n d hd hever
  by_cases hn : n = m
  · simp only [World.remove,hn,Function.update_self,reduceCtorEq] at hd
  · simp only [World.remove,Function.update_of_ne hn] at hd
    exact h.docs n d hd hever

/-- What a write under its contract leaves of an incarnation that has been Absent. -/
private theorem absorbed_apply {f : Filter} {u : Update} (hi : w.Inv) (h : w.Absorbed)
    (hd : w.matched f = some d) (hc : contract t (.updateOne f u) w)
    (hnot : w.presentsReplaced t (.updateOne f u) = false)
    (hever : (w.write d u).everAbsent d.doc.name = true) :
    (u.apply d.doc).status.desired = .absent := by
  obtain ⟨hdocs,hname,hgen,-⟩ := matched_some hd
  rw [(write_history w d u _).2] at hever
  cases t with
  | worker =>
    obtain ⟨env,st,-,-,rfl,-⟩ := hc
    have hbefore : w.everAbsent d.doc.name = true := by
      simpa [MongoRepository.statusUpdate] using hever
    exact h.docs _ d (hname ▸ hdocs) hbefore
  | api i =>
    obtain ⟨⟨r,hr,hrname,hrgen,hcommand⟩,-⟩ := hc
    cases hcommand with
    | absent => rfl
    | present hpresent _ =>
      -- The document written is the one read, so it was not Absent.
      exfalso
      have hbefore : w.everAbsent d.doc.name = true := by
        simpa [MongoRepository.desiredUpdate] using hever
      have hsame : w.removals r.stored.doc.name = r.removals := by
        simpa [presentsReplaced,hr,hd,MongoRepository.desiredUpdate,hrname] using hnot
      obtain ⟨e,he,hdesc⟩ := (hi.reads _ r hr).same hsame
      rw [hrname,hdocs] at he
      cases he
      have hdesired := (hdesc.unwritten (hgen.trans hrgen.symm)).2.1
      rw [h.docs _ d (hname ▸ hdocs) hbefore] at hdesired
      exact hpresent hdesired.symm

private theorem absorbed_write {f : Filter} {u : Update} (hi : w.Inv) (h : w.Absorbed)
    (hd : w.matched f = some d) (hc : contract t (.updateOne f u) w)
    (hnot : w.presentsReplaced t (.updateOne f u) = false) : (w.write d u).Absorbed := by
  obtain ⟨hdocs,-,-,hreads,-⟩ := write_frame w d u
  refine ⟨?_,hreads ▸ h.reads⟩
  intro n e he hever
  rw [hdocs] at he
  by_cases hn : n = d.doc.name
  · subst n
    rw [Function.update_self] at he
    cases he
    exact absorbed_apply hi h hd hc hnot hever
  · rw [Function.update_of_ne hn] at he
    rw [(write_history w d u n).2] at hever
    exact h.docs n e he (by simpa [hn] using hever)

theorem absorbed_effect (hi : w.Inv) (h : w.Absorbed) (hc : contract t op w)
    (he : Effect w t op w') (hnot : w.presentsReplaced t op = false) : w'.Absorbed := by
  cases he with
  | read => exact absorbed_read h _ _
  | insert hfree => exact absorbed_insert h
  | write hd => exact absorbed_write hi h hd hc hnot
  | remove hd => exact absorbed_remove h _
  | _ => exact ⟨h.docs,h.reads⟩

/-- A stored document is removed, or stays the same incarnation. -/
theorem effect_docs (he : Effect w t op w') (hd : w.docs n = some d) :
    (op = .deleteOne n ∧ w'.docs n = none ∧ w'.removals n = w.removals n + 1) ∨
    ∃ d', w'.docs n = some d' ∧ d'.id = d.id ∧ w'.removals n = w.removals n ∧
      (w.everAbsent n = true → w'.everAbsent n = true) := by
  cases he with
  | insert hfree =>
    rename_i doc
    have hn : n ≠ doc.name := by
      rintro rfl
      rw [hfree] at hd
      cases hd
    refine Or.inr ⟨d,?_,rfl,rfl,?_⟩
    · simpa only [World.insert,Function.update_of_ne hn] using hd
    · simp only [World.insert,Function.update_of_ne hn]
      exact id
  | write hm =>
    rename_i f u e
    obtain ⟨hdocs,-,hremovals,-⟩ := write_frame w e u
    have hever : w.everAbsent n = true → (w.write e u).everAbsent n = true := by
      intro ha
      rw [(write_history w e u n).2,ha]
      rfl
    right
    rw [hdocs,hremovals]
    by_cases hn : n = e.doc.name
    · subst n
      obtain ⟨hdocs',hname,-⟩ := matched_some hm
      rw [hname,hdocs'] at hd
      cases hd
      exact ⟨_,Function.update_self _ _ _,rfl,rfl,hever⟩
    · exact ⟨d,by rw [Function.update_of_ne hn]; exact hd,rfl,rfl,hever⟩
  | remove hm =>
    rename_i m e
    by_cases hn : n = m
    · subst n
      refine Or.inl ⟨rfl,?_,?_⟩ <;> simp only [World.remove,Function.update_self]
    · refine Or.inr ⟨d,?_,rfl,?_,id⟩ <;> simp only [World.remove,Function.update_of_ne hn]
      exact hd
  | _ => exact Or.inr ⟨d,hd,rfl,rfl,id⟩

theorem effect_removals_le (he : Effect w t op w') (n : EnvironmentName) :
    w.removals n ≤ w'.removals n := by
  cases he with
  | write hm => exact Nat.le_of_eq (congrFun (write_frame _ _ _).2.2.1 n).symm
  | remove hm =>
    rename_i m e
    by_cases hn : n = m
    · subst n
      simp only [World.remove,Function.update_self]
      exact Nat.le_succ _
    · simp only [World.remove,Function.update_of_ne hn]
      exact Nat.le_refl _
  | _ => exact Nat.le_refl _

end World

namespace Service

variable {maxRetries : Nat} {s s' : Service} {l : Label} {n : EnvironmentName} {d : Stored}

/-- No Update is made on the strength of an incarnation that was removed since. -/
def UpdatesRead : Service → Label → Prop :=
  Without presentsReplaced

private theorem absorbed_of_reachUnder (h : (system maxRetries).ReachUnder UpdatesRead s) :
    s.world.Absorbed := by
  refine world_of_without ?_ ?_ ?_ (fun w q timers h => ⟨h.docs,h.reads⟩) h
  · intro w t op hpick
    cases op with
    | updateOne f u => exact ⟨f,u,rfl⟩
    | _ => cases hpick
  · refine ⟨?_,?_⟩
    · intro n d hd
      cases hd
    · intro t r hr
      cases hr
  · intro w t op w' hi h hc he hpick
    exact absorbed_effect hi h hc he hpick

/-- The document of a name is removed by the step, or stays the same incarnation. -/
private theorem step_docs (h : (system maxRetries).Reach s)
    (hstep : (system maxRetries).step s l = some s') (hd : s.world.docs n = some d) :
    (s'.world.docs n = none ∧ s'.world.removals n = s.world.removals n + 1 ∧
      ∃ t c, l = .call t c ∧ contract t (.deleteOne n) s.world) ∨
    ∃ d', s'.world.docs n = some d' ∧ d'.id = d.id ∧
      s'.world.removals n = s.world.removals n ∧
      (s.world.everAbsent n = true → s'.world.everAbsent n = true) := by
  rcases step_cases h hstep with
    ⟨-,hsame⟩ | ⟨t,c,op,a,rfl,hnext,hc,hexec⟩ | ⟨e,rfl,he⟩
  · rw [hsame]
    exact Or.inr ⟨d,hd,rfl,rfl,id⟩
  · rcases effect_docs (exec_effect hexec) hd with
      ⟨rfl,hgone,hcount⟩ | hkept
    · exact Or.inl ⟨hgone,hcount,t,c,rfl,hc⟩
    · exact Or.inr hkept
  · obtain ⟨q,timers,hw⟩ := tick_frame he
    rw [hw]
    exact Or.inr ⟨d,hd,rfl,rfl,id⟩

private theorem removals_le (h : (system maxRetries).Reach s)
    (hstep : (system maxRetries).step s l = some s') (n : EnvironmentName) :
    s.world.removals n ≤ s'.world.removals n := by
  rcases step_cases h hstep with
    ⟨-,hsame⟩ | ⟨t,c,op,a,rfl,hnext,hc,hexec⟩ | ⟨e,rfl,he⟩
  · exact Nat.le_of_eq (by rw [hsame])
  · exact effect_removals_le (exec_effect hexec) n
  · obtain ⟨q,timers,hw⟩ := tick_frame he
    exact Nat.le_of_eq (by rw [hw])

/-- An Absent document stays Absent along a run, up to its removal. -/
private theorem absent_of_path (h : (system maxRetries).ReachUnder UpdatesRead s)
    (hpath : Relation.ReflTransGen ((system maxRetries).StepUnder UpdatesRead) s s')
    (hd : s.world.docs n = some d) (habsent : d.doc.status.desired = .absent) :
    s.world.removals n ≤ s'.world.removals n ∧
    (s'.world.removals n = s.world.removals n →
      ∃ d', s'.world.docs n = some d' ∧ d'.id = d.id ∧ d'.doc.status.desired = .absent) := by
  induction hpath with
  | refl => exact ⟨Nat.le_refl _,fun _ => ⟨d,hd,rfl,habsent⟩⟩
  | tail hpath hstep ih =>
    rename_i b c
    obtain ⟨hle,hkept⟩ := ih
    have hb := h.trans hpath
    have hc := hb.trans (.single hstep)
    obtain ⟨l,-,hl⟩ := hstep
    have hmono := removals_le hb.reach hl n
    refine ⟨Nat.le_trans hle hmono,?_⟩
    intro hsame
    obtain ⟨e,he,hid,heabsent⟩ := hkept (by omega)
    rcases step_docs hb.reach hl he with ⟨-,hcount,-⟩ | ⟨e',he',hid',-,hever⟩
    · omega
    · have hok := (inv_of_reach hb.reach).docs n e he
      exact ⟨e',he',hid'.trans hid,
        (absorbed_of_reachUnder hc).docs n e' he' (hever (hok.absent heabsent))⟩

/-- What the worker removes is Absent and Deleting, after a runtime `Delete` succeeded. -/
private theorem removed_safe (h : (system maxRetries).ReachUnder UpdatesRead s)
    (hstep : (system maxRetries).step s l = some s') (hd : s.world.docs n = some d)
    (hgone : s'.world.docs n = none) : ∃ c, l = .call .worker c ∧
      d.doc.status.desired = .absent ∧ d.doc.status.state = .deleting ∧
      s.world.deleted n = true := by
  have hi := inv_of_reach h.reach
  rcases step_docs h.reach hstep hd with ⟨-,-,t,c,rfl,hc⟩ | ⟨d',hd',-⟩
  · cases t with
    | api i => exact hc.elim
    | worker =>
      obtain ⟨env,hload,rfl,hdesired,hdeleting,hdeleted⟩ := hc
      obtain ⟨r,e,hr,hsnap,he,hdesc,hstate⟩ := hload.stored hi
      rw [hd] at he
      cases he
      have hread : r.stored.doc.status.desired = .absent := by rw [hsnap.status,hdesired]
      have hever := hdesc.everAbsent ((hi.reads _ r hr).absent hread)
      rw [hsnap.name] at hever
      exact ⟨c,rfl,(absorbed_of_reachUnder h).docs _ d hd hever,hstate.trans hdeleting,hdeleted⟩
  · rw [hgone] at hd'
    cases hd'

/-- No environment is applied that was loaded after it became Absent. -/
private theorem applied_loaded {env : Environment}
    (h : (system maxRetries).ReachUnder UpdatesRead s)
    (hnext : s.next .worker = some (.applyResources env)) :
    ∃ r, s.world.reads .worker = some r ∧ Snapshot r env ∧ r.everAbsent = false := by
  have hc : contract .worker (.applyResources env) s.world :=
    (outlined_of_reach h.reach).contract hnext
  obtain ⟨hload,hpresent,-⟩ := hc
  obtain ⟨r,hr,hsnap,-⟩ := hload.read
  refine ⟨r,hr,hsnap,?_⟩
  by_contra hne
  have habsent := (absorbed_of_reachUnder h).reads _ r hr (by simpa using hne)
  rw [hsnap.status,hpresent] at habsent
  cases habsent

/-- In the runs in which no Update is made on the strength of a removed incarnation: an Absent
document stays Absent until it is removed; only the worker removes it, Absent and Deleting and
after a successful runtime `Delete`; and what is applied was loaded before it became Absent. -/
theorem deletion_safe (h : (system maxRetries).ReachUnder UpdatesRead s) :
    (∀ s' n d, Relation.ReflTransGen ((system maxRetries).StepUnder UpdatesRead) s s' →
      s.world.docs n = some d → d.doc.status.desired = .absent →
      s'.world.removals n = s.world.removals n →
      ∃ d', s'.world.docs n = some d' ∧ d'.id = d.id ∧ d'.doc.status.desired = .absent) ∧
    (∀ l s' n d, (system maxRetries).step s l = some s' → s.world.docs n = some d →
      s'.world.docs n = none → ∃ c, l = .call .worker c ∧ d.doc.status.desired = .absent ∧
        d.doc.status.state = .deleting ∧ s.world.deleted n = true) ∧
    ∀ env, s.next .worker = some (.applyResources env) →
      ∃ r, s.world.reads .worker = some r ∧ Snapshot r env ∧ r.everAbsent = false := by
  refine ⟨?_,?_,?_⟩
  · intro s' n d hpath hd habsent hsame
    exact (absent_of_path h hpath hd habsent).2 hsame
  · intro l s' n d hstep hd hgone
    exact removed_safe h hstep hd hgone
  · intro env hnext
    exact applied_loaded h hnext

/-- The document of the concrete runs has the desired state `desired`. -/
def desires (s : Service) (desired : EnvironmentDesired) : Bool :=
  (s.world.docs demoName).any fun d => d.doc.status.desired == desired

theorem deletion_safe_demo : ∃ (s s' : Service) (d d' : Stored),
    s.world.docs demoName = some d ∧ d.doc.status.desired = .absent ∧
      s'.world.docs demoName = some d' ∧ d'.id = d.id ∧ d'.doc.status.desired = .absent := by
  let c : Service → Label → Bool := fun s l => !s.makes presentsReplaced l
  have hc : ∀ s l, c s l = true → s.UpdatesRead l := fun s l h => by
    simpa [c,UpdatesRead,Without] using h
  obtain ⟨s,hs,hrun⟩ := reachUnder_of_run Worker.defaultMaxRetries
    (p := presentsReplaced) (q := fun s => s.desires .absent &&
      ((system Worker.defaultMaxRetries).runUnder c s
        (iterateLabels demoName (List.replicate 4 .done))).any
          fun s' => s'.world.removals demoName == s.world.removals demoName)
    (createLabels 0 demoName demoEmpty ++ deleteLabels 1 demoName) (by decide)
  simp only [desires,Option.any_eq_true,Bool.and_eq_true,beq_iff_eq] at hrun
  obtain ⟨⟨d,hd,habsent⟩,s',hs',hsame⟩ := hrun
  have hpath := Lts.path_of_runUnder hc _ hs'
  obtain ⟨d',hd',hid,habsent'⟩ := (deletion_safe hs).1 s' demoName d hpath hd habsent hsame
  exact ⟨s,s',d,d',hd,habsent,hd',hid,habsent'⟩

/-- An Update reads generation 2 of an environment that is then deleted, removed, created and
deleted again, and still stands before its write. -/
def staleUpdateLabels : List Label :=
  createLabels 0 demoName demoEmpty ++ updateLabels 1 demoName demoCache ++
    updateReadLabels 2 demoName demoEmpty ++ deleteLabels 3 demoName ++
    iterateLabels demoName (List.replicate 4 .done) ++
    iterateLabels demoName (List.replicate 4 .done) ++
    createLabels 4 demoName demoEmpty ++ deleteLabels 5 demoName

theorem deleted_revived : ¬∀ s l s' n d d', (system Worker.defaultMaxRetries).Reach s →
    (system Worker.defaultMaxRetries).step s l = some s' → s.world.docs n = some d →
    d.doc.status.desired = .absent → s'.world.docs n = some d' →
    d'.doc.status.desired = .absent := by
  intro h
  obtain ⟨s,hs,hrun⟩ := Lts.reach_of_run_any (M := system Worker.defaultMaxRetries)
    (p := fun s => s.desires .absent && ((system Worker.defaultMaxRetries).step s
      (.call (.api 2) .done)).any fun s' => s'.desires .present)
    staleUpdateLabels initial_reach (by decide)
  simp only [desires,Option.any_eq_true,Bool.and_eq_true,beq_iff_eq] at hrun
  obtain ⟨⟨d,hd,habsent⟩,s',hs',d',hd',hpresent⟩ := hrun
  have habsent' := h s _ s' demoName d d' hs hs' hd habsent hd'
  rw [hpresent] at habsent'
  cases habsent'

end Service

end Dominion.Deploy
