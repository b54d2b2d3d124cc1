import Dominion.Deploy.System.Runs

/-! # The persisted life cycle against the domain state machine

The reconciler writes states straight through `TransitionStatus`.  Every write but one follows
`CanTransition`: `MarkRetryExhausted` writes Failed over whatever state it read. -/
namespace Dominion.Deploy

open Dominion.Framework Dominion.Deploy.Domain World

namespace World

variable {w w' : World} {t : Tid} {op : Call}

/-- Every state change of a stored document is a legal transition. -/
def LegalChanges (w w' : World) : Prop :=
  ∀ n d d', w.docs n = some d → w'.docs n = some d' →
    d'.doc.status.state ≠ d.doc.status.state →
    canTransition d.doc.status.state d'.doc.status.state = true

private theorem legalChanges_of_docs (h : w'.docs = w.docs) : LegalChanges w w' := by
  intro n d d' hd hd' hne
  rw [h,hd] at hd'
  cases hd'
  exact absurd rfl hne

/-- A status write is legal unless it is the exhausted write over a Deleting state. -/
private theorem statusStep_legal {env : Environment} {st : EnvironmentStatus}
    (h : w.StatusStep env st) (hstate : env.status.state ≠ .unspecified)
    (hexhaust : env.status.state = .deleting → st.state ≠ .failed)
    (hne : st.state ≠ env.status.state) :
    canTransition env.status.state st.state = true := by
  cases h with
  | reconcile _ hfrom hto _ => rcases hfrom with h | h | h <;> rw [h,hto] <;> rfl
  | await _ hfrom _ hto _ => rw [hfrom,hto]; rfl
  | conclude _ hfrom hto _ => rcases hto with h | h <;> rw [hfrom,h] <;> rfl
  | retain _ hfrom hto _ => exact absurd (hto.trans hfrom.symm) hne
  | delete _ hfrom hto _ =>
    rw [hto]
    cases hs : env.status.state <;> simp_all [canTransition,isActiveState]
  | exhaust hfrom hto _ =>
    rcases hfrom with h | h | h
    · rw [h,hto]; rfl
    · rw [h,hto]; rfl
    · exact absurd hto (hexhaust h)

/-- The states of a document before and after a write. -/
private theorem write_state {n : EnvironmentName} {d e e' : Stored} {u : Update}
    (hd : w.docs d.doc.name = some d) (he : w.docs n = some e)
    (he' : (w.write d u).docs n = some e') (hne : e'.doc.status.state ≠ e.doc.status.state) :
    e = d ∧ ∃ state, u.state = some state ∧ e'.doc.status.state = state := by
  rw [(write_frame w d u).1] at he'
  by_cases hn : n = d.doc.name
  · subst n
    rw [hd] at he
    rw [Function.update_self] at he'
    cases he
    cases he'
    refine ⟨rfl,?_⟩
    cases hu : u.state with
    | none => simp [Update.apply,hu] at hne
    | some state => exact ⟨state,rfl,by simp [Update.apply,hu]⟩
  · rw [Function.update_of_ne hn,he] at he'
    cases he'
    exact absurd rfl hne

/-- An update to Failed that matches a Deleting document. -/
def exhaustsDeleting (w : World) (_ : Tid) (op : Call) : Bool :=
  match op with
  | .updateOne f u => decide (u.state = some .failed) &&
      (w.matched f).any fun d => decide (d.doc.status.state = .deleting)
  | _ => false

theorem exhaustsDeleting_update (w : World) (t : Tid) (op : Call)
    (h : w.exhaustsDeleting t op = true) : ∃ f u, op = .updateOne f u := by
  cases op with
  | updateOne f u => exact ⟨f,u,rfl⟩
  | _ => cases h

theorem legalChanges_effect (hi : w.Inv) (hc : contract t op w) (he : Effect w t op w')
    (hnot : w.exhaustsDeleting t op = false) : LegalChanges w w' := by
  cases he with
  | insert hfree =>
    rename_i doc
    intro n e e' he he' hne
    by_cases hn : n = doc.name
    · subst n
      rw [hfree] at he
      cases he
    · simp only [World.insert,Function.update_of_ne hn,he] at he'
      cases he'
      exact absurd rfl hne
  | write hd =>
    rename_i f u d
    obtain ⟨hdocs,hname,-,hfrom⟩ := matched_some hd
    intro n e e' he he' hne
    obtain ⟨rfl,state,hu,hstate⟩ := write_state (hname ▸ hdocs) he he' hne
    cases t with
    | api i =>
      obtain ⟨⟨r,-,-,-,hcommand⟩,-⟩ := hc
      cases hcommand <;> cases hu
    | worker =>
      obtain ⟨env,st,-,rfl,rfl,hstep⟩ := hc
      have hstate' := hfrom _ rfl
      cases hu
      rw [hstate,hstate'] at hne
      rw [hstate,hstate']
      refine statusStep_legal hstep (hstate' ▸ (hi.docs n e he).state) ?_ hne
      intro hdel hfailed
      have hfrom' : (w.matched ⟨env.name,env.generation,some env.status.state⟩).any
          (fun d => decide (d.doc.status.state = .deleting)) = true :=
        (Option.any_eq_true _ _).mpr ⟨e,hd,decide_eq_true (hstate'.trans hdel)⟩
      have hto : decide ((MongoRepository.statusUpdate st).state = some .failed) = true :=
        decide_eq_true (congrArg some hfailed)
      rw [exhaustsDeleting,hfrom',hto] at hnot
      cases hnot
  | remove hd =>
    rename_i m d
    intro n e e' he he' hne
    by_cases hn : n = m
    · subst n
      simp only [World.remove,Function.update_self,reduceCtorEq] at he'
    · simp only [World.remove,Function.update_of_ne hn,he] at he'
      cases he'
      exact absurd rfl hne
  | _ => exact legalChanges_of_docs rfl

end World

namespace Service

variable {maxRetries : Nat} {s s' : Service} {l : Label}

/-- The step is the write of `MarkRetryExhausted` over a Deleting environment. -/
def exhaustsDeleting (s : Service) (l : Label) : Bool :=
  s.makes World.exhaustsDeleting l

private theorem illegal_of_exhausts (h : (system maxRetries).Reach s)
    (hstep : (system maxRetries).step s l = some s') (hexhausts : s.exhaustsDeleting l = true) :
    ¬LegalChanges s.world s'.world := by
  intro hlegal
  rcases step_cases h hstep with
    ⟨⟨t,r,rfl⟩ | ⟨t,rfl⟩,-⟩ | ⟨t,c,op,a,rfl,hnext,-,hexec⟩ | ⟨e,rfl,-⟩
  · cases hexhausts
  · cases hexhausts
  · simp only [exhaustsDeleting,makes,hnext,Option.any_some,Bool.and_eq_true] at hexhausts
    obtain ⟨heffect,hpick⟩ := hexhausts
    obtain ⟨f,u,rfl⟩ := exhaustsDeleting_update _ _ _ hpick
    simp only [World.exhaustsDeleting,Bool.and_eq_true,decide_eq_true_eq,
      Option.any_eq_true] at hpick
    obtain ⟨hu,d,hd,hdel⟩ := hpick
    have hw := exec_takesEffect hd hexec
    rw [if_pos heffect] at hw
    obtain ⟨hdocs,hname,-,-⟩ := matched_some hd
    have hd' : s'.world.docs d.doc.name = some ⟨d.id,u.apply d.doc⟩ := by
      rw [hw,(write_frame _ _ _).1,Function.update_self]
    have hstate : (u.apply d.doc).status.state = .failed := by
      simp [Update.apply,hu]
    have hlegal' := hlegal d.doc.name d _ (hname ▸ hdocs) hd' (by simp [hstate,hdel])
    rw [hdel,canTransition_deleting] at hlegal'
    cases hlegal'
  · cases hexhausts

/-- Every change of a persisted state is a transition of the domain state machine if and only if
the step is not the write of `MarkRetryExhausted` over a Deleting environment. -/
theorem legalChanges_iff (h : (system maxRetries).Reach s)
    (hstep : (system maxRetries).step s l = some s') :
    LegalChanges s.world s'.world ↔ s.exhaustsDeleting l = false := by
  constructor
  · intro hlegal
    by_contra hexhausts
    exact illegal_of_exhausts h hstep (by simpa using hexhausts) hlegal
  · intro hnot
    rcases step_cases h hstep with
      ⟨-,hsame⟩ | ⟨t,c,op,a,rfl,hnext,hc,hexec⟩ | ⟨e,rfl,htick⟩
    · rw [hsame]
      exact legalChanges_of_docs rfl
    · rcases Without.call hnot exhaustsDeleting_update hnext hexec with hsame | hpick
      · rw [hsame]
        exact legalChanges_of_docs rfl
      · exact legalChanges_effect (inv_of_reach h) hc (exec_effect hexec) hpick
    · obtain ⟨q,timers,he⟩ := tick_frame htick
      rw [he]
      exact legalChanges_of_docs rfl

theorem legalChanges_demo : ∃ s s', (system Worker.defaultMaxRetries).step s (.call .worker .done) =
    some s' ∧ (LegalChanges s.world s'.world ↔ s.exhaustsDeleting (.call .worker .done) = false) := by
  obtain ⟨s,hs,hsome⟩ := Lts.reach_of_run_any (M := system Worker.defaultMaxRetries)
    (p := fun s => ((system Worker.defaultMaxRetries).step s (.call .worker .done)).isSome)
    (createLabels 0 demoName demoEmpty ++ iterateLabels demoName [.done]) initial_reach
    (by decide)
  obtain ⟨s',hs'⟩ := Option.isSome_iff_exists.mp hsome
  exact ⟨s,s',hs',legalChanges_iff hs hs'⟩

/-- The worker loads the Deleting environment, and the runtime `Delete` fails. -/
def failedDelete : List Choice :=
  [.done,.runtimeErr (.new "apiserver unavailable"),.done]

/-- An environment is deleted, and the runtime `Delete` fails until the retries are exhausted. -/
def exhaustedLabels : List Label :=
  createLabels 0 demoName demoEmpty ++ deleteLabels 1 demoName ++
    iterateLabels demoName (List.replicate 4 .done) ++
    (List.range Worker.defaultMaxRetries).flatMap (fun k =>
      iterateLabels demoName (failedDelete ++ [.done]) ++ [.tick (.fire ⟨demoName,k + 1,.retry⟩)]) ++
    iterateLabels demoName (failedDelete ++ [.done])

theorem exhausted_leaves_deleting : ¬∀ s l s', (system Worker.defaultMaxRetries).Reach s →
    (system Worker.defaultMaxRetries).step s l = some s' → LegalChanges s.world s'.world := by
  intro h
  obtain ⟨s,hs,hrun⟩ := Lts.reach_of_run_any (M := system Worker.defaultMaxRetries)
    (p := fun s => s.exhaustsDeleting (.call .worker .done) &&
      ((system Worker.defaultMaxRetries).step s (.call .worker .done)).isSome)
    exhaustedLabels initial_reach (by decide)
  obtain ⟨hexhausts,hsome⟩ := Bool.and_eq_true_iff.mp hrun
  obtain ⟨s',hs'⟩ := Option.isSome_iff_exists.mp hsome
  exact illegal_of_exhausts hs hs' hexhausts (h s _ s' hs hs')

end Service

end Dominion.Deploy
