import Dominion.Deploy.System.CommandOutline

/-! # The worker keeps its contracts

The outline of an iteration also says what it leaves behind: after every exit that the loop
continues from, the environment is settled or has work coming. -/
namespace Dominion.Deploy

open Dominion.Framework Dominion.Deploy.Domain World

namespace World

def Covered (w : World) (n : EnvironmentName) : Prop :=
  w.Settled n ∨ w.Coming n ∨ w.leftDeleting n = true

/-- What the worker knows of an environment whose processing failed with a counted retry. -/
def Exhaustible (w : World) (n : EnvironmentName) : Prop :=
  ∃ d, w.docs n = some d ∧
    (((d.doc.status.state = .reconciling ∨ d.doc.status.state = .waitingRollout) ∧
      (d.doc.status.desired = .present ∨ w.Coming n)) ∨ d.doc.status.state = .deleting)

/-- Neither in flight nor parked: the next enqueue of the name goes to `items`. -/
def Idle (w : World) (n : EnvironmentName) : Prop :=
  w.queue.inFlight n = false ∧ w.queue.followUps n = none

end World

variable {env : Environment} {n name : EnvironmentName} {st : EnvironmentStatus}
  {result : ProcessResult} {P : World → Prop}

theorem covered_stable : protocol.Stable .worker fun w => w.Covered n := by
  intro w w' _ h hrely
  have ho := others_of_rely hrely
  rcases h with h | h | h
  · rcases ho.docs n with hd | hc
    · left
      unfold Settled
      rw [hd]
      exact h
    · exact Or.inr (Or.inl hc)
  · exact Or.inr (Or.inl (ho.coming n h))
  · exact Or.inr (Or.inr (ho.leftDeleting ▸ h))

theorem exhaustible_stable : protocol.Stable .worker fun w => w.Exhaustible n := by
  rintro w w' - ⟨d,hd,h⟩ hrely
  have ho := others_of_rely hrely
  obtain ⟨d',hd',hstate,-⟩ := ho.state n d hd
  refine ⟨d',hd',?_⟩
  rw [hstate]
  refine h.imp_left fun h => ⟨h.1,?_⟩
  rcases ho.docs n with hsame | hc
  · have he : d' = d := by
      rw [hsame,hd] at hd'
      exact (Option.some.inj hd').symm
    subst d'
    exact h.2.imp_right (ho.coming n)
  · exact Or.inr hc

theorem idle_stable : protocol.Stable .worker fun w => w.Idle n := by
  intro w w' _ h hrely
  have ho := others_of_rely hrely
  exact ⟨ho.inFlight ▸ h.1,ho.followUps n h.1 h.2⟩

theorem loaded_stable : protocol.Stable .worker fun w => w.Loaded env := by
  intro w w' hi h hrely
  have ho := others_of_rely hrely
  obtain ⟨-,d,-,-,hd,-,-⟩ := h.stored hi
  obtain ⟨d',hd',hstate',hobs'⟩ := ho.state env.name d hd
  refine ⟨?_,?_,?_⟩
  · obtain ⟨r,hr,hsnap,hrem⟩ := h.read
    exact ⟨r,ho.reads.trans hr,hsnap,by rw [ho.removals]; exact hrem⟩
  · intro e he
    rw [hd'] at he
    cases he
    exact ⟨hstate'.trans (h.state d hd).1,hobs'.trans (h.state d hd).2⟩
  · intro e he
    rcases ho.docs env.name with hsame | hc
    · rw [hsame] at he
      exact (h.changed e he).imp_right (ho.coming env.name)
    · exact Or.inr hc

/-- A loaded Present environment is still Present, or has work coming. -/
theorem loaded_desired {w : World} (h : w.Loaded env) (hi : w.Inv) : ∃ d,
    w.docs env.name = some d ∧ d.doc.status.state = env.status.state ∧
      (d.doc.status.desired = env.status.desired ∨ w.Coming env.name) := by
  obtain ⟨r,d,-,hsnap,hd,hdesc,hstate⟩ := h.stored hi
  refine ⟨d,hd,hstate,(h.changed d hd).imp_left fun hgen => ?_⟩
  rw [← hsnap.status]
  exact (hdesc.unwritten (hgen.trans hsnap.generation.symm)).2.1

theorem exhaustible_of_loaded {w : World} (h : w.Loaded env) (hi : w.Inv)
    (hstate : ((env.status.state = .reconciling ∨ env.status.state = .waitingRollout) ∧
      env.status.desired = .present) ∨ env.status.state = .deleting) : w.Exhaustible env.name := by
  obtain ⟨d,hd,hs,hdesired⟩ := loaded_desired h hi
  refine ⟨d,hd,?_⟩
  rw [hs]
  rcases hstate with ⟨hstate,hpresent⟩ | hstate
  · rw [hpresent] at hdesired
    exact Or.inl ⟨hstate,hdesired⟩
  · exact Or.inr hstate

/-- What a step of the reconciler leaves behind, by its result. -/
def ResultPost (n : EnvironmentName) (r : Except Err ProcessResult) (w : World) : Prop :=
  match r with
  | .ok result => (result.terminal = true → w.Covered n) ∧
      (result.terminal = false → result.changed = true ∨ 0 < result.requeueAfter)
  | .error err => err.is .errRetryCounted = true → w.Exhaustible n

theorem resultPost_stable (r : Except Err ProcessResult) :
    protocol.Stable .worker (ResultPost n r) := by
  cases r with
  | ok result => exact (covered_stable.imp _).and (.const _)
  | error err => exact exhaustible_stable.imp _

theorem sat_uncounted {err : Err} (hP : protocol.Stable .worker P)
    (herr : err.is .errRetryCounted = false) :
    protocol.Sat .worker (.pure (.error err)) P (ResultPost n) := by
  refine .pure hP fun w _ _ hc => ?_
  rw [herr] at hc
  cases hc

theorem sat_continue (hP : protocol.Stable .worker P) (hterminal : result.terminal = false)
    (hgo : result.changed = true ∨ 0 < result.requeueAfter) :
    protocol.Sat .worker (.pure (.ok result)) P (ResultPost n) := by
  refine .pure hP fun w _ _ => ⟨fun ht => ?_,fun _ => hgo⟩
  rw [hterminal] at ht
  cases ht

/-- The outcome of `transitionStatus`, where `Q` holds after the write. -/
private def TransitionPost (Q : World → Prop) (r : Except Err Unit) (w : World) : Prop :=
  match r with
  | .ok () => Q w
  | .error err => err.is .errRetryCounted = false

private theorem sat_transitionStatus {Q : World → Prop} (hP : protocol.Stable .worker P)
    (hQ : protocol.Stable .worker Q) (hpre : ∀ w, w.Inv → P w → w.Loaded env ∧ w.StatusStep env st)
    (hwrite : ∀ w d, w.Inv → P w → w.docs env.name = some d →
      d.doc.generation = env.generation → d.doc.status.state = env.status.state →
      Q (w.write d (MongoRepository.statusUpdate st))) :
    protocol.Sat .worker
      (MongoRepository.transitionStatus env.name env.generation env.status.state st) P
      (TransitionPost Q) := by
  let R : Except Err Nat → World → Prop := fun ans w =>
    match ans with
    | .ok matchedCount => matchedCount ≠ 0 → Q w
    | .error err => err.is .errRetryCounted = false
  have hR : ∀ ans, protocol.Stable .worker (R ans) := by
    intro ans
    cases ans with
    | ok matchedCount => exact hQ.imp _
    | error err => exact .const _
  refine Protocol.Sat.bind (Q := R) (.perform hP hR ?_ ?_) ?_
  · intro w hi hp
    obtain ⟨hload,hstep⟩ := hpre w hi hp
    exact ⟨env,st,hload,rfl,rfl,hstep⟩
  · intro c ans w w' hi hp hexec
    cases ans with
    | error err =>
      obtain ⟨fault,rfl⟩ := updateOne_fault hexec
      exact fault_is_domain fault _ (by simp) (by simp)
    | ok matchedCount =>
      intro hne
      rcases updateOne_cases hexec with ⟨d,hd,rfl,-⟩ | ⟨-,hzero⟩
      · obtain ⟨hdocs,-,hgen,hstate⟩ := matched_some hd
        exact hwrite w d hi hp hdocs hgen (hstate _ rfl)
      · exact absurd (hzero _ rfl).1 hne
  · intro ans
    cases ans with
    | error err => exact .pure (.const _) fun _ _ h => h
    | ok matchedCount =>
      dsimp only
      split
      · -- The second read only tells which precondition was stale.
        refine Protocol.Sat.bind (Q := fun found _ => ∀ err, found = .error err →
          err.is .errRetryCounted = false) (.perform (hR (.ok matchedCount)) (fun _ => .const _)
            (fun _ _ _ => trivial) ?_) ?_
        · rintro c found w w' - - hexec err rfl
          rcases findOne_cases hexec with ⟨hf,-⟩ | ⟨fault,hf,-⟩
          · cases hf
          · cases hf
            exact fault_is_domain fault _ (by simp) (by simp)
        · intro found
          cases found with
          | error err => exact .pure (.const _) fun _ _ h => h err rfl
          | ok doc =>
            cases doc with
            | none => exact .pure (.const _) fun _ _ _ => rfl
            | some doc =>
              dsimp only
              split <;> exact .pure (.const _) fun _ _ _ => rfl
      · rename_i hne
        exact .pure (hR (.ok matchedCount)) fun _ _ h => h hne

/-- A status write of the reconciler: a stale precondition is retried, success gives `result`. -/
theorem sat_transition {fromState : EnvironmentState} (hfrom : env.status.state = fromState)
    (hP : protocol.Stable .worker P)
    (hpre : ∀ w, w.Inv → P w → w.Loaded env ∧ w.StatusStep env st)
    (hgo : result.terminal = false → result.changed = true ∨ 0 < result.requeueAfter)
    (hdone : result.terminal = true → ∀ w d, w.Inv → P w → w.docs env.name = some d →
      d.doc.generation = env.generation → d.doc.status.state = env.status.state →
      Covered (w.write d (MongoRepository.statusUpdate st)) env.name) :
    protocol.Sat .worker
      (ReconcileService.transition env.name env.generation fromState st result) P
      (ResultPost env.name) := by
  subst hfrom
  refine Protocol.Sat.bind (sat_transitionStatus
    (Q := fun w => result.terminal = true → w.Covered env.name) hP (covered_stable.imp _) hpre
    fun w d hi hp hd hgen hstate ht => hdone ht w d hi hp hd hgen hstate) ?_
  intro written
  cases written with
  | error err =>
    dsimp only
    split
    · exact sat_continue (.const _) rfl (Or.inr Nat.one_pos)
    · refine .pure (.const _) fun w _ herr hc => ?_
      rw [show err.is .errRetryCounted = false from herr] at hc
      cases hc
  | ok _ => exact .pure (covered_stable.imp _) fun w _ h => ⟨h,hgo⟩

/-- The outcome of `get` for the worker, where `F` is what it learns of the status it loads. -/
def GetPost (F : EnvironmentStatus → World → Prop) (name : EnvironmentName)
    (r : Except Err Environment) (w : World) : Prop :=
  match r with
  | .ok env => env.name = name ∧ w.Loaded env ∧ F env.status w
  | .error err => (err.is .errNotFound = true → w.Covered name) ∧ err.is .errRetryCounted = false

/-- The outline of what follows a successful `get`. -/
theorem sat_of_get {α : Type} {c : Prog α} {Q : α → World → Prop}
    {F : EnvironmentStatus → World → Prop}
    (h : env.name = name → protocol.Sat .worker c (fun w => w.Loaded env ∧ F env.status w) Q) :
    protocol.Sat .worker c (GetPost F name (.ok env)) Q :=
  .assume (P := fun w => w.Loaded env ∧ F env.status w) (env.name = name) h

/-- A missing environment ends the processing; another failure of `get` is returned. -/
theorem sat_of_get_error {F : EnvironmentStatus → World → Prop} {err : Err} (context : String) :
    protocol.Sat .worker
      (if err.is .errNotFound then return .ok { terminal := true }
       else return .error (err.withContext context) : Prog (Except Err ProcessResult))
      (GetPost F name (.error err)) (ResultPost name) := by
  have hstable : protocol.Stable .worker (GetPost F name (.error err)) :=
    (covered_stable.imp _).and (.const _)
  split
  · rename_i hnot
    exact .pure hstable fun w _ h => ⟨fun _ => h.1 hnot,fun ht => by cases ht⟩
  · refine .pure hstable fun w _ h hc => ?_
    rw [Err.is_withContext,show err.is .errRetryCounted = false from h.2] at hc
    cases hc

private theorem loaded_read {w : World} {d : Stored} (hi : w.Inv) (hd : w.docs name = some d)
    (henv : d.doc.toDomain = .ok env) (hname : env.name = name) :
    (w.read .worker name).Loaded env := by
  have hok := hi.docs name d hd
  have hsnap : ∀ a b c, Snapshot ⟨d,a,b,c⟩ env :=
    fun a b c => snapshot_of_toDomain henv hok.wellFormed
  have hs := hsnap 0 0 false
  refine ⟨⟨_,read_self hd,hsnap _ _ _,by rw [hname]; rfl⟩,?_,?_⟩
  · intro e he
    rw [hname] at he
    have hde : d = e := Option.some.inj (hd.symm.trans he)
    subst e
    rw [← hs.status]
    exact ⟨rfl,rfl⟩
  · intro e he
    rw [hname] at he
    have hde : d = e := Option.some.inj (hd.symm.trans he)
    subst e
    exact Or.inl hs.generation

/-- The outcome of the read that `get` makes. -/
private def FindPost (F : EnvironmentStatus → World → Prop) (name : EnvironmentName)
    (ans : Except Err (Option MongoEnvironment)) (w : World) : Prop :=
  match ans with
  | .error err => ∃ fault : Fault, err = fault.err
  | .ok none => w.Covered name
  | .ok (some doc) => ∃ env, doc.toDomain = .ok env ∧ env.name = name ∧ w.Loaded env ∧
      F env.status w

private theorem findPost_stable {F : EnvironmentStatus → World → Prop}
    (hF : ∀ status, protocol.Stable .worker (F status))
    (ans : Except Err (Option MongoEnvironment)) :
    protocol.Stable .worker (FindPost F name ans) := by
  cases ans with
  | error err => exact .const _
  | ok found =>
    cases found with
    | none => exact covered_stable
    | some doc =>
      exact .exists fun env => (Protocol.Stable.const _).and
        ((Protocol.Stable.const _).and (loaded_stable.and (hF env.status)))

theorem sat_get {F : EnvironmentStatus → World → Prop} (hP : protocol.Stable .worker P)
    (hF : ∀ status, protocol.Stable .worker (F status))
    (hread : ∀ w d, w.Inv → P w → w.docs name = some d →
      F d.doc.status (w.read .worker name)) :
    protocol.Sat .worker (MongoRepository.get name) P (GetPost F name) := by
  refine Protocol.Sat.bind (Q := FindPost F name)
    (.perform hP (findPost_stable hF) (fun _ _ _ => trivial) ?_) ?_
  · intro c ans w w' hi hp hexec
    rcases findOne_cases hexec with ⟨rfl,rfl⟩ | ⟨fault,rfl,-⟩
    · cases hd : w.docs name with
      | none =>
        left
        intro d hd'
        rw [show (w.read .worker name).docs name = none from hd] at hd'
        cases hd'
      | some d =>
        have hok := hi.docs name d hd
        obtain ⟨env,henv⟩ : ∃ env, d.doc.toDomain = .ok env := by
          unfold MongoEnvironment.toDomain
          rw [newEnvironmentName_self]
          exact rehydrateEnvironment_of_wellFormed hok.wellFormed
        obtain ⟨hname,-,hstatus,-⟩ := toDomain_ok henv
        refine ⟨env,henv,hname.trans hok.name,loaded_read hi hd henv (hname.trans hok.name),?_⟩
        rw [hstatus]
        exact hread w d hi hp hd
    · exact ⟨fault,rfl⟩
  · intro ans
    cases ans with
    | error err =>
      refine .pure (findPost_stable hF (.error err)) ?_
      rintro w - ⟨fault,rfl⟩
      have hnot := fault_is_domain fault .errNotFound (by simp) (by simp)
      refine ⟨fun h => ?_,fault_is_domain fault _ (by simp) (by simp)⟩
      rw [hnot] at h
      cases h
    | ok found =>
      cases found with
      | none => exact .pure (findPost_stable hF (.ok none)) fun w _ h => ⟨fun _ => h,rfl⟩
      | some doc =>
        refine .pure (findPost_stable hF (.ok (some doc))) ?_
        rintro w - ⟨env,henv,hname,hload,hf⟩
        rw [henv]
        exact ⟨hname,hload,hf⟩

end Dominion.Deploy
