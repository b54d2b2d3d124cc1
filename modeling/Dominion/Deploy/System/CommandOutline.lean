import Dominion.Deploy.System.Frame

/-! # The commands keep their contracts -/
namespace Dominion.Deploy

open Dominion.Framework Dominion.Deploy.Domain World

variable {t : Tid} {i : Nat} {env : Environment} {name : EnvironmentName}

/-- The thread's last read was decoded to `env`. -/
def Known (t : Tid) (env : Environment) (w : World) : Prop :=
  ∃ r, w.reads t = some r ∧ Snapshot r env

theorem known_stable : protocol.Stable t (Known t env) := by
  rintro w w' - ⟨r,hr,hsnap⟩ hrely
  exact ⟨r,(reads_of_rely hrely).trans hr,hsnap⟩

theorem trivial_stable : protocol.Stable t fun _ => True :=
  Protocol.Stable.const True

theorem toDomain_ok {doc : MongoEnvironment} (h : doc.toDomain = .ok env) :
    env.name = doc.name ∧ env.desiredState = doc.desiredState.normalize ∧
      env.status = doc.status ∧ env.generation = doc.generation := by
  unfold MongoEnvironment.toDomain at h
  rw [newEnvironmentName_self] at h
  exact rehydrateEnvironment_ok h

theorem snapshot_of_toDomain {r : Read} (h : r.stored.doc.toDomain = .ok env)
    (hwf : r.stored.doc.desiredState.WellFormed) : Snapshot r env := by
  obtain ⟨hname,hds,hstatus,hgen⟩ := toDomain_ok h
  rw [hwf.normalized] at hds
  exact ⟨hname.symm,hgen.symm,hstatus.symm,hds.symm⟩

/-- A call whose contract always holds, before which nothing is known. -/
theorem sat_call {op : Call} (hc : ∀ w, contract t op w) :
    protocol.Sat t (CallTree.perform op) (fun _ => True) fun _ _ => True :=
  .perform trivial_stable (fun _ => trivial_stable) (fun w _ _ => hc w) fun _ _ _ _ _ _ _ => trivial

theorem sat_return {α : Type} (a : α) :
    protocol.Sat t (.pure a) (fun _ => True) fun _ _ => True :=
  .pure trivial_stable fun _ _ _ => trivial

private theorem sat_enqueue {α : Type} (a : α) : protocol.Sat (.api i)
    (do enqueue name; return a : Prog α) (fun _ => True) fun _ _ => True :=
  .bind (sat_call fun _ => trivial) fun _ => sat_return _

theorem sat_get_known : protocol.Sat (.api i) (MongoRepository.get name) (fun _ => True)
    fun r w => ∀ env, r = .ok env → env.name = name ∧ Known (.api i) env w := by
  refine Protocol.Sat.bind (Q := fun ans w => ∀ doc, ans = .ok (some doc) → doc.name = name ∧
    ∀ env, doc.toDomain = .ok env → Known (.api i) env w) (.perform trivial_stable ?_ ?_ ?_) ?_
  · intro ans w w' hi h hrely doc hdoc
    refine ⟨(h doc hdoc).1,fun env henv => ?_⟩
    exact known_stable w w' hi ((h doc hdoc).2 env henv) hrely
  · exact fun _ _ _ => trivial
  · intro c ans w w' hi _ hexec doc hdoc
    subst hdoc
    rcases findOne_cases hexec with ⟨hans,rfl⟩ | ⟨fault,hans,-⟩
    · obtain ⟨d,hd,rfl⟩ := Option.map_eq_some_iff.mp (Except.ok.inj hans).symm
      have hok := hi.docs name d hd
      exact ⟨hok.name,fun env henv =>
        ⟨_,read_self hd,snapshot_of_toDomain henv hok.wellFormed⟩⟩
    · cases hans
  · intro ans
    have hstable : protocol.Stable (.api i) fun w => ∀ doc, ans = .ok (some doc) →
        doc.name = name ∧ ∀ env, doc.toDomain = .ok env → Known (.api i) env w := by
      intro w w' hi h hrely doc hdoc
      refine ⟨(h doc hdoc).1,fun env henv => ?_⟩
      exact known_stable w w' hi ((h doc hdoc).2 env henv) hrely
    cases ans with
    | error err => exact .pure hstable fun _ _ _ env henv => nomatch henv
    | ok found =>
      cases found with
      | none => exact .pure hstable fun _ _ _ env henv => nomatch henv
      | some doc =>
        refine .pure hstable fun w _ h env henv => ?_
        obtain ⟨hname,hknown⟩ := h doc rfl
        exact ⟨(toDomain_ok henv).1.trans hname,hknown env henv⟩

theorem sat_updateDesired {ds : Option DesiredState} {desired : EnvironmentDesired}
    (hu : ∀ r, Snapshot r env → Command r (MongoRepository.desiredUpdate ds desired)) :
    protocol.Sat (.api i) (MongoRepository.updateDesired env.name env.generation ds desired)
      (Known (.api i) env) fun _ _ => True := by
  refine Protocol.Sat.bind (Q := fun _ _ => True)
    (.perform known_stable (fun _ => trivial_stable) ?_ fun _ _ _ _ _ _ _ => trivial) ?_
  · rintro w - ⟨r,hr,hsnap⟩
    exact ⟨⟨r,hr,hsnap.name,hsnap.generation,hu r hsnap⟩,rfl⟩
  · intro ans
    cases ans with
    | error err => exact sat_return _
    | ok matchedCount =>
      dsimp only
      split <;> exact sat_return _

theorem sat_create_env (hstatus : env.status = { desired := .present, state := .pending })
    (hgen : env.generation = 1) :
    protocol.Sat (.api i) (MongoRepository.create env) (fun _ => True) fun _ _ => True := by
  refine Protocol.Sat.bind (Q := fun _ _ => True)
    (sat_call fun w => ⟨hstatus,hgen,env.wellFormed⟩) ?_
  intro ans
  cases ans with
  | error err => exact sat_return _
  | ok inserted => cases inserted <;> exact sat_return _

theorem sat_create (envType : EnvironmentType) (description : String)
    (desiredState : Option DesiredState) : protocol.Sat (.api i)
      (EnvironmentCommandService.create name envType description desiredState) (fun _ => True)
      fun _ _ => True := by
  refine Protocol.Sat.bind (Q := fun _ _ => True)
    (sat_get_known.weaken fun _ _ _ _ => trivial) ?_
  intro found
  cases found with
  | ok env => exact sat_return _
  | error err =>
    dsimp only
    split
    · cases hnew : newEnvironment name envType description desiredState with
      | error err => exact sat_return _
      | ok env =>
        obtain ⟨-,hstatus,hgen⟩ := newEnvironment_ok hnew
        refine Protocol.Sat.bind (sat_call fun _ => trivial) ?_
        intro reserved
        cases reserved with
        | error err => exact sat_return _
        | ok reservedEnvVars =>
          dsimp only
          cases env.validateEnvConflict reservedEnvVars with
          | error err => exact sat_return _
          | ok _ =>
            refine Protocol.Sat.bind (sat_create_env hstatus hgen) ?_
            intro created
            cases created with
            | error err => exact sat_return _
            | ok _ => exact sat_enqueue _
    · exact sat_return _

theorem setDesiredPresent_command {e e' : Environment} {new : Option DesiredState} {r : Read}
    (h : e.setDesiredPresent new = .ok e') (hsnap : Snapshot r e) :
    Command r (MongoRepository.desiredUpdate (some e'.desiredState) .present) := by
  refine .present ?_ e'.wellFormed
  rw [hsnap.status]
  exact (setDesiredPresent_ok h).1

private theorem sat_stop {α : Type} (a : α) :
    protocol.Sat (.api i) (.pure a) (Known (.api i) env) fun _ _ => True :=
  .pure known_stable fun _ _ _ => trivial

private theorem sat_reserved_known : protocol.Sat (.api i) reservedEnvironmentVariableNames
    (Known (.api i) env) fun _ => Known (.api i) env := by
  refine .perform known_stable (fun _ => known_stable) (fun _ _ _ => trivial) ?_
  rintro c ans w w' - hknown hexec
  have heffect : Effect w (.api i) .reservedEnvironmentVariableNames w' := exec_effect hexec
  cases heffect
  exact hknown

theorem sat_updateLoaded (desiredState : Option DesiredState) : protocol.Sat (.api i)
    (EnvironmentCommandService.updateLoaded env.name env desiredState) (Known (.api i) env)
    fun _ _ => True := by
  unfold EnvironmentCommandService.updateLoaded
  split
  · exact sat_stop _
  · cases hset : env.setDesiredPresent desiredState with
    | error err => exact sat_stop _
    | ok updated =>
      refine Protocol.Sat.bind sat_reserved_known ?_
      intro reserved
      cases reserved with
      | error err => exact sat_stop _
      | ok reservedEnvVars =>
        dsimp only
        cases updated.validateEnvConflict reservedEnvVars with
        | error err => exact sat_stop _
        | ok _ =>
          refine Protocol.Sat.bind
            (sat_updateDesired fun r hsnap => setDesiredPresent_command hset hsnap) ?_
          intro written
          cases written with
          | error err => exact sat_return _
          | ok _ => exact sat_enqueue _

/-- An outline from the environment that `get` answered. -/
private theorem sat_loaded {α : Type} {c : Prog α}
    (h : env.name = name → protocol.Sat (.api i) c (Known (.api i) env) fun _ _ => True) :
    protocol.Sat (.api i) c
      (fun w => ∀ env', (.ok env : Except Err Environment) = .ok env' →
        env'.name = name ∧ Known (.api i) env' w) fun _ _ => True := by
  refine (Protocol.Sat.assume (env.name = name) h).strengthen ?_ fun w _ h => h env rfl
  intro w w' hi h hrely env' henv
  exact ⟨(h env' henv).1,known_stable w w' hi (h env' henv).2 hrely⟩

private theorem sat_unread {α : Type} (a : α) (err : Err) : protocol.Sat (.api i) (.pure a)
    (fun w => ∀ env', (.error err : Except Err Environment) = .ok env' →
      env'.name = name ∧ Known (.api i) env' w) fun _ _ => True :=
  (sat_return a).strengthen (fun _ _ _ _ _ _ henv => nomatch henv) fun _ _ _ => trivial

theorem sat_update (desiredState : Option DesiredState) : protocol.Sat (.api i)
    (EnvironmentCommandService.update name desiredState) (fun _ => True) fun _ _ => True := by
  refine Protocol.Sat.bind sat_get_known ?_
  intro found
  cases found with
  | error err => exact sat_unread _ err
  | ok env =>
    apply sat_loaded
    rintro rfl
    exact sat_updateLoaded desiredState

theorem sat_delete : protocol.Sat (.api i) (EnvironmentCommandService.delete name)
    (fun _ => True) fun _ _ => True := by
  refine Protocol.Sat.bind sat_get_known ?_
  intro found
  cases found with
  | error err => exact sat_unread _ err
  | ok env =>
    apply sat_loaded
    rintro rfl
    refine Protocol.Sat.bind (sat_updateDesired fun r _ => .absent) ?_
    intro written
    cases written with
    | error err => exact sat_return _
    | ok _ => exact sat_enqueue _

end Dominion.Deploy
