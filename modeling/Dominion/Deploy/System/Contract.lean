import Dominion.Deploy.System.Invariant

/-! # Contracts of the service's threads

A command writes with the generation it read; only the worker changes a status or removes a
document, and only for an environment it has loaded and whose state nobody else changes. -/
namespace Dominion.Deploy

open Dominion.Framework Dominion.Deploy.Domain

namespace World

/-- A command that has yet to enqueue the name, a queued or parked item of it, or a timer. -/
def Coming (w : World) (n : EnvironmentName) : Prop :=
  0 < w.owed n ∨ w.queue.Pending n ∨ ∃ item ∈ w.timers, item.envName = n

/-- Absent from the store, or Present with its generation observed and Ready or Failed. -/
def Settled (w : World) (n : EnvironmentName) : Prop :=
  ∀ d, w.docs n = some d → d.doc.status.desired = .present ∧
    d.doc.status.observedGeneration = d.doc.generation ∧
    (d.doc.status.state = .ready ∨ d.doc.status.state = .failed)

/-- The environment that a read was decoded to. -/
structure Snapshot (r : Read) (env : Environment) : Prop where
  name : r.stored.doc.name = env.name
  generation : r.stored.doc.generation = env.generation
  status : r.stored.doc.status = env.status
  desiredState : r.stored.doc.desiredState = env.desiredState

/-- The worker's last read is `env`, its document is still stored in the same state, and whoever
wrote it since has work coming for it. -/
structure Loaded (w : World) (env : Environment) : Prop where
  read : ∃ r, w.reads .worker = some r ∧ Snapshot r env ∧ w.removals env.name = r.removals
  state : ∀ d, w.docs env.name = some d → d.doc.status.state = env.status.state ∧
    d.doc.status.observedGeneration = env.status.observedGeneration
  changed : ∀ d, w.docs env.name = some d → d.doc.generation = env.generation ∨ w.Coming env.name

/-- The status writes of the reconciler, each from the states it is made in. -/
inductive StatusStep (w : World) (env : Environment) (st : EnvironmentStatus) : Prop
  | reconcile (hdesired : env.status.desired = .present)
      (hstate : env.status.state = .pending ∨ env.status.state = .ready ∨
        env.status.state = .failed)
      (hto : st.state = .reconciling) (hobs : st.observedGeneration = 0)
  | await (hdesired : env.status.desired = .present) (hstate : env.status.state = .reconciling)
      (happlied : w.applied env.name = some env.desiredState)
      (hto : st.state = .waitingRollout) (hobs : st.observedGeneration = env.generation)
  | conclude (hdesired : env.status.desired = .present)
      (hstate : env.status.state = .waitingRollout)
      (hto : st.state = .ready ∨ st.state = .failed) (hobs : st.observedGeneration = env.generation)
  | retain (hdesired : env.status.desired = .present) (hstate : env.status.state = .waitingRollout)
      (hto : st.state = .waitingRollout) (hobs : st.observedGeneration = 0)
  | delete (hdesired : env.status.desired = .absent) (hstate : env.status.state ≠ .deleting)
      (hto : st.state = .deleting) (hobs : st.observedGeneration = 0)
  | exhaust (hstate : env.status.state = .reconciling ∨ env.status.state = .waitingRollout ∨
        env.status.state = .deleting)
      (hto : st.state = .failed) (hobs : st.observedGeneration = env.generation)

/-- The desired-state writes of the commands. -/
inductive Command (r : Read) : Update → Prop
  | present {ds : DesiredState} (hread : r.stored.doc.status.desired ≠ .absent)
      (hds : ds.WellFormed) : Command r (MongoRepository.desiredUpdate (some ds) .present)
  | absent : Command r (MongoRepository.desiredUpdate none .absent)

/-- A command's write carries the generation its thread read last. -/
structure CommandWrite (w : World) (t : Tid) (f : Filter) (u : Update) : Prop where
  read : ∃ r, w.reads t = some r ∧ r.stored.doc.name = f.name ∧
    r.stored.doc.generation = f.generation ∧ Command r u
  state : f.state = none

/-- A status write of the worker is made for the environment it loaded. -/
def StatusWrite (w : World) (f : Filter) (u : Update) : Prop :=
  ∃ env st, w.Loaded env ∧ f = ⟨env.name,env.generation,some env.status.state⟩ ∧
    u = MongoRepository.statusUpdate st ∧ w.StatusStep env st

def contract (t : Tid) (op : Call) (w : World) : Prop :=
  match t,op with
  | _,.findOne _ => True
  | .api _,.insertOne doc => Fresh doc
  | .api i,.updateOne f u => w.CommandWrite (.api i) f u
  | .api _,.reservedEnvironmentVariableNames => True
  | .api _,.enqueue _ => True
  | .worker,.updateOne f u => w.StatusWrite f u
  | .worker,.deleteOne n => ∃ env, w.Loaded env ∧ env.name = n ∧
      env.status.desired = .absent ∧ env.status.state = .deleting ∧ w.deleted n = true
  | .worker,.applyResources env => w.Loaded env ∧ env.status.desired = .present ∧
      env.status.state = .reconciling
  | .worker,.checkRollout _ => True
  | .worker,.runtimeDelete _ => True
  | .worker,.enqueueAfter _ _ => True
  | .worker,.receive => True
  | .worker,.markInFlight _ => True
  | .worker,.complete _ => True
  | _,_ => False

end World

def protocol : Protocol machine where
  inv := World.Inv
  contract := World.contract

namespace World

variable {w w' : World} {t : Tid} {op : Call} {env : Environment} {n : EnvironmentName}

theorem Loaded.stored (h : w.Loaded env) (hi : w.Inv) : ∃ r d, w.reads .worker = some r ∧
    Snapshot r env ∧ w.docs env.name = some d ∧ Descends w r d ∧
    d.doc.status.state = env.status.state := by
  obtain ⟨r,hr,hsnap,hrem⟩ := h.read
  obtain ⟨d,hd,hdesc⟩ := (hi.reads _ r hr).same (hsnap.name ▸ hrem)
  rw [hsnap.name] at hd
  exact ⟨r,d,hr,hsnap,hd,hdesc,(h.state d hd).1⟩

private theorem admissible_command {r : Read} {u : Update} (h : Command r u) (d : Stored) :
    Admissible d u := by
  cases h with
  | present hread hwf =>
    refine ⟨?_,by simp [MongoRepository.desiredUpdate],by simp [MongoRepository.desiredUpdate],
      by simp [MongoRepository.desiredUpdate]⟩
    intro ds hds
    cases hds
    exact hwf
  | absent =>
    exact ⟨by simp [MongoRepository.desiredUpdate],by simp [MongoRepository.desiredUpdate],
      by simp [MongoRepository.desiredUpdate],by simp [MongoRepository.desiredUpdate]⟩

private theorem admissible_status {st : EnvironmentStatus} {d : Stored} (h : w.StatusStep env st)
    (hgen : d.doc.generation = env.generation) :
    Admissible d (MongoRepository.statusUpdate st) := by
  have hobs : st.observedGeneration ≤ env.generation := by
    cases h <;> omega
  have hstate : st.state ≠ .unspecified := by
    cases h with
    | conclude _ _ hto _ => rcases hto with hto | hto <;> simp [hto]
    | reconcile _ _ hto _ => simp [hto]
    | await _ _ _ hto _ => simp [hto]
    | retain _ _ hto _ => simp [hto]
    | delete _ _ hto _ => simp [hto]
    | exhaust _ hto _ => simp [hto]
  refine ⟨?_,?_,?_,?_⟩
  · intro ds hds
    cases hds
  · intro g hg
    simp only [MongoRepository.statusUpdate] at hg
    split at hg
    · cases hg
    · cases hg
      omega
  · simpa [MongoRepository.statusUpdate] using hstate
  · intro _
    exact ⟨rfl,rfl⟩

/-- A write made under its contract is admissible for the document it matches. -/
theorem admissible_of_contract {f : Filter} {u : Update} {d : Stored}
    (hc : contract t (.updateOne f u) w) (hd : w.matched f = some d) : Admissible d u := by
  obtain ⟨-,-,hgen,-⟩ := matched_some hd
  cases t with
  | api i =>
    obtain ⟨⟨r,-,-,-,hcommand⟩,-⟩ := hc
    exact admissible_command hcommand d
  | worker =>
    obtain ⟨env,st,-,rfl,rfl,hstep⟩ := hc
    exact admissible_status hstep hgen

theorem inv_effect (hi : w.Inv) (hc : contract t op w) (he : Effect w t op w') : w'.Inv := by
  cases he with
  | idle => exact hi
  | read => exact inv_read hi _ _
  | insert hfree =>
    cases t with
    | api i => exact inv_insert hi hfree hc
    | worker => exact hc.elim
  | write hd =>
    obtain ⟨hdocs,hname,-⟩ := matched_some hd
    exact inv_write hi (hname ▸ hdocs) (admissible_of_contract hc hd)
  | remove hd => exact inv_remove hi _
  | _ => exact hi.congr rfl rfl rfl rfl rfl rfl

theorem inv_tick {e : Tick} (hi : w.Inv) (h : w.tick e = some w') : w'.Inv := by
  cases e with
  | send n =>
    obtain ⟨q,-,rfl⟩ := Option.map_eq_some_iff.mp h
    exact hi.congr rfl rfl rfl rfl rfl rfl
  | fire item =>
    simp only [tick] at h
    split at h
    · cases h
      exact hi.congr rfl rfl rfl rfl rfl rfl
    · cases h
  | recover n =>
    cases h
    exact hi.congr rfl rfl rfl rfl rfl rfl

end World

end Dominion.Deploy
