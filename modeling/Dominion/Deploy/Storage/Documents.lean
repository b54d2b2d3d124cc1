import Dominion.Deploy.Storage.Mongo
import Dominion.Deploy.Storage.Mappings

/-! # The documents of the environment collection

A document keeps the name, the type and the desired state in the encodings of the storage, and the
repository rehydrates what it reads.  The other models of the service keep the desired state as it
is; `Holds` relates their documents to these.  The driver decodes a document as it was encoded. -/
namespace Dominion.Deploy.Mapping

open Dominion.Deploy.Domain (Err EnvironmentName EnvironmentType EnvironmentStatus
  EnvironmentDesired newEnvironmentName newEnvironmentName_self)

structure DesiredState.WellFormed (ds : DesiredState) : Prop where
  normalized : ds.normalize = ds
  valid : ds.validate = .ok ()

theorem DesiredState.WellFormed.view {ds : DesiredState} (h : ds.WellFormed) :
    ds.view.WellFormed where
  normalized := by rw [← DesiredState.view_normalize,h.normalized]
  valid := h.valid

theorem DesiredState.wellFormed_normalize {ds : DesiredState}
    (h : ds.normalize.validate = .ok ()) : ds.normalize.WellFormed :=
  ⟨ds.normalize_normalize,h⟩

structure Environment where
  name : EnvironmentName
  envType : EnvironmentType
  description : String
  desiredState : DesiredState
  status : EnvironmentStatus
  generation : Nat
  wellFormed : desiredState.WellFormed

def Environment.view (env : Environment) : Domain.Environment where
  name := env.name
  envType := env.envType
  description := env.description
  desiredState := env.desiredState.view
  status := env.status
  generation := env.generation
  wellFormed := env.wellFormed.view

/-- `NewEnvironment`. -/
def newEnvironment (name : EnvironmentName) (envType : EnvironmentType) (description : String)
    (desiredState : Option DesiredState) : Except Err Environment :=
  if envType = .unspecified then .error (.of .errInvalidType)
  else
    match cloneDesiredState desiredState with
    | none => .error (.of .errInvalidSpec)
    | some ds =>
      match h : ds.normalize.validate with
      | .error err => .error err
      | .ok () => .ok {
          name, envType, description
          desiredState := ds.normalize
          status := { desired := .present, state := .pending, observedGeneration := 0 }
          generation := 1
          wellFormed := DesiredState.wellFormed_normalize h }

theorem newEnvironment_of_wellFormed {name : EnvironmentName} {envType : EnvironmentType}
    {description : String} {ds : DesiredState} (htype : envType ≠ .unspecified)
    (hds : ds.WellFormed) : newEnvironment name envType description (some ds) =
      .ok ⟨name,envType,description,ds,{ desired := .present, state := .pending },1,hds⟩ := by
  rw [newEnvironment,if_neg htype,cloneDesiredState_eq]
  dsimp only
  split
  · rename_i err hv
    rw [hds.normalized,hds.valid] at hv
    cases hv
  · simp only [hds.normalized]

structure EnvironmentSnapshot where
  name : EnvironmentName
  envType : EnvironmentType
  description : String
  desiredState : Option DesiredState
  status : Option EnvironmentStatus
  generation : Nat

/-- `RehydrateEnvironment`. -/
def rehydrateEnvironment (snapshot : EnvironmentSnapshot) : Except Err Environment :=
  match cloneDesiredState snapshot.desiredState,snapshot.status with
  | none,_ => .error (.of .errInvalidSpec)
  | some _,none => .error (.of .errInvalidState)
  | some ds,some status =>
    match h : ds.normalize.validate with
    | .error err => .error err
    | .ok () => .ok {
        name := snapshot.name
        envType := snapshot.envType
        description := snapshot.description
        desiredState := ds.normalize
        status
        generation := snapshot.generation
        wellFormed := DesiredState.wellFormed_normalize h }

/-- `SetDesiredPresent`. -/
def Environment.setDesiredPresent (e : Environment) (newDesiredState : Option DesiredState) :
    Except Err Environment :=
  let status := { e.status with desired := .present, state := .pending, message := "" }
  if e.status.desired = .absent then .error (.of .errInvalidState)
  else
    match cloneDesiredState newDesiredState with
    | none => .ok { e with status, generation := e.generation + 1 }
    | some ds =>
      match h : ds.normalize.validate with
      | .error err => .error err
      | .ok () => .ok { e with
          desiredState := ds.normalize
          wellFormed := DesiredState.wellFormed_normalize h
          status
          generation := e.generation + 1 }

structure MongoEnvironment where
  scope : String
  envName : String
  envType : String
  description : String
  desiredState : Option MongoDesiredState
  status : Option EnvironmentStatus
  generation : Nat

def envTypeToEnum : EnvironmentType → String
  | .prod => "prod"
  | .test => "test"
  | .dev => "dev"
  | .unspecified => "unspecified"

def envTypeFromEnum (s : String) : EnvironmentType :=
  if s = "prod" then .prod
  else if s = "test" then .test
  else if s = "dev" then .dev
  else .unspecified

theorem envType_enum (t : EnvironmentType) : envTypeFromEnum (envTypeToEnum t) = t := by
  cases t <;> decide

def mongoEnvironmentFromDomain (env : Environment) : MongoEnvironment where
  scope := env.name.scope
  envName := env.name.envName
  envType := envTypeToEnum env.envType
  description := env.description
  desiredState := desiredStateToMongo (cloneDesiredState (some env.desiredState))
  status := some env.status
  generation := env.generation

namespace MongoEnvironment

def toDomain (m : MongoEnvironment) : Except Err Environment :=
  match newEnvironmentName m.scope m.envName with
  | .error err => .error err
  | .ok name =>
    rehydrateEnvironment {
      name
      envType := envTypeFromEnum m.envType
      description := m.description
      desiredState := desiredStateFromMongo m.desiredState
      status := m.status
      generation := m.generation }

/-- The document after `UpdateDesired`, which keeps the stored desired state without a new one. -/
def updateDesired (m : MongoEnvironment) (desiredState : Option DesiredState)
    (desired : EnvironmentDesired) : MongoEnvironment :=
  { m with
    status := m.status.map fun status => { status with desired }
    desiredState :=
      match desiredState with
      | none => m.desiredState
      | some ds => desiredStateToMongo (some ds)
    generation := m.generation + 1 }

/-- The document after `TransitionStatus`. -/
def transitionStatus (m : MongoEnvironment) (toStatus : EnvironmentStatus) : MongoEnvironment :=
  { m with
    status := m.status.map fun status => { status with
      state := toStatus.state
      message := if toStatus.message = "" then status.message else toStatus.message
      observedGeneration :=
        if toStatus.observedGeneration = 0 then status.observedGeneration
        else toStatus.observedGeneration
      services := toStatus.services } }

end MongoEnvironment

/-- The documents that the writes of the repository leave: `Create` of an environment, `Update` of
whichever version its filter matches, `Delete`'s mark, and the status writes in between. -/
inductive Written : MongoEnvironment → Prop
  | create {name : EnvironmentName} {envType : EnvironmentType} {description : String}
      {desiredState : Option DesiredState} {env : Environment}
      (accepted : newEnvironment name envType description desiredState = .ok env) :
      Written (mongoEnvironmentFromDomain env)
  | update {doc : MongoEnvironment} {env updated : Environment} {desiredState : Option DesiredState}
      (stored : Written doc) (accepted : env.setDesiredPresent desiredState = .ok updated) :
      Written (doc.updateDesired (cloneDesiredState (some updated.desiredState)) .present)
  | delete {doc : MongoEnvironment} (stored : Written doc) :
      Written (doc.updateDesired none .absent)
  | transition {doc : MongoEnvironment} (stored : Written doc) (toStatus : EnvironmentStatus) :
      Written (doc.transitionStatus toStatus)

/-- What every written document keeps. -/
structure Readable (doc : MongoEnvironment) : Prop where
  name : ∃ name, newEnvironmentName doc.scope doc.envName = .ok name
  desiredState : ∃ ds, desiredStateFromMongo doc.desiredState = some ds ∧ ds.WellFormed
  status : doc.status.isSome

theorem readable_of_environment (env : Environment) :
    Readable (mongoEnvironmentFromDomain env) where
  name := ⟨env.name,newEnvironmentName_self env.name⟩
  desiredState := by
    refine ⟨env.desiredState,?_,env.wellFormed⟩
    rw [mongoEnvironmentFromDomain,cloneDesiredState_eq,desiredState_mongo]
  status := rfl

theorem readable_of_written {doc : MongoEnvironment} (h : Written doc) : Readable doc := by
  induction h with
  | create accepted => exact readable_of_environment _
  | @update doc env updated desiredState stored accepted ih =>
    refine ⟨ih.name,⟨updated.desiredState,?_,updated.wellFormed⟩,?_⟩
    · rw [cloneDesiredState_eq]
      exact desiredState_mongo (some updated.desiredState)
    · exact (Option.isSome_map ..).trans ih.status
  | delete stored ih => exact ⟨ih.name,ih.desiredState,(Option.isSome_map ..).trans ih.status⟩
  | transition stored toStatus ih =>
    exact ⟨ih.name,ih.desiredState,(Option.isSome_map ..).trans ih.status⟩

/-- A readable document is rehydrated with the desired state it stores. -/
theorem toDomain_of_readable {doc : MongoEnvironment} (h : Readable doc) :
    ∃ env, doc.toDomain = .ok env ∧
      desiredStateFromMongo doc.desiredState = some env.desiredState := by
  obtain ⟨name,hname⟩ := h.name
  obtain ⟨ds,hds,hwf⟩ := h.desiredState
  obtain ⟨status,hstatus⟩ := Option.isSome_iff_exists.mp h.status
  rw [MongoEnvironment.toDomain,hname]
  simp only [rehydrateEnvironment,cloneDesiredState_eq,hds,hstatus]
  split
  · rename_i err hv
    rw [hwf.normalized,hwf.valid] at hv
    cases hv
  · exact ⟨_,rfl,congrArg some hwf.normalized.symm⟩

/-! ## The documents of the other models -/

/-- The document encodes the one whose desired state is kept as it is. -/
structure Holds (doc : MongoEnvironment) (m : Deploy.MongoEnvironment) : Prop where
  scope : doc.scope = m.name.scope
  envName : doc.envName = m.name.envName
  envType : doc.envType = envTypeToEnum m.envType
  description : doc.description = m.description
  desiredState : (desiredStateFromMongo doc.desiredState).map DesiredState.view = some m.desiredState
  status : doc.status = some m.status
  generation : doc.generation = m.generation

theorem holds_create (env : Environment) :
    Holds (mongoEnvironmentFromDomain env) (Deploy.mongoEnvironmentFromDomain env.view) where
  scope := rfl
  envName := rfl
  envType := rfl
  description := rfl
  desiredState := by
    rw [mongoEnvironmentFromDomain,cloneDesiredState_eq,desiredState_mongo]
    rfl
  status := rfl
  generation := rfl

theorem holds_updateDesired {doc : MongoEnvironment} {m : Deploy.MongoEnvironment} (h : Holds doc m)
    (desiredState : Option DesiredState) (desired : EnvironmentDesired) :
    Holds (doc.updateDesired desiredState desired)
      ((MongoRepository.desiredUpdate (desiredState.map DesiredState.view) desired).apply m) where
  scope := h.scope
  envName := h.envName
  envType := h.envType
  description := h.description
  desiredState := by
    cases desiredState with
    | none => exact h.desiredState
    | some ds => exact congrArg (Option.map DesiredState.view) (desiredState_mongo (some ds))
  status := congrArg (Option.map _) h.status
  generation := congrArg (· + 1) h.generation

theorem holds_transitionStatus {doc : MongoEnvironment} {m : Deploy.MongoEnvironment}
    (h : Holds doc m) (toStatus : EnvironmentStatus) :
    Holds (doc.transitionStatus toStatus) ((MongoRepository.statusUpdate toStatus).apply m) where
  scope := h.scope
  envName := h.envName
  envType := h.envType
  description := h.description
  desiredState := h.desiredState
  status := by
    rw [MongoEnvironment.transitionStatus,h.status]
    by_cases hmessage : toStatus.message = "" <;>
      by_cases hobserved : toStatus.observedGeneration = 0 <;>
        simp [MongoRepository.statusUpdate,Update.apply,hmessage,hobserved]
  generation := h.generation

/-- Reading the encoded document is reading the other one. -/
theorem toDomain_of_holds {doc : MongoEnvironment} {m : Deploy.MongoEnvironment} (h : Holds doc m) :
    doc.toDomain.map Environment.view = m.toDomain := by
  have hds := h.desiredState
  cases hdoc : desiredStateFromMongo doc.desiredState with
  | none =>
    rw [hdoc] at hds
    cases hds
  | some ds =>
    rw [hdoc] at hds
    have hview : ds.view = m.desiredState := Option.some.inj hds
    have hvalid : ds.normalize.validate = m.desiredState.normalize.validate := by
      rw [DesiredState.validate,DesiredState.view_normalize,hview]
    have hstate : ds.normalize.view = m.desiredState.normalize := by
      rw [DesiredState.view_normalize,hview]
    rw [MongoEnvironment.toDomain,Deploy.MongoEnvironment.toDomain,h.scope,h.envName,
      newEnvironmentName_self]
    simp only [rehydrateEnvironment,cloneDesiredState_eq,hdoc,h.status,h.envType,envType_enum,
      h.description,h.generation]
    unfold Domain.rehydrateEnvironment
    split
    · rename_i err herr
      rw [hvalid] at herr
      split
      · rename_i err' herr'
        cases herr.symm.trans herr'
        rfl
      · rename_i hok
        cases herr.symm.trans hok
    · rename_i hok
      rw [hvalid] at hok
      split
      · rename_i err herr
        cases hok.symm.trans herr
      · exact congrArg Except.ok (by simp only [Environment.view,hstate])

/-! ## No drift -/

/-- The storage encoding and the copies lose nothing, the API encoding loses nothing exactly where
every constant is declared, and every written document is rehydrated as it was written. -/
theorem mappings_do_not_drift :
    (∀ ds : DesiredState,
      desiredStateFromMongo (desiredStateToMongo (some ds)) = some ds ∧
      cloneDesiredState (some ds) = some ds ∧
      (fromProtoDesiredState (toProtoDesiredState (some ds)) = .ok ds ↔ ds.Declared)) ∧
    ∀ doc, Written doc → ∃ env, doc.toDomain = .ok env ∧
      desiredStateFromMongo doc.desiredState = some env.desiredState := by
  constructor
  · intro ds
    exact ⟨desiredState_mongo (some ds),cloneDesiredState_eq (some ds),desiredState_proto_iff ds⟩
  · intro doc hdoc
    exact toDomain_of_readable (readable_of_written hdoc)

/-- A stateless web artifact behind a route, a stateful one with its secrets and its
configuration, and a cache. -/
def demoDesired : DesiredState where
  artifacts := [
    { name := "web", app := "shop", image := "shop/web", ports := [⟨"http",8080⟩], replicas := 2
      tlsEnabled := true, ossEnabled := false, workloadKind := workloadKindStateless
      http := some ⟨["shop.example"],[⟨"http",⟨httpPathRuleTypePathPrefix,"/"⟩⟩]⟩
      env := ⟨[("MODE","live")],by decide⟩, secretBindings := [], configBlocks := [] },
    { name := "orders", app := "shop", image := "shop/orders", ports := [], replicas := 1
      tlsEnabled := false, ossEnabled := true, workloadKind := workloadKindStateful, http := none
      env := EnvMap.empty, secretBindings := [⟨"token","orders-token","value"⟩]
      configBlocks := [⟨"limits",[⟨"size","int","8"⟩]⟩] }]
  infras := [⟨"redis","small","cache","shop",⟨true,"1Gi"⟩⟩]

theorem demoDesired_wellFormed : demoDesired.WellFormed :=
  ⟨by decide,by decide⟩

def demoEnvironment : Environment where
  name := Domain.demoName
  envType := .dev
  description := ""
  desiredState := demoDesired
  status := { desired := .present, state := .pending }
  generation := 1
  wellFormed := demoDesired_wellFormed

theorem mappings_do_not_drift_demo :
    fromProtoDesiredState (toProtoDesiredState (some demoDesired)) = .ok demoDesired ∧
    ∃ env, ((mongoEnvironmentFromDomain demoEnvironment).updateDesired none .absent).toDomain =
      .ok env ∧ env.desiredState = demoDesired := by
  have hcreated : Written (mongoEnvironmentFromDomain demoEnvironment) :=
    .create (newEnvironment_of_wellFormed (by decide) demoDesired_wellFormed)
  obtain ⟨env,henv,hds⟩ := mappings_do_not_drift.2 _ hcreated.delete
  refine ⟨((mappings_do_not_drift.1 demoDesired).2.2).mpr (by decide),env,henv,?_⟩
  exact (Option.some.inj hds).symm

/-- An accepted workload of a kind that no constant declares. -/
def undeclaredKind : DesiredState where
  artifacts := [
    { name := "web", app := "shop", image := "shop/web", ports := [], replicas := 1
      tlsEnabled := false, ossEnabled := false, workloadKind := 2, http := none
      env := EnvMap.empty, secretBindings := [], configBlocks := [] }]
  infras := []

theorem undeclared_kind_is_accepted_and_lost :
    undeclaredKind.normalize = undeclaredKind ∧ undeclaredKind.validate = .ok () ∧
    fromProtoDesiredState (toProtoDesiredState (some undeclaredKind)) ≠ .ok undeclaredKind ∧
    ¬(∀ ds : DesiredState, ds.normalize.validate = .ok () →
      fromProtoDesiredState (toProtoDesiredState (some ds.normalize)) = .ok ds.normalize) := by
  have hlost : fromProtoDesiredState (toProtoDesiredState (some undeclaredKind)) ≠
      .ok undeclaredKind := by decide
  refine ⟨by decide,by decide,hlost,?_⟩
  intro h
  exact hlost (h undeclaredKind (by decide))

end Dominion.Deploy.Mapping
