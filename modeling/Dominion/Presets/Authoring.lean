import Dominion.Framework.Lts
import Dominion.Framework.Projection
import Dominion.Presets.Derivation

/-! # Preset authoring

Calls read and write the preset store and register what they have written with the registry of
agent presets; the disposers of the live registrations are kept in a map.  Every `await` on the
store or the registry splits a call, and any number of calls may be under way. -/
namespace Dominion.Presets

open Dominion.Framework

/-- The template declarations, and what the registry says of an id that is registered. -/
structure Deployment where
  templates : List (String × TemplateDeclaration)
  duplicate : String → String

structure CreatePresetInput where
  id : String
  template : String
  role : Option String
  persona : String
  displayName : Option String
  deriving DecidableEq

structure PresetPatch where
  persona : Option String
  displayName : Option String
  deriving DecidableEq

structure PresetView where
  id : String
  template : String
  role : Option String
  persona : String
  displayName : Option String
  createTime : Nat
  updateTime : Nat
  deriving DecidableEq

def toView (record : PresetRecord) : PresetView where
  id := record.id
  template := record.template
  role := record.role
  persona := record.persona
  displayName := record.displayName
  createTime := record.createTime
  updateTime := record.updateTime

inductive Reply where
  | view (v : PresetView)
  | composed (agentPreset : String)
  | removed
  deriving DecidableEq

abbrev Result := Except PresetAuthoringError Reply

/-! ## Checks -/

def notFound (id : String) : PresetAuthoringError :=
  ⟨.notFound,"preset " ++ id ++ " not found"⟩

def alreadyExists (id : String) : PresetAuthoringError :=
  ⟨.alreadyExists,"preset " ++ id ++ " already exists"⟩

/-- `mapRegistryError`, of the rejection of an id that is registered. -/
def rejected (d : Deployment) (id : String) : PresetAuthoringError :=
  ⟨.internal,"agent preset registry operation failed: " ++ d.duplicate id⟩

def activationFailed (id reason : String) : PresetAuthoringError :=
  ⟨.invalidArgument,"preset \"" ++ id ++ "\" activation failed: " ++ reason⟩

def presetIdPattern : String := "^[a-z0-9][a-z0-9-]*$"

def isPresetId (id : String) : Bool :=
  let plain := fun c : Char => ('a' ≤ c && c ≤ 'z') || ('0' ≤ c && c ≤ '9')
  match id.toList with
  | [] => false
  | c :: cs => plain c && cs.all fun c => plain c || c = '-'

def templateFor (d : Deployment) (templateId : String) :
    Except PresetAuthoringError TemplateDeclaration :=
  require (d.templates.lookup templateId) ⟨.invalidArgument,"unknown template \"" ++ templateId ++
    "\"; available: " ++ ", ".intercalate (d.templates.map Prod.fst)⟩

/-- The checks of `create` after the look-up of the id, and the record. -/
def newRecord (d : Deployment) (input : CreatePresetInput) (now : Nat) :
    Except PresetAuthoringError PresetRecord := do
  refuse (isPresetId input.id = false)
    ⟨.invalidArgument,"preset id \"" ++ input.id ++ "\" must match " ++ presetIdPattern⟩
  let _ ← templateFor d input.template
  refuse (input.id ∈ d.templates.map Prod.fst)
    ⟨.alreadyExists,"preset \"" ++ input.id ++ "\" is already supplied by the deployment"⟩
  return {
    id := input.id
    template := input.template
    role := input.role
    persona := input.persona
    displayName := input.displayName
    createTime := now
    updateTime := now }

def PresetRecord.patched (record : PresetRecord) (patch : PresetPatch) (now : Nat) : PresetRecord :=
  { record with
    persona := patch.persona.getD record.persona
    displayName := patch.displayName.or record.displayName
    updateTime := now }

/-- The definition of a record whose template is declared. -/
def definitionOf (d : Deployment) (record : PresetRecord) :
    Except PresetAuthoringError PresetDefinition := do
  let template ← templateFor d record.template
  deriveComposition record template

/-! ## Calls -/

inductive Operation where
  | compose (presetId : Option String)
  | create (input : CreatePresetInput)
  | update (id : String) (patch : PresetPatch)
  | remove (id : String)

/-- What a call is waiting for; `created` tells a `create` from an `update`. -/
inductive Stage where
  /-- `store.get` of `compose`. -/
  | composing (presetId : String)
  /-- The first `store.get` of `create`. -/
  | creating (input : CreatePresetInput)
  /-- `store.create`. -/
  | inserting (record : PresetRecord)
  /-- `store.get` of `update`. -/
  | updating (id : String) (patch : PresetPatch)
  /-- `store.update`. -/
  | replacing (record : PresetRecord)
  /-- `store.update` has settled; the disposer is looked up next. -/
  | replaced (record : PresetRecord)
  /-- The former disposer of `update`. -/
  | retiring (record : PresetRecord) (disposer : Nat)
  /-- `registry.register`. -/
  | registering (record : PresetRecord) (definition : PresetDefinition) (created : Bool)
  /-- `registry.register` has settled; the disposer is retained next. -/
  | registered (record : PresetRecord) (disposer : Nat) (created : Bool)
  /-- `registry.resolve`. -/
  | resolving (record : PresetRecord) (created : Bool)
  /-- `store.remove` of a `create` that fails. -/
  | rollingBack (record : PresetRecord) (err : PresetAuthoringError)
  /-- The last `store.get` of `create`. -/
  | viewing (id : String)
  /-- `store.remove` of `remove`. -/
  | removing (id : String)
  /-- `store.remove` has settled; the disposer is looked up next. -/
  | removed (id : String)
  /-- The disposer of `remove`. -/
  | releasing (id : String) (disposer : Nat)
  | settled (result : Result)

/-- A call up to its first `await`. -/
def begin : Operation → Stage
  | .compose none => .settled (.error ⟨.invalidArgument,
      "preset id is required: this deployment configures no default preset"⟩)
  | .compose (some presetId) => .composing presetId
  | .create input => .creating input
  | .update id patch => .updating id patch
  | .remove id => .removing id

/-- `registerRecord`, up to `registry.register`. -/
def registerRecord (d : Deployment) (record : PresetRecord) (created : Bool) : Stage :=
  match definitionOf d record with
  | .ok definition => .registering record definition created
  | .error err => if created then .rollingBack record err else .settled (.error err)

/-! ## The engine -/

/-- The store, the live registrations, the map of the disposers and the calls.  A disposer is the
number of its registration. -/
structure State where
  store : String → Option PresetRecord
  registry : String → Option (Nat × PresetDefinition)
  disposers : String → Option Nat
  registrations : Nat
  calls : List Stage
  /-- The call that has changed the stored record last; no call knows it. -/
  writer : String → Option Nat

namespace State

def goto (s : State) (c : Nat) (stage : Stage) : State :=
  { s with calls := s.calls.set c stage }

/-- A call has changed what is stored. -/
def write (s : State) (c : Nat) (id : String) (record : Option PresetRecord) : State :=
  { s with
    store := Function.update s.store id record
    writer := Function.update s.writer id (some c) }

/-- A disposer has been called. -/
def dispose (s : State) (id : String) (disposer : Nat) : State :=
  { s with
    registry := Function.update s.registry id (Projection.release disposer (s.registry id)) }

def setDisposer (s : State) (id : String) (disposer : Option Nat) : State :=
  { s with disposers := Function.update s.disposers id disposer }

def addRegistration (s : State) (id : String) (definition : PresetDefinition) : State :=
  { s with
    registry := Function.update s.registry id (some (s.registrations,definition))
    registrations := s.registrations + 1 }

end State

/-- What `store.get` answers, and what follows. -/
def State.found (s : State) (c : Nat) (id : String)
    (next : PresetRecord → Except PresetAuthoringError Stage) : State :=
  match require (s.store id) (notFound id) >>= next with
  | .ok stage => s.goto c stage
  | .error err => s.goto c (.settled (.error err))

/-- A call goes on until its next `await`; `broken` is the diagnostic of an activation. -/
def State.advance (d : Deployment) (s : State) (c now : Nat) (broken : Option String) :
    Stage → Option State
  | .composing presetId => some <| s.found c presetId fun record => do
      let _ ← templateFor d record.template
      return .settled (.ok (.composed record.id))
  | .creating input =>
    match s.store input.id with
    | some _ => some (s.goto c (.settled (.error (alreadyExists input.id))))
    | none =>
      match newRecord d input now with
      | .ok record => some (s.goto c (.inserting record))
      | .error err => some (s.goto c (.settled (.error err)))
  | .inserting record =>
    match s.store record.id with
    | some _ => some (s.goto c (.settled (.error (alreadyExists record.id))))
    | none => some ((s.write c record.id (some record)).goto c (registerRecord d record true))
  | .updating id patch => some <| s.found c id fun record =>
      if patch.persona = none ∧ patch.displayName = none then
        return .settled (.ok (.view (toView record)))
      else do
        let _ ← templateFor d record.template
        return .replacing (record.patched patch now)
  | .replacing record =>
    match s.store record.id with
    | none => some (s.goto c (.settled (.error (notFound record.id))))
    | some _ => some ((s.write c record.id (some record)).goto c (.replaced record))
  -- There is nothing to delete from the map where the id has no disposer.
  | .replaced record => some <| (s.setDisposer record.id none).goto c <|
    match s.disposers record.id with
    | some disposer => .retiring record disposer
    | none => registerRecord d record false
  | .retiring record disposer =>
    some ((s.dispose record.id disposer).goto c (registerRecord d record false))
  | .registering record definition created =>
    match s.registry record.id with
    | some _ =>
      let err := rejected d record.id
      some (s.goto c (if created then .rollingBack record err else .settled (.error err)))
    | none => some ((s.addRegistration record.id definition).goto c
        (.registered record s.registrations created))
  | .registered record disposer created =>
    some ((s.setDisposer record.id (some disposer)).goto c (.resolving record created))
  | .resolving record created =>
    match broken with
    | some reason => some (s.goto c (.settled (.error (activationFailed record.id reason))))
    | none => some (s.goto c (if created then .viewing record.id
        else .settled (.ok (.view (toView record)))))
  | .rollingBack record err =>
    match s.store record.id with
    | none => some (s.goto c (.settled (.error err)))
    | some _ => some ((s.write c record.id none).goto c (.settled (.error err)))
  | .viewing id => some <| s.found c id fun record =>
      return .settled (.ok (.view (toView record)))
  | .removing id =>
    match s.store id with
    | none => some (s.goto c (.settled (.error (notFound id))))
    | some _ => some ((s.write c id none).goto c (.removed id))
  | .removed id => some <| (s.setDisposer id none).goto c <|
    match s.disposers id with
    | some disposer => .releasing id disposer
    | none => .settled (.ok .removed)
  | .releasing id disposer => some ((s.dispose id disposer).goto c (.settled (.ok .removed)))
  | .settled _ => none

inductive Label where
  | call (operation : Operation)
  | advance (c now : Nat) (broken : Option String)

def step (d : Deployment) (s : State) : Label → Option State
  | .call operation => some { s with calls := s.calls ++ [begin operation] }
  | .advance c now broken => s.calls[c]?.bind (s.advance d c now broken)

/-- `restore`, of one stored record. -/
def restoreRecord (d : Deployment) (s : State) (record : PresetRecord) : State :=
  match definitionOf d record,s.registry record.id with
  | .ok definition,none =>
    (s.addRegistration record.id definition).setDisposer record.id (some s.registrations)
  | _,_ => s

/-- An engine whose store has these records. -/
def booted (records : List PresetRecord) : State where
  store id := records.find? fun record => record.id = id
  registry _ := none
  disposers _ := none
  registrations := 0
  calls := []
  writer _ := none

/-- The engine after `restore`, which goes through what `store.list` answers. -/
def restored (d : Deployment) (records : List PresetRecord) : State :=
  records.foldl (restoreRecord d) (booted records)

def system (d : Deployment) : Lts State Label where
  init s := ∃ records : List PresetRecord,
    (records.map PresetRecord.id).Nodup ∧ s = restored d records
  step := step d

/-- All calls have settled. -/
def State.Settled (s : State) : Prop :=
  ∀ stage ∈ s.calls, ∃ result, stage = .settled result

/-- The registered definitions are those of the stored records, and their disposers are kept. -/
def State.Mirrored (d : Deployment) (s : State) : Prop :=
  ∀ id, (s.registry id).map Prod.snd =
      ((s.store id).bind fun record => (definitionOf d record).toOption) ∧
    s.disposers id = (s.registry id).map Prod.fst

end Dominion.Presets
