import Dominion.Framework.Fallible
import Dominion.Framework.Overlay

/-! # Preset compositions

A stored preset becomes the definition that the registry of agent presets gets: the rows of its
template, with the preset's persona in the persona row. -/
namespace Dominion.Presets

open Dominion.Framework

inductive PresetAuthoringErrorCode where
  | invalidArgument
  | alreadyExists
  | notFound
  | failedPrecondition
  | internal
  deriving DecidableEq

structure PresetAuthoringError where
  code : PresetAuthoringErrorCode
  message : String
  deriving DecidableEq

structure PresetRecord where
  id : String
  template : String
  role : Option String
  persona : String
  displayName : Option String
  createTime : Nat
  updateTime : Nat
  deriving DecidableEq

/-- A value in the configuration of a row; what is no text is only copied. -/
inductive ConfigValue where
  | text (s : String)
  | other (json : String)
  deriving DecidableEq

inductive RowConfig where
  | absent
  | object (fields : List (String × ConfigValue))
  | other (json : String)
  deriving DecidableEq

structure CompositionRow where
  name : String
  config : RowConfig
  deriving DecidableEq

structure TemplateDeclaration where
  description : Option String
  plugins : List CompositionRow
  deriving DecidableEq

structure PresetDefinition where
  id : String
  plugins : List CompositionRow
  name : Option String
  description : Option String
  deriving DecidableEq

def personaRowName : String := "@deepseek-ai/dsh-persona"

def personaIndexes (rows : List CompositionRow) : List Nat :=
  (rows.zipIdx.filter fun row => row.1.name = personaRowName).map Prod.snd

def locatePersonaRow (rows : List CompositionRow) (templateId : String) :
    Except PresetAuthoringError Nat :=
  match personaIndexes rows with
  | [index] => .ok index
  | indexes => .error ⟨.invalidArgument,"template \"" ++ templateId ++
      "\" convention violated: expected exactly one " ++ personaRowName ++ " row, found " ++
      indexes.length.repr⟩

/-- The configuration with the persona in it; one that is no object is replaced. -/
def RowConfig.withPersona (config : RowConfig) (persona : String) : RowConfig :=
  match config with
  | .object fields => .object (put "prefix" (.text persona) fields)
  | _ => .object [("prefix",.text persona)]

def deriveRows (rows : List CompositionRow) (persona templateId : String) :
    Except PresetAuthoringError (List CompositionRow) :=
  if persona = "" then .ok rows
  else do
    let index ← locatePersonaRow rows templateId
    return rows.modify index fun row => { row with config := row.config.withPersona persona }

def deriveComposition (record : PresetRecord) (template : TemplateDeclaration) :
    Except PresetAuthoringError PresetDefinition := do
  let plugins ← deriveRows template.plugins record.persona record.template
  return {
    id := record.id
    plugins
    name := record.displayName
    description := template.description }

/-- The definition is registered under the id of the record, and its rows are the template's. -/
theorem deriveComposition_ok {record : PresetRecord} {template : TemplateDeclaration}
    {definition : PresetDefinition} (h : deriveComposition record template = .ok definition) :
    definition.id = record.id ∧
      definition.plugins.map CompositionRow.name = template.plugins.map CompositionRow.name := by
  obtain ⟨plugins,hplugins,hdefinition⟩ := ok_of_bind h
  cases hdefinition
  refine ⟨rfl,?_⟩
  unfold deriveRows at hplugins
  split at hplugins
  · cases hplugins
    rfl
  · obtain ⟨index,_,hrows⟩ := ok_of_bind hplugins
    cases hrows
    apply List.ext_getElem?
    intro i
    rw [List.getElem?_map,List.getElem?_map,List.getElem?_modify]
    cases template.plugins[i]? with
    | none => rfl
    | some row =>
      by_cases hi : index = i
      · simp [hi]
      · simp [hi]

end Dominion.Presets
