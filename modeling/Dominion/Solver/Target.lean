import Dominion.Deploy.Domain.EnvironmentName
import Dominion.Deploy.Domain.Spec
import Dominion.Framework.Text

/-! # Targets

A target `app/service:port` names a service and selects one of its ports by number or by name. -/
namespace Dominion.Solver

open Dominion.Framework
open Dominion.Deploy.Domain (Err goQuote isDigit isLowerLetter)

/-- Selects a port either by number or by name. -/
structure PortSelector where
  numeric : Int := 0
  name : String := ""
  deriving DecidableEq

namespace PortSelector

def numericPort (port : Int) : PortSelector :=
  { numeric := port }

def namedPort (name : String) : PortSelector :=
  { name := name }

def isNumeric (p : PortSelector) : Bool :=
  decide (0 < p.numeric)

def isNamed (p : PortSelector) : Bool :=
  decide (p.name ≠ "")

end PortSelector

structure Target where
  app : String
  service : String
  portSelector : PortSelector
  deriving DecidableEq

def dominionSchemePrefix : String := "dominion:///"

def maxPort : Int := 65535

/-- `^[a-z][a-z0-9-]*$`. -/
def dnsLabelPattern (s : String) : Bool :=
  match s.toList with
  | [] => false
  | c :: cs => isLowerLetter c && cs.all fun d => isLowerLetter d || isDigit d || d == '-'

/-- `strings.Contains`. -/
def containsText (cs : List Char) (sub : List Char) : Bool :=
  cs.tails.any fun tail => sub.isPrefixOf tail

/-- `strings.Cut` at a separator of one character. -/
def cutChar (s : String) (sep : Char) : Option (String × String) :=
  if sep ∈ s.toList then
    some (String.ofList (s.toList.takeWhile (· ≠ sep)),
      String.ofList (s.toList.dropWhile (· ≠ sep)).tail)
  else none

/-- The value of decimal digits. -/
def digitsValue (cs : List Char) : Option Nat :=
  if cs ≠ [] ∧ cs.all isDigit then some (cs.foldl (fun n c => 10 * n + (c.toNat - 48)) 0) else none

/-- `strconv.Atoi`; `none` is an error. -/
def atoi (s : String) : Option Int :=
  let value : Option Int :=
    match s.toList with
    | '-' :: cs => (digitsValue cs).map fun n => -(n : Int)
    | '+' :: cs => (digitsValue cs).map Int.ofNat
    | cs => (digitsValue cs).map Int.ofNat
  value.filter fun n => decide (-9223372036854775808 ≤ n ∧ n ≤ 9223372036854775807)

def invalidTarget (raw what : String) : Err :=
  .new ("invalid target " ++ goQuote raw ++ ": " ++ what)

/-- The selector of a port that is not blank. -/
def parsePort (raw portPart : String) : Except Err PortSelector :=
  match atoi portPart with
  | some parsedPort =>
    if parsedPort < 0 ∨ maxPort < parsedPort then .error (invalidTarget raw "port out of range")
    else .ok (.numericPort parsedPort)
  | none =>
    if dnsLabelPattern portPart then .ok (.namedPort portPart)
    else .error (invalidTarget raw "port must be numeric or a valid DNS label")

/-- The target without its scheme. -/
def parsePath (raw trimmed : String) : Except Err Target :=
  let pathPart := ((cutChar trimmed ':').map Prod.fst).getD trimmed
  let portPart := Text.trimSpace (((cutChar trimmed ':').map Prod.snd).getD "")
  match cutChar pathPart '/' with
  | none => .error (invalidTarget raw "want app/service:port")
  | some (app,service) =>
    let appPart := Text.trimSpace app
    let servicePart := Text.trimSpace service
    if appPart = "" ∨ servicePart = "" ∨ '/' ∈ servicePart.toList then
      .error (invalidTarget raw "want app/service:port")
    else if portPart = "" then
      if (cutChar trimmed ':').isSome then
        .error (invalidTarget raw "port must be numeric or a valid DNS label")
      else .error (invalidTarget raw "port is required")
    else
      match parsePort raw portPart with
      | .error e => .error e
      | .ok portSelector => .ok ⟨appPart,servicePart,portSelector⟩

def parseTarget (raw : String) : Except Err Target :=
  let trimmed := Text.trimSpace raw
  if trimmed = "" then .error (invalidTarget raw "want app/service:port")
  else if dominionSchemePrefix.toList.isPrefixOf trimmed.toList then
    parsePath raw (String.ofList (trimmed.toList.drop dominionSchemePrefix.toList.length))
  else if containsText trimmed.toList "://".toList then
    .error (invalidTarget raw "want app/service:port or dominion:///app/service:port")
  else parsePath raw trimmed

private theorem parsePath_ok {raw trimmed : String} {t : Target}
    (h : parsePath raw trimmed = .ok t) :
    t.app ≠ "" ∧ t.service ≠ "" := by
  unfold parsePath at h
  dsimp only at h
  split at h
  · cases h
  · split at h
    · cases h
    · rename_i hparts
      simp only [not_or] at hparts
      split at h
      · split at h <;> cases h
      · split at h
        · cases h
        · cases h
          exact ⟨hparts.1,hparts.2.1⟩

/-- A parsed target names an app and a service. -/
theorem parseTarget_ok {raw : String} {t : Target} (h : parseTarget raw = .ok t) :
    t.app ≠ "" ∧ t.service ≠ "" := by
  unfold parseTarget at h
  dsimp only at h
  split at h
  · cases h
  · split at h
    · exact parsePath_ok h
    · split at h
      · cases h
      · exact parsePath_ok h

end Dominion.Solver
