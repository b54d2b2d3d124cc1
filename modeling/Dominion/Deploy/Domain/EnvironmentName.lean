import Dominion.Deploy.Domain.Errors

/-! # Environment names

The scope and the name of an environment match `^[a-z][a-z0-9]{0,7}$`, and an
`EnvironmentName` can only be built from such a pair. -/
namespace Dominion.Deploy.Domain

def isLowerLetter (c : Char) : Bool :=
  decide ('a' ≤ c) && decide (c ≤ 'z')

def isDigit (c : Char) : Bool :=
  decide ('0' ≤ c) && decide (c ≤ '9')

/-- `^[a-z][a-z0-9]{0,7}$`. -/
def environmentNameRegexp (s : String) : Bool :=
  match s.toList with
  | [] => false
  | c :: cs => isLowerLetter c && (decide (cs.length ≤ 7) && cs.all fun d => isLowerLetter d || isDigit d)

/-- The canonical resource name of an environment. -/
structure EnvironmentName where
  scope : String
  envName : String
  valid : (environmentNameRegexp scope && environmentNameRegexp envName) = true
  deriving DecidableEq

def validateScope (s : String) : Except Err Unit :=
  if environmentNameRegexp s then .ok () else .error (.of .errInvalidName)

def newEnvironmentName (scope envName : String) : Except Err EnvironmentName :=
  if h : (environmentNameRegexp scope && environmentNameRegexp envName) = true then
    .ok ⟨scope,envName,h⟩
  else .error (.of .errInvalidName)

namespace EnvironmentName

def toString (n : EnvironmentName) : String :=
  "deploy/scopes/" ++ n.scope ++ "/environments/" ++ n.envName

def label (n : EnvironmentName) : String :=
  n.scope ++ "." ++ n.envName

end EnvironmentName

/-- The environment of the concrete runs. -/
def demoName : EnvironmentName := ⟨"dev","demo",by decide⟩

theorem newEnvironmentName_ok {scope envName : String} {n : EnvironmentName}
    (h : newEnvironmentName scope envName = .ok n) : n.scope = scope ∧ n.envName = envName := by
  unfold newEnvironmentName at h
  split at h
  · cases h; exact ⟨rfl,rfl⟩
  · cases h

theorem newEnvironmentName_self (n : EnvironmentName) :
    newEnvironmentName n.scope n.envName = .ok n := by
  unfold newEnvironmentName
  rw [dif_pos n.valid]

end Dominion.Deploy.Domain
