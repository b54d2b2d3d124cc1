import Mathlib.Data.List.Basic

/-! # Deploy errors

A Go error is its text with the sentinel errors it wraps, so that `errors.Is` is membership. -/
namespace Dominion.Deploy.Domain

inductive Sentinel where
  | errNotFound
  | errAlreadyExists
  | errInvalidState
  | errInvalidName
  | errInvalidSpec
  | errInvalidType
  | errRetryCounted
  | errWorkerFatal
  | errStaleState
  | errStaleGeneration
  | contextCanceled
  | contextDeadlineExceeded
  deriving DecidableEq, Repr

def Sentinel.text : Sentinel → String
  | errNotFound => "environment does not exist"
  | errAlreadyExists => "environment already exists"
  | errInvalidState => "invalid state transition"
  | errInvalidName => "invalid resource name"
  | errInvalidSpec => "invalid deployment spec"
  | errInvalidType => "invalid environment type"
  | errRetryCounted => "retryable error with counted retry"
  | errWorkerFatal => "worker fatal error"
  | errStaleState => "state has changed since observation"
  | errStaleGeneration => "generation has changed since observation"
  | contextCanceled => "context canceled"
  | contextDeadlineExceeded => "context deadline exceeded"

structure Err where
  wraps : List Sentinel
  text : String
  deriving DecidableEq, Repr

namespace Err

/-- `errors.Is`. -/
def is (e : Err) (s : Sentinel) : Bool :=
  decide (s ∈ e.wraps)

/-- `errors.New`. -/
def new (text : String) : Err :=
  ⟨[],text⟩

def of (s : Sentinel) : Err :=
  ⟨[s],s.text⟩

/-- `fmt.Errorf("{prefix}%w", e)`. -/
def withContext (context : String) (e : Err) : Err :=
  ⟨e.wraps,context ++ e.text⟩

/-- `fmt.Errorf("%w: {detail}", s)`: only the sentinel is wrapped. -/
def wrapping (s : Sentinel) (detail : String) : Err :=
  ⟨[s],s.text ++ ": " ++ detail⟩

/-- `errors.Join`. -/
def join (es : List Err) : Err :=
  ⟨es.flatMap Err.wraps,"\n".intercalate (es.map Err.text)⟩

@[simp] theorem is_of (s t : Sentinel) : (of s).is t = decide (t = s) := by
  simp [of,is]

@[simp] theorem is_withContext (context : String) (e : Err) (s : Sentinel) :
    (withContext context e).is s = e.is s := rfl

@[simp] theorem is_wrapping (s t : Sentinel) (detail : String) :
    (wrapping s detail).is t = decide (t = s) := by
  simp [wrapping,is]

end Err

end Dominion.Deploy.Domain
