import Dominion.Game.Text

/-! # The runtime of one game

A call is a function of the state and of what its dispatches are answered.  Beside the result it
yields what others can observe, in the order in which it happens. -/
namespace Dominion.Game

/-- What is sent to the desktop. -/
inductive FlowPart
  | keyboardPress (key : String)
  | mouseMoveAndClick (xPx yPx : Int) (click method : String)
  deriving DecidableEq, Repr

def keyF2 := "KEYBOARD_KEY_F2"
def windowMessage := "MOUSE_INPUT_METHOD_WINDOW_MESSAGE"
def boardOriginXPx : Int := 24
def boardOriginYPx : Int := 200 - 96
def cellSizePx : Int := 32

def operationAction : OperationType → String
  | .click => "MOUSE_CLICK_ACTION_LEFT_CLICK"
  | .flag => "MOUSE_CLICK_ACTION_RIGHT_CLICK"
  | .chord => "MOUSE_CLICK_ACTION_LEFT_RIGHT_PRESS"

def CellOperation.part (op : CellOperation) : FlowPart :=
  .mouseMoveAndClick (boardOriginXPx + op.x * cellSizePx + cellSizePx / 2)
    (boardOriginYPx + op.y * cellSizePx + cellSizePx / 2) (operationAction op.type) windowMessage

/-- The answer to a dispatch. -/
inductive Receipt
  /-- The desktop side failed. -/
  | failed (message : String)
  /-- A receipt with the board that the engine recognizes in its screenshot, if there is a
  screenshot and the engine does not throw. -/
  | received (recognition : Option GameState)

inductive ToolOutcome
  | text (text : String) (concludesTurn : Bool)
  | error (message : String)
  deriving DecidableEq, Repr

def concludeMarker (s : GameState) : Bool :=
  decide (s.gameStatus ≠ .playing)

/-- What caused a step of the log. -/
inductive LogTool
  | init
  | operate (operations : List CellOperation)
  | gameEnd
  deriving DecidableEq, Repr

structure GameLogEntry where
  tool : LogTool
  state : GameState
  status : GameStatus
  deriving DecidableEq

structure GameEventRecord where
  status : EndStatus
  stats : GameStats
  endedAt : Nat
  deriving DecidableEq

/-- What a call does beside its result. -/
inductive Effect
  | dispatched (part : FlowPart)
  | logged (entry : GameLogEntry)
  /-- A call of `onBoardChange`. -/
  | published (entry : GameLogEntry)
  | recorded (record : GameEventRecord)
  deriving DecidableEq

/-- One operation of a call, or several. -/
inductive OperateInput
  | single (op : CellOperation)
  | batch (operations : List CellOperation)
  deriving DecidableEq, Repr

def OperateInput.operations : OperateInput → List CellOperation
  | .single op => [op]
  | .batch operations => operations

structure GameRuntime where
  /-- The latest recognized board. -/
  recognized : Option GameState := none
  initState : Option GameState := none
  operationCount : Nat := 0
  operationsByType : OperationCounts := {}
  gameLog : List GameLogEntry := []
  gameEvent : Option GameEventRecord := none
  deriving DecidableEq

inductive OpExecution
  | ok (state : GameState)
  | skip (reason : MoveRejection)
  | stop (reason : MoveRejection)
  | dispatchFailed (message : String)
  | unrecognizable

/-- How the loop over the operations of a call ends. -/
inductive Batch
  | done (executed skipped : Nat) (stopped : Option (CellOperation × StopReason))
  | dispatchFailed (message : String)
  | unrecognizable

/-- The state after a call, its result, and its effects in their order. -/
structure Called where
  runtime : GameRuntime
  outcome : ToolOutcome
  effects : List Effect

namespace GameRuntime

variable (g : GameRuntime)

def init (receipt : Receipt) : Called :=
  let part := FlowPart.keyboardPress keyF2
  match receipt with
  | .failed message => ⟨g,.error message,[.dispatched part]⟩
  | .received none =>
    ⟨{ g with recognized := none },.text unrecognizableText false,[.dispatched part]⟩
  | .received (some state) =>
    let entry : GameLogEntry := ⟨.init,state,.playing⟩
    ⟨{ g with
        recognized := some state
        initState := some state
        operationCount := 0
        operationsByType := {}
        gameLog := [entry] },
      .text (initSuccessText state) (concludeMarker state),[.dispatched part,.logged entry]⟩

/-- Validate, dispatch and recognize one operation. -/
def executeOperation (op : CellOperation) (receipt : Receipt) : GameRuntime × OpExecution :=
  match g.recognized with
  | none => (g,.stop .noActiveGame)
  | some board =>
    match board.validateMove op.type op.x op.y with
    | some reason => if reason ∈ skipReasons then (g,.skip reason) else (g,.stop reason)
    | none =>
      match receipt with
      | .failed message => (g,.dispatchFailed message)
      | .received none => ({ g with recognized := none },.unrecognizable)
      | .received (some state) =>
        ({ g with
            recognized := some state
            operationCount := g.operationCount + 1
            operationsByType := g.operationsByType.increment op.type },.ok state)

/-- Whether an operation is dispatched. -/
def dispatches (op : CellOperation) : Bool :=
  g.recognized.any fun board => decide (board.validateMove op.type op.x op.y = none)

/-- The loop over the operations from the one with index `i` on; `receipts` answers the dispatch of
each index. -/
def runBatch (receipts : Nat → Receipt) (g : GameRuntime) (i executed skipped : Nat) :
    List CellOperation → GameRuntime × Batch × List Effect
  | [] => (g,.done executed skipped none,[])
  | op :: ops =>
    let sent := if g.dispatches op then [Effect.dispatched op.part] else []
    match g.executeOperation op (receipts i) with
    | (g',.ok state) =>
      match state.gameStatus with
      | .concluded status => (g',.done (executed + 1) skipped (some (op,.ended status)),sent)
      | .playing =>
        let r := runBatch receipts g' (i + 1) (executed + 1) skipped ops
        (r.1,r.2.1,sent ++ r.2.2)
    | (g',.skip _) =>
      let r := runBatch receipts g' (i + 1) executed (skipped + 1) ops
      (r.1,r.2.1,sent ++ r.2.2)
    | (g',.stop reason) => (g',.done executed skipped (some (op,.rejected reason)),sent)
    | (g',.dispatchFailed message) => (g',.dispatchFailed message,sent)
    | (g',.unrecognizable) => (g',.unrecognizable,sent)

/-- The status with which an operation of the batch ended the game. -/
def endedStatus (stopped : Option (CellOperation × StopReason)) : Option EndStatus :=
  match stopped with
  | some (_,.ended status) => some status
  | _ => none

/-- The end of a call whose loop ran to its end: the log entry, its publication, and the record of
a game that ended. -/
def conclude (subscribed : Bool) (operations : List CellOperation) (now executed : Nat)
    (ended : Option EndStatus) (finalState : GameState) : GameRuntime × List Effect :=
  let entry : GameLogEntry := ⟨.operate operations,finalState,finalState.gameStatus⟩
  let g := { g with gameLog := g.gameLog ++ [entry] }
  let published :=
    if subscribed ∧ 0 < executed ∧ entry.status = .playing then [Effect.published entry] else []
  match ended with
  | none => (g,.logged entry :: published)
  | some status =>
    let stats := computeGameStats g.initState finalState g.operationCount g.operationsByType
    let record : GameEventRecord := ⟨status,stats,now⟩
    let last : GameLogEntry := ⟨.gameEnd,finalState,.concluded status⟩
    ({ g with gameEvent := some record, gameLog := g.gameLog ++ [last] },
      .logged entry :: published ++ [.recorded record,.logged last])

/-- A call of `operate`; `subscribed` says whether the runtime has an `onBoardChange`. -/
def operate (subscribed : Bool) (input : OperateInput) (receipts : Nat → Receipt) (now : Nat) :
    Called :=
  let operations := input.operations
  if operations = [] then
    match g.recognized with
    | none => ⟨g,.text noActiveGameText false,[]⟩
    | some board => ⟨g,.text (operateResultText 0 0 board none) (concludeMarker board),[]⟩
  else
    match runBatch receipts g 0 0 0 operations with
    | (g',.dispatchFailed message,sent) => ⟨g',.error message,sent⟩
    | (g',.unrecognizable,sent) => ⟨g',.text unrecognizableText false,sent⟩
    | (g',.done executed skipped stopped,sent) =>
      match g'.recognized with
      | none => ⟨g',.text noActiveGameText false,sent⟩
      | some finalState =>
        let r := g'.conclude subscribed operations now executed (endedStatus stopped) finalState
        ⟨r.1,.text (operateResultText executed skipped finalState stopped)
          (concludeMarker finalState),sent ++ r.2⟩

end GameRuntime

end Dominion.Game
