import Dominion.Game.Board

/-! # The texts that the game answers

The model of a board that a player reads is the grid with a ruler around it. -/
namespace Dominion.Game

def padStart (width : Nat) (s : String) : String :=
  String.ofList (List.replicate (width - s.length) ' ') ++ s

def CellStatus.symbol : CellStatus → String
  | .initial => "*"
  | .number n => toString n.val
  | .flag => "F"
  | .hitMine => "X"
  | .mine => "M"
  | .unknown => "?"

/-- A grid with its columns and rows labelled, every slot as wide as the widest one. -/
def renderGridWithRuler (width height : Nat) (tokenAt : Nat → Nat → String) : String :=
  let maxIndex : Int := max ((width : Int) - 1) ((height : Int) - 1)
  let indexLabelWidth := max ("col" ++ toString maxIndex).length ("row" ++ toString maxIndex).length
  let tokens := (List.range height).map fun y => (List.range width).map fun x => tokenAt x y
  let maxTokenWidth := (tokens.flatten.map String.length).foldr max 0
  let columnWidth := max 1 (max indexLabelWidth maxTokenWidth)
  let line := fun slots : List String => " ".intercalate (slots.map (padStart columnWidth))
  let header := line ("" :: (List.range width).map fun x => "col" ++ toString x)
  let rows := tokens.zipIdx.map fun r => line (("row" ++ toString r.2) :: r.1)
  "\n".intercalate (header :: rows)

def renderBoardText (s : GameState) : String :=
  "board size " ++ toString s.width ++ "*" ++ toString s.height ++ "\n\n" ++
    renderGridWithRuler s.width s.height fun x y => (s.cell x y).symbol

def EndStatus.text : EndStatus → String
  | .won => "won"
  | .lost => "lost"

def GameStatus.text : GameStatus → String
  | .concluded status => status.text
  | .playing => "playing"

def OperationType.text : OperationType → String
  | .click => "click"
  | .flag => "flag"
  | .chord => "chord"

def MoveRejection.text : MoveRejection → String
  | .noActiveGame => "no_active_game"
  | .outOfBounds => "out_of_bounds"
  | .gameOver => "game_over"
  | .gameWon => "game_won"
  | .cellAlreadyRevealed => "cell_already_revealed"
  | .cellIsFlagged => "cell_is_flagged"
  | .cannotFlagRevealed => "cannot_flag_revealed"
  | .chordRequiresNumber => "chord_requires_number"
  | .chordNoUnrevealedNeighbor => "chord_no_unrevealed_neighbor"

/-- A single cell operation. -/
structure CellOperation where
  type : OperationType
  x : Int
  y : Int
  deriving DecidableEq, Repr

/-- Why a batch stopped at an operation. -/
inductive StopReason
  | rejected (reason : MoveRejection)
  | ended (status : EndStatus)
  deriving DecidableEq, Repr

def StopReason.text : StopReason → String
  | .rejected reason => reason.text
  | .ended status => status.text

def initSuccessText (s : GameState) : String :=
  "new game started\ngame status: " ++ s.gameStatus.text ++ "\n\n" ++ renderBoardText s

def operateResultText (executed skipped : Nat) (s : GameState)
    (stopped : Option (CellOperation × StopReason)) : String :=
  let line :=
    match stopped with
    | some (op,reason) =>
      "saolei_operate → stopped at " ++ op.type.text ++ "(" ++ toString op.x ++ "," ++
        toString op.y ++ ") (" ++ reason.text ++ ")"
    | none =>
      if skipped > 0 then
        "saolei_operate → executed " ++ toString executed ++ " ops, skipped " ++
          toString skipped ++ " no-op ops"
      else "saolei_operate → executed " ++ toString executed ++ " ops"
  line ++ "\ngame status: " ++ s.gameStatus.text ++ "\n\n" ++ renderBoardText s

def remainLegend : String :=
  "legend: each value = mines still unmarked around that number cell = " ++
    "cell number − adjacent flags (0 or negative when over-flagged); it is " ++
    "NOT the count of flags. Columns are x and rows are y — the same (x, y) " ++
    "as saolei_operate."

def remainText (s : GameState) : String :=
  "saolei_remain → computed" ++ "\n" ++ "game status: " ++ s.gameStatus.text ++ "\n\n" ++
    "board size " ++ toString s.width ++ "*" ++ toString s.height ++ "\n" ++ remainLegend ++
    "\n\n" ++ renderGridWithRuler s.width s.height s.remainTokenAt

/-- The rejection of a call without an active game, the only one that the runtime answers so. -/
def noActiveGameText : String :=
  "rejected: " ++ MoveRejection.noActiveGame.text ++ "\n\ncall saolei_init first to start a game."

def unrecognizableText : String :=
  "unable to recognize board\n\ncall saolei_init to start a new game."

end Dominion.Game
