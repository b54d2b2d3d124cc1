/-! # The board rules of the game

A recognized board carries its dimensions, so that every coordinate within them names a cell. -/
namespace Dominion.Game

inductive CellStatus
  | initial
  | number (n : Fin 9)
  | flag
  | hitMine
  | mine
  | unknown
  deriving DecidableEq, Repr

/-- The decoded top-left mine counter. -/
inductive MineCounter
  | decoded (value : Int)
  | undecoded
  deriving DecidableEq, Repr

structure GameState where
  width : Nat
  height : Nat
  /-- Indexed by row, then by column. -/
  grid : List (List CellStatus)
  mineCounter : Option MineCounter
  rows : grid.length = height
  columns : ∀ row ∈ grid, row.length = width
  deriving DecidableEq

inductive EndStatus
  | won
  | lost
  deriving DecidableEq, Repr

inductive GameStatus
  | concluded (status : EndStatus)
  | playing
  deriving DecidableEq, Repr

inductive OperationType
  | click
  | flag
  | chord
  deriving DecidableEq, Repr

inductive MoveRejection
  | noActiveGame
  | outOfBounds
  | gameOver
  | gameWon
  | cellAlreadyRevealed
  | cellIsFlagged
  | cannotFlagRevealed
  | chordRequiresNumber
  | chordNoUnrevealedNeighbor
  deriving DecidableEq, Repr

def skipReasons : List MoveRejection :=
  [.cellAlreadyRevealed,.cellIsFlagged,.cannotFlagRevealed,.chordRequiresNumber,
    .chordNoUnrevealedNeighbor]

namespace CellStatus

def revealedNumber : CellStatus → Bool
  | .number _ => true
  | _ => false

def chordNumber : CellStatus → Bool
  | .number n => decide (n ≠ 0)
  | _ => false

def terminal (c : CellStatus) : Bool :=
  decide (c = .hitMine ∨ c = .mine)

/-- The statuses that no won board has. -/
def nonWin (c : CellStatus) : Bool :=
  decide (c = .initial ∨ c = .hitMine ∨ c = .mine ∨ c = .unknown)

end CellStatus

namespace GameState

def cell (s : GameState) (x y : Nat) : CellStatus :=
  (s.grid.getD y []).getD x .unknown

def isTerminalState (s : GameState) : Bool :=
  s.grid.any fun row => row.any CellStatus.terminal

def isWin (s : GameState) : Bool :=
  !(s.grid.any fun row => row.any CellStatus.nonWin) && decide (s.mineCounter = some (.decoded 0))

/-- Loss first. -/
def gameStatus (s : GameState) : GameStatus :=
  if s.isTerminalState then .concluded .lost
  else if s.isWin then .concluded .won
  else .playing

def neighborOffsets : List (Int × Int) :=
  [(-1,-1),(0,-1),(1,-1),(-1,0),(1,0),(-1,1),(0,1),(1,1)]

def inBounds (s : GameState) (x y : Int) : Bool :=
  decide (0 ≤ x) && decide (0 ≤ y) && decide (x < s.width) && decide (y < s.height)

def neighbors (s : GameState) (x y : Int) : List CellStatus :=
  neighborOffsets.filterMap fun d =>
    if s.inBounds (x + d.1) (y + d.2) then some (s.cell (x + d.1).toNat (y + d.2).toNat) else none

def hasInitialOrUnknownNeighbor (s : GameState) (x y : Int) : Bool :=
  (s.neighbors x y).any fun c => decide (c = .initial ∨ c = .unknown)

/-- A revealed number less the flags around it; every other cell is a dash. -/
def remainTokenAt (s : GameState) (x y : Nat) : String :=
  match s.cell x y with
  | .number n =>
    if (CellStatus.number n).chordNumber then
      toString ((n.val : Int) - (s.neighbors x y).count .flag)
    else "-"
  | _ => "-"

/-- The strict check before a dispatch: why a move is rejected. -/
def validateMove (s : GameState) (tool : OperationType) (x y : Int) : Option MoveRejection :=
  if x < 0 ∨ y < 0 ∨ x ≥ s.width ∨ y ≥ s.height then some .outOfBounds
  else if s.isTerminalState then some .gameOver
  else if s.isWin then some .gameWon
  else
    let cell := s.cell x.toNat y.toNat
    if cell = .unknown then none
    else
      match tool with
      | .click =>
        if cell.revealedNumber then some .cellAlreadyRevealed
        else if cell = .flag then some .cellIsFlagged
        else none
      | .flag => if cell.revealedNumber then some .cannotFlagRevealed else none
      | .chord =>
        if !cell.chordNumber then some .chordRequiresNumber
        else if !s.hasInitialOrUnknownNeighbor x y then some .chordNoUnrevealedNeighbor
        else none

/-- A finished game rejects every move, with a reason that stops a batch. -/
theorem validateMove_of_over {s : GameState} (h : s.gameStatus ≠ .playing) (tool : OperationType)
    (x y : Int) : ∃ reason, s.validateMove tool x y = some reason ∧ reason ∉ skipReasons := by
  unfold validateMove
  split
  · exact ⟨_,rfl,by decide⟩
  · by_cases hterminal : s.isTerminalState = true
    · exact ⟨.gameOver,if_pos hterminal,by decide⟩
    · by_cases hwin : s.isWin = true
      · exact ⟨.gameWon,by rw [if_neg hterminal,if_pos hwin],by decide⟩
      · exact absurd (by simp [gameStatus,hterminal,hwin]) h

end GameState

/-! ## Statistics -/

/-- The successful operations of each type. -/
structure OperationCounts where
  click : Nat := 0
  flag : Nat := 0
  chord : Nat := 0
  deriving DecidableEq, Repr

namespace OperationCounts

def get (c : OperationCounts) : OperationType → Nat
  | .click => c.click
  | .flag => c.flag
  | .chord => c.chord

def increment (c : OperationCounts) : OperationType → OperationCounts
  | .click => { c with click := c.click + 1 }
  | .flag => { c with flag := c.flag + 1 }
  | .chord => { c with chord := c.chord + 1 }

def total (c : OperationCounts) : Nat :=
  c.click + c.flag + c.chord

@[simp] theorem total_increment (c : OperationCounts) (t : OperationType) :
    (c.increment t).total = c.total + 1 := by
  cases t <;> simp [increment,total] <;> omega

@[simp] theorem get_increment (c : OperationCounts) (t u : OperationType) :
    (c.increment t).get u = c.get u + if t = u then 1 else 0 := by
  cases t <;> cases u <;> rfl

end OperationCounts

structure GameStats where
  operationCount : Nat
  operationsByType : OperationCounts
  correctFlags : Option Int
  deriving DecidableEq, Repr

def computeGameStats (initState : Option GameState) (finalState : GameState) (operationCount : Nat)
    (operationsByType : OperationCounts) : GameStats where
  operationCount := operationCount
  operationsByType := operationsByType
  correctFlags :=
    match initState.bind GameState.mineCounter with
    | some (.decoded totalMines) =>
      some (totalMines - finalState.grid.flatten.count .mine - finalState.grid.flatten.count .hitMine)
    | _ => none

end Dominion.Game
