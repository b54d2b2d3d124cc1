import Dominion.Game.Text
import Mathlib.Data.List.GetD
import Mathlib.Data.List.TakeDrop

/-! # One board over many screenshots

A board keeps the state that it recognized last and accepts a new one when it is compatible with
it.  What a screenshot shows is up to the recognition. -/
namespace Dominion.Game

namespace CellStatus

/-- The status as the messages spell it. -/
def name : CellStatus → String
  | .initial => "INITIAL"
  | .number n => toString n.val
  | .flag => "FLAG"
  | .hitMine => "HIT_MINE"
  | .mine => "MINE"
  | .unknown => "UNKNOWN"

/-- `REVEALED`, the statuses that are permanent within a game. -/
def isRevealed : CellStatus → Bool
  | .number _ => true
  | .hitMine => true
  | .mine => true
  | _ => false

end CellStatus

inductive Mismatch
  | dimension
  | state
  deriving DecidableEq, Repr

/-- Outcome of a compatibility check. -/
inductive Compatibility
  | ok
  | mismatch (kind : Mismatch) (reason : String)
  deriving DecidableEq, Repr

def compatibleCell (x y : Nat) (a b : CellStatus) : Compatibility :=
  if a = b then .ok
  else if a = .unknown ∨ b = .unknown then .ok
  else if a.isRevealed then
    .mismatch .state ("cell (" ++ toString x ++ "," ++ toString y ++ "): " ++ a.name ++ " -> " ++
      b.name ++ " (revealed cells are permanent)")
  else .ok

/-- The cells in the order in which the check visits them. -/
def coordinates (width height : Nat) : List (Nat × Nat) :=
  (List.range height).flatMap fun y => (List.range width).map fun x => (x,y)

/-- The first cell that may not change as it did. -/
def checkCells (prev next : GameState) : List (Nat × Nat) → Compatibility
  | [] => .ok
  | (x,y) :: cells =>
    match compatibleCell x y (prev.cell x y) (next.cell x y) with
    | .ok => checkCells prev next cells
    | mismatch => mismatch

def sizeText (s : GameState) : String :=
  toString s.width ++ "x" ++ toString s.height

/-- Whether `next` is a legal same-game successor of `prev`. -/
def checkCompatible (prev next : GameState) : Compatibility :=
  if prev.width ≠ next.width ∨ prev.height ≠ next.height then
    .mismatch .dimension ("board size " ++ sizeText prev ++ " -> " ++ sizeText next)
  else checkCells prev next (coordinates prev.width prev.height)

/-- What an update throws. -/
inductive UpdateError
  | recognition (message : String)
  | dimensionMismatch (prev next : Nat × Nat)
  | stateIncompatible (reason : String)
  deriving DecidableEq, Repr

def UpdateError.message : UpdateError → String
  | .recognition message => message
  | .dimensionMismatch prev next =>
    "board size changed: " ++ toString prev.1 ++ "x" ++ toString prev.2 ++ " -> " ++
      toString next.1 ++ "x" ++ toString next.2 ++ "; re-initialize with SaoleiBoard.init"
  | .stateIncompatible reason =>
    "incompatible state transition (" ++ reason ++
      "); re-initialize with SaoleiBoard.init for a new game"

/-- `recognizeBoard`: the dimensions are detected unless they are given. -/
abbrev Recognizer (Png : Type) :=
  Option (Nat × Nat) → Png → Except String GameState

structure SaoleiBoard where
  width : Nat
  height : Nat
  current : GameState
  deriving DecidableEq

namespace SaoleiBoard

variable {Png : Type}

def init (recognizeBoard : Recognizer Png) (options : Option (Nat × Nat)) (png : Png) :
    Except String SaoleiBoard :=
  match recognizeBoard options png with
  | .error error => .error error
  | .ok state => .ok ⟨state.width,state.height,state⟩

def updateFromScreenshot (recognizeBoard : Recognizer Png) (board : SaoleiBoard) (png : Png) :
    SaoleiBoard × Except UpdateError GameState :=
  match recognizeBoard none png with
  | .error error => (board,.error (.recognition error))
  | .ok next =>
    match checkCompatible board.current next with
    | .mismatch .dimension _ =>
      (board,.error (.dimensionMismatch (board.width,board.height) (next.width,next.height)))
    | .mismatch .state reason => (board,.error (.stateIncompatible reason))
    | .ok => ({ board with current := next },.ok next)

/-- The board after these screenshots, accepted or not. -/
def after (recognizeBoard : Recognizer Png) (board : SaoleiBoard) (pngs : List Png) : SaoleiBoard :=
  pngs.foldl (fun b png => (b.updateFromScreenshot recognizeBoard png).1) board

end SaoleiBoard

/-! ## The check -/

section check

variable {prev next : GameState} {x y : Nat}

private theorem compatibleCell_ok_iff {a b : CellStatus} :
    compatibleCell x y a b = .ok ↔ (a.isRevealed = true → b = a ∨ b = .unknown) := by
  unfold compatibleCell
  by_cases hab : a = b
  · simp [hab]
  · by_cases hunknown : a = .unknown ∨ b = .unknown
    · rcases hunknown with h | h
      · simp [h,CellStatus.isRevealed]
      · simp [h]
    · obtain ⟨ha,hb⟩ := not_or.mp hunknown
      simp [hab,ha,hb,Ne.symm hab]

theorem compatibleCell_mismatch {a b : CellStatus} {kind : Mismatch} {reason : String}
    (h : compatibleCell x y a b = .mismatch kind reason) :
    kind = .state ∧ a.isRevealed = true ∧ b ≠ a ∧ b ≠ .unknown ∧
      reason = "cell (" ++ toString x ++ "," ++ toString y ++ "): " ++ a.name ++ " -> " ++ b.name ++
        " (revealed cells are permanent)" := by
  unfold compatibleCell at h
  split at h
  · cases h
  · rename_i hab
    split at h
    · cases h
    · rename_i hunknown
      split at h
      · rename_i hrevealed
        cases h
        exact ⟨rfl,hrevealed,Ne.symm hab,fun hb => hunknown (Or.inr hb),rfl⟩
      · cases h

private theorem mem_coordinates {width height : Nat} :
    (x,y) ∈ coordinates width height ↔ x < width ∧ y < height := by
  simp [coordinates,and_comm]

private theorem checkCells_ok_iff {cells : List (Nat × Nat)} :
    checkCells prev next cells = .ok ↔
      ∀ c ∈ cells, compatibleCell c.1 c.2 (prev.cell c.1 c.2) (next.cell c.1 c.2) = .ok := by
  induction cells with
  | nil => simp [checkCells]
  | cons c cells ih =>
    rw [checkCells,List.forall_mem_cons]
    cases h : compatibleCell c.1 c.2 (prev.cell c.1 c.2) (next.cell c.1 c.2) with
    | ok => simp [ih]
    | mismatch kind reason => simp

/-- The check names the first cell that is not compatible. -/
theorem checkCells_mismatch {cells : List (Nat × Nat)} {kind : Mismatch} {reason : String}
    (h : checkCells prev next cells = .mismatch kind reason) :
    ∃ c ∈ cells, compatibleCell c.1 c.2 (prev.cell c.1 c.2) (next.cell c.1 c.2) =
      .mismatch kind reason := by
  induction cells with
  | nil => cases h
  | cons c cells ih =>
    rw [checkCells] at h
    cases hc : compatibleCell c.1 c.2 (prev.cell c.1 c.2) (next.cell c.1 c.2) with
    | ok =>
      rw [hc] at h
      obtain ⟨d,hd,hmismatch⟩ := ih h
      exact ⟨d,List.mem_cons_of_mem _ hd,hmismatch⟩
    | mismatch kind' reason' =>
      rw [hc] at h
      exact ⟨c,List.mem_cons_self,hc.trans h⟩

private theorem cell_outside (s : GameState) (h : ¬ (x < s.width ∧ y < s.height)) :
    s.cell x y = .unknown := by
  unfold GameState.cell
  by_cases hy : y < s.height
  · have hrow : y < s.grid.length := s.rows.symm ▸ hy
    have hlength := s.columns s.grid[y] (List.getElem_mem hrow)
    have hx : s.width ≤ x := by omega
    rw [List.getD_eq_getElem _ _ hrow,List.getD_eq_default _ _ (hlength.symm ▸ hx)]
  · have hrows := s.rows
    have hgrid : s.grid.length ≤ y := by omega
    rw [List.getD_eq_default _ _ hgrid]
    rfl

private theorem checkCompatible_ok_iff : checkCompatible prev next = .ok ↔
    (prev.width = next.width ∧ prev.height = next.height) ∧
      ∀ x y, (prev.cell x y).isRevealed = true →
        next.cell x y = prev.cell x y ∨ next.cell x y = .unknown := by
  unfold checkCompatible
  by_cases hsize : prev.width = next.width ∧ prev.height = next.height
  · rw [if_neg (by omega),checkCells_ok_iff]
    simp only [hsize,and_self,true_and]
    constructor
    · intro h x y hrevealed
      by_cases hin : x < prev.width ∧ y < prev.height
      · have hcell := h (x,y) (mem_coordinates.mpr (by omega))
        exact compatibleCell_ok_iff.mp hcell hrevealed
      · rw [cell_outside prev hin] at hrevealed
        cases hrevealed
    · intro h c hc
      exact compatibleCell_ok_iff.mpr (h c.1 c.2)
  · rw [if_pos (by omega)]
    simp [hsize]

end check

/-! ## A run of screenshots -/

namespace SaoleiBoard

variable {Png : Type} {recognizeBoard : Recognizer Png} {board : SaoleiBoard} {png : Png}

private theorem updateFromScreenshot_cases (recognizeBoard : Recognizer Png) (board : SaoleiBoard)
    (png : Png) :
    (∃ error, board.updateFromScreenshot recognizeBoard png = (board,.error error)) ∨
      ∃ next, checkCompatible board.current next = .ok ∧
        board.updateFromScreenshot recognizeBoard png =
          ({ board with current := next },.ok next) := by
  unfold updateFromScreenshot
  cases recognizeBoard none png with
  | error error => exact Or.inl ⟨_,rfl⟩
  | ok next =>
    cases hcheck : checkCompatible board.current next with
    | ok => exact Or.inr ⟨next,hcheck,by simp [hcheck]⟩
    | mismatch kind reason =>
      cases kind with
      | dimension => exact Or.inl ⟨_,by simp only [hcheck]; rfl⟩
      | state => exact Or.inl ⟨_,by simp only [hcheck]; rfl⟩

private theorem update_unchanged {error : UpdateError}
    (h : (board.updateFromScreenshot recognizeBoard png).2 = .error error) :
    (board.updateFromScreenshot recognizeBoard png).1 = board := by
  rcases updateFromScreenshot_cases recognizeBoard board png with h' | h'
  · obtain ⟨e,he⟩ := h'
    rw [he]
  · obtain ⟨next,-,hnext⟩ := h'
    rw [hnext] at h
    cases h

private theorem update_keeps (recognizeBoard : Recognizer Png) (board : SaoleiBoard) (png : Png) :
    let next := (board.updateFromScreenshot recognizeBoard png).1
    (next.current.width = board.current.width ∧ next.current.height = board.current.height) ∧
      ∀ x y, (board.current.cell x y).isRevealed = true →
        next.current.cell x y = board.current.cell x y ∨ next.current.cell x y = .unknown := by
  dsimp only
  rcases updateFromScreenshot_cases recognizeBoard board png with h | h
  · obtain ⟨e,he⟩ := h
    rw [he]
    exact ⟨⟨rfl,rfl⟩,fun x y _ => Or.inl rfl⟩
  · obtain ⟨next,hcheck,hnext⟩ := h
    obtain ⟨hsize,hcells⟩ := checkCompatible_ok_iff.mp hcheck
    rw [hnext]
    exact ⟨⟨hsize.1.symm,hsize.2.symm⟩,hcells⟩

private theorem after_take_succ (pngs : List Png) (k : Nat) :
    board.after recognizeBoard (pngs.take (k + 1)) = board.after recognizeBoard (pngs.take k) ∨
      ∃ png, board.after recognizeBoard (pngs.take (k + 1)) =
        ((board.after recognizeBoard (pngs.take k)).updateFromScreenshot recognizeBoard png).1 := by
  rw [List.take_add_one]
  cases pngs[k]? with
  | none => simp
  | some png =>
    apply Or.inr
    exact ⟨png,by simp [after,List.foldl_append]⟩

private theorem after_size (pngs : List Png) :
    (board.after recognizeBoard pngs).current.width = board.current.width ∧
      (board.after recognizeBoard pngs).current.height = board.current.height := by
  induction pngs generalizing board with
  | nil => exact ⟨rfl,rfl⟩
  | cons png pngs ih =>
    obtain ⟨hw,hh⟩ := (update_keeps recognizeBoard board png).1
    obtain ⟨hw',hh'⟩ := @ih (board.updateFromScreenshot recognizeBoard png).1
    exact ⟨hw'.trans hw,hh'.trans hh⟩

private theorem after_cell {pngs : List Png} {i j : Nat} (hij : i ≤ j) {x y : Nat}
    (hrevealed :
      ((board.after recognizeBoard (pngs.take i)).current.cell x y).isRevealed = true)
    (hknown : ∀ k, i < k → k ≤ j →
      (board.after recognizeBoard (pngs.take k)).current.cell x y ≠ .unknown) :
    (board.after recognizeBoard (pngs.take j)).current.cell x y =
      (board.after recognizeBoard (pngs.take i)).current.cell x y := by
  obtain ⟨d,rfl⟩ := Nat.exists_eq_add_of_le hij
  induction d with
  | zero => rfl
  | succ d ih =>
    rw [← Nat.add_assoc] at hknown ⊢
    have hsame := ih (by omega) fun k hik hkj => hknown k hik (by omega)
    rcases @after_take_succ Png recognizeBoard board pngs (i + d) with h | h
    · rw [h]
      exact hsame
    · obtain ⟨png,hpng⟩ := h
      have hkeeps := (update_keeps recognizeBoard
        (board.after recognizeBoard (pngs.take (i + d))) png).2 x y (hsame.symm ▸ hrevealed)
      rw [← hpng] at hkeeps
      exact (hkeeps.resolve_right (hknown (i + d + 1) (by omega) (by omega))).trans hsame

/-- Along the run of a board a revealed reading lasts until the cell reads as unknown, the size
never changes, and an update that throws changes nothing. -/
theorem revealed_until_unknown (recognizeBoard : Recognizer Png) (options : Option (Nat × Nat))
    (first : Png) (board : SaoleiBoard) (hinit : init recognizeBoard options first = .ok board)
    (pngs : List Png) :
    (∀ i j, i ≤ j → ∀ x y,
      ((board.after recognizeBoard (pngs.take i)).current.cell x y).isRevealed = true →
      (∀ k, i < k → k ≤ j →
        (board.after recognizeBoard (pngs.take k)).current.cell x y ≠ .unknown) →
      (board.after recognizeBoard (pngs.take j)).current.cell x y =
        (board.after recognizeBoard (pngs.take i)).current.cell x y) ∧
    ((board.after recognizeBoard pngs).current.width = board.width ∧
      (board.after recognizeBoard pngs).current.height = board.height) ∧
    ∀ png error, ((board.after recognizeBoard pngs).updateFromScreenshot recognizeBoard png).2 =
        .error error →
      ((board.after recognizeBoard pngs).updateFromScreenshot recognizeBoard png).1 =
        board.after recognizeBoard pngs := by
  have hsize : board.current.width = board.width ∧ board.current.height = board.height := by
    unfold init at hinit
    split at hinit
    · cases hinit
    · cases hinit
      exact ⟨rfl,rfl⟩
  refine ⟨fun i j hij x y hrevealed hknown => after_cell hij hrevealed hknown,?_,?_⟩
  · obtain ⟨hw,hh⟩ := @after_size Png recognizeBoard board pngs
    exact ⟨hw.trans hsize.1,hh.trans hsize.2⟩
  · intro png error herror
    exact update_unchanged herror

/-- A recognition that shows one cell and is handed what it reads. -/
def oneCell (_ : Option (Nat × Nat)) (status : CellStatus) : Except String GameState :=
  .ok ⟨1,1,[[status]],none,rfl,by simp⟩

theorem revealed_until_unknown_demo :
    ∃ board, init oneCell none (.number 3) = .ok board ∧
      (board.after oneCell [.number 3,.initial,.unknown]).current.cell 0 0 = .unknown ∧
      (board.after oneCell ([.number 3,.initial,.unknown].take 2)).current.cell 0 0 =
        (board.after oneCell ([.number 3,.initial,.unknown].take 0)).current.cell 0 0 := by
  refine ⟨_,rfl,by decide,?_⟩
  apply (revealed_until_unknown oneCell none (.number 3) _ rfl [.number 3,.initial,.unknown]).1
  · omega
  · decide
  · intro k hik hkj
    obtain rfl | rfl : k = 1 ∨ k = 2 := by omega
    · decide
    · decide

/-- One unknown reading in between and a revealed 3 becomes a 5. -/
theorem three_becomes_five :
    ∃ board, init oneCell none (.number 3) = .ok board ∧
      board.current.cell 0 0 = .number 3 ∧
      (board.updateFromScreenshot oneCell (.number 5)).2.toOption = none ∧
      (board.updateFromScreenshot oneCell .unknown).2.toOption.isSome = true ∧
      ((board.updateFromScreenshot oneCell .unknown).1.updateFromScreenshot oneCell
        (.number 5)).2.toOption.isSome = true ∧
      (board.after oneCell [.unknown,.number 5]).current.cell 0 0 = .number 5 := by
  exact ⟨_,rfl,rfl,by decide,by decide,by decide,by decide⟩

end SaoleiBoard
end Dominion.Game
