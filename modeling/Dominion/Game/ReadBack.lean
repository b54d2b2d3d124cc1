import Dominion.Framework.Columns
import Dominion.Framework.Fallible
import Dominion.Framework.Text
import Dominion.Game.Text

/-! # Boards read back

Every slot of a grid keeps its columns, and the columns depend on the size of the board alone, so
the board and the remain grid name the same cells by the same coordinates. -/
namespace Dominion.Game

open Dominion.Framework

/-! ## The lines of a grid -/

def columnWidth (width height : Nat) (tokenAt : Nat → Nat → String) : Nat :=
  let maxIndex : Int := max ((width : Int) - 1) ((height : Int) - 1)
  let indexLabelWidth := max ("col" ++ toString maxIndex).length ("row" ++ toString maxIndex).length
  let tokens := (List.range height).map fun y => (List.range width).map fun x => tokenAt x y
  max 1 (max indexLabelWidth ((tokens.flatten.map String.length).foldr max 0))

def colLabel (x : Nat) : String :=
  "col" ++ toString x

def rowLabel (y : Nat) : String :=
  "row" ++ toString y

def headerSlots (width : Nat) : List String :=
  "" :: (List.range width).map colLabel

def rowSlots (width : Nat) (tokenAt : Nat → Nat → String) (y : Nat) : List String :=
  rowLabel y :: (List.range width).map fun x => tokenAt x y

def gridLines (width height : Nat) (tokenAt : Nat → Nat → String) : List String :=
  let line := Columns.line (columnWidth width height tokenAt)
  line (headerSlots width) :: (List.range height).map fun y => line (rowSlots width tokenAt y)

variable {width height x y : Nat} {tokenAt : Nat → Nat → String} {s : GameState}

private theorem render_eq : renderGridWithRuler width height tokenAt =
    "\n".intercalate (gridLines width height tokenAt) := by
  have hzip : ((List.range height).map fun y =>
      (List.range width).map fun x => tokenAt x y).zipIdx =
        (List.range height).map fun y => ((List.range width).map fun x => tokenAt x y,y) := by
    apply List.ext_getElem
    · simp
    · intro i hi hi'
      simp
  unfold renderGridWithRuler
  dsimp only
  rw [hzip,List.map_map]
  rfl

/-! ## The width of a slot -/

/-- A token without blanks that fits below the shortest label. -/
structure Token (token : String) : Prop where
  short : token.length ≤ 4
  nonempty : token ≠ ""
  no_space : ' ' ∉ token.toList
  no_newline : '\n' ∉ token.toList

private theorem length_repr_mono {m n : Nat} (h : m ≤ n) :
    (Nat.repr m).length ≤ (Nat.repr n).length := by
  rw [Nat.length_repr_le_iff Nat.length_repr_pos]
  exact Nat.lt_of_le_of_lt h ((Nat.length_repr_le_iff Nat.length_repr_pos).mp le_rfl)

private theorem length_colLabel (x : Nat) : (colLabel x).length = 3 + (Nat.repr x).length := by
  rw [colLabel,String.length_append]
  rfl

private theorem length_rowLabel (y : Nat) : (rowLabel y).length = 3 + (Nat.repr y).length := by
  rw [rowLabel,String.length_append]
  rfl

private theorem foldr_max_le {xs : List Nat} {b : Nat} (h : ∀ x ∈ xs, x ≤ b) :
    xs.foldr max 0 ≤ b := by
  induction xs with
  | nil => exact Nat.zero_le b
  | cons x xs ih =>
    obtain ⟨hx,hxs⟩ := List.forall_mem_cons.mp h
    exact max_le hx (ih hxs)

/-- The labels decide the width. -/
theorem columnWidth_eq (hwidth : 1 ≤ width) (hheight : 1 ≤ height)
    (htokens : ∀ x y, Token (tokenAt x y)) :
    columnWidth width height tokenAt = (colLabel (max (width - 1) (height - 1))).length := by
  have hindex : max ((width : Int) - 1) ((height : Int) - 1) =
      ((max (width - 1) (height - 1) : Nat) : Int) := by omega
  have hpos : 0 < (Nat.repr (max (width - 1) (height - 1))).length := Nat.length_repr_pos
  have htoken : ((((List.range height).map fun y =>
      (List.range width).map fun x => tokenAt x y).flatten.map String.length).foldr max 0) ≤ 4 := by
    apply foldr_max_le
    intro n hn
    obtain ⟨token,htoken,rfl⟩ := List.mem_map.mp hn
    obtain ⟨row,hrow,hmem⟩ := List.mem_flatten.mp htoken
    obtain ⟨y,_,rfl⟩ := List.mem_map.mp hrow
    obtain ⟨x,_,rfl⟩ := List.mem_map.mp hmem
    exact (htokens x y).short
  have hcol := length_colLabel (max (width - 1) (height - 1))
  have hrow := length_rowLabel (max (width - 1) (height - 1))
  unfold columnWidth
  rw [hindex]
  change max 1 (max (max (colLabel (max (width - 1) (height - 1))).length
    (rowLabel (max (width - 1) (height - 1))).length) _) = _
  omega

/-! ## Blanks -/

private theorem isDigit_label {c : Char} {label : String} (n : Nat)
    (h : c ∈ (label ++ toString n).toList) : c ∈ label.toList ∨ c.isDigit = true := by
  rw [String.toList_append,List.mem_append] at h
  refine h.imp_right fun hc => ?_
  have hdigits : c ∈ Nat.toDigits 10 n := by
    simpa [Nat.repr_eq_ofList_toDigits] using hc
  exact Nat.isDigit_of_mem_toDigits (by decide) (by decide) hdigits

private theorem notMem_label {c : Char} {label : String} (n : Nat) (hdigit : c.isDigit = false)
    (hlabel : c ∉ label.toList) : c ∉ (label ++ toString n).toList := by
  intro h
  rcases isDigit_label n h with h | h
  · exact hlabel h
  · rw [hdigit] at h
    cases h

private theorem colLabel_blank (x : Nat) : ' ' ∉ (colLabel x).toList ∧ '\n' ∉ (colLabel x).toList :=
  ⟨notMem_label x (by decide) (by decide),notMem_label x (by decide) (by decide)⟩

private theorem rowLabel_blank (y : Nat) : ' ' ∉ (rowLabel y).toList ∧ '\n' ∉ (rowLabel y).toList :=
  ⟨notMem_label y (by decide) (by decide),notMem_label y (by decide) (by decide)⟩

private theorem mem_headerSlots {slot : String} (h : slot ∈ headerSlots width) :
    slot = "" ∨ ∃ x, x < width ∧ slot = colLabel x := by
  rcases List.mem_cons.mp h with h | h
  · exact Or.inl h
  · obtain ⟨x,hx,rfl⟩ := List.mem_map.mp h
    exact Or.inr ⟨x,List.mem_range.mp hx,rfl⟩

private theorem mem_rowSlots {slot : String} (h : slot ∈ rowSlots width tokenAt y) :
    slot = rowLabel y ∨ ∃ x, slot = tokenAt x y := by
  rcases List.mem_cons.mp h with h | h
  · exact Or.inl h
  · obtain ⟨x,_,rfl⟩ := List.mem_map.mp h
    exact Or.inr ⟨x,rfl⟩

/-! ## A ruled grid -/

/-- The lines of a grid: every slot in its columns, and the words of a row its label and its
tokens. -/
structure Ruled (slotWidth width height : Nat) (tokenAt : Nat → Nat → String)
    (lines : List String) : Prop where
  count : lines.length = height + 1
  lengths : ∀ line ∈ lines, line.length + 1 = (width + 1) * (slotWidth + 1)
  header : ∀ line, lines[0]? = some line →
    Columns.slotAt slotWidth 0 line = (Columns.pad slotWidth "").toList ∧
      ∀ x < width, Columns.slotAt slotWidth (x + 1) line =
        (Columns.pad slotWidth (colLabel x)).toList
  rows : ∀ y < height, ∀ line, lines[y + 1]? = some line →
    Columns.slotAt slotWidth 0 line = (Columns.pad slotWidth (rowLabel y)).toList ∧
      (∀ x < width, Columns.slotAt slotWidth (x + 1) line =
        (Columns.pad slotWidth (tokenAt x y)).toList) ∧
      (Columns.words line.toList).map String.ofList = rowSlots width tokenAt y

private theorem words_rowSlots (htokens : ∀ x y, Token (tokenAt x y)) (slotWidth y : Nat) :
    (Columns.words (Columns.line slotWidth (rowSlots width tokenAt y)).toList).map String.ofList =
      rowSlots width tokenAt y := by
  have hspace : ∀ slot ∈ rowSlots width tokenAt y, ' ' ∉ slot.toList := by
    intro slot hslot
    rcases mem_rowSlots hslot with rfl | ⟨x,rfl⟩
    · exact (rowLabel_blank y).1
    · exact (htokens x y).no_space
  have hnonempty : ∀ slot ∈ rowSlots width tokenAt y, slot ≠ "" := by
    intro slot hslot
    rcases mem_rowSlots hslot with rfl | ⟨x,rfl⟩
    · intro h
      have hlen := length_rowLabel y
      rw [h] at hlen
      simp at hlen
      omega
    · exact (htokens x y).nonempty
  have hall : (rowSlots width tokenAt y).filter (fun slot => slot ≠ "") =
      rowSlots width tokenAt y :=
    List.filter_eq_self.mpr fun slot hslot => decide_eq_true (hnonempty slot hslot)
  rw [Columns.words_line hspace,hall,List.map_map]
  simp [Function.comp_def]

section ruled

variable (hwidth : 1 ≤ width) (hheight : 1 ≤ height) (htokens : ∀ x y, Token (tokenAt x y))
include hwidth hheight htokens

private theorem headerSlots_fit :
    ∀ slot ∈ headerSlots width, slot.length ≤ columnWidth width height tokenAt := by
  intro slot hslot
  rw [columnWidth_eq hwidth hheight htokens,length_colLabel]
  rcases mem_headerSlots hslot with rfl | ⟨x,hx,rfl⟩
  · exact Nat.zero_le _
  · rw [length_colLabel]
    have hmono := length_repr_mono (show x ≤ max (width - 1) (height - 1) by omega)
    omega

private theorem rowSlots_fit (hy : y < height) :
    ∀ slot ∈ rowSlots width tokenAt y, slot.length ≤ columnWidth width height tokenAt := by
  intro slot hslot
  rw [columnWidth_eq hwidth hheight htokens,length_colLabel]
  rcases mem_rowSlots hslot with rfl | ⟨x,rfl⟩
  · rw [length_rowLabel]
    have hmono := length_repr_mono (show y ≤ max (width - 1) (height - 1) by omega)
    omega
  · have hshort := (htokens x y).short
    have hpos : 0 < (Nat.repr (max (width - 1) (height - 1))).length := Nat.length_repr_pos
    omega

private theorem gridLines_ruled : Ruled (columnWidth width height tokenAt) width height tokenAt
    (gridLines width height tokenAt) := by
  have hheader := headerSlots_fit hwidth hheight htokens
  have hrow : ∀ y, y < height → _ := fun y hy => rowSlots_fit hwidth hheight htokens hy
  have hheaderLen : (headerSlots width).length = width + 1 := by simp [headerSlots]
  have hrowLen : ∀ y, (rowSlots width tokenAt y).length = width + 1 := by
    intro y
    simp [rowSlots]
  constructor
  · simp [gridLines]
  · intro line hline
    rcases List.mem_cons.mp hline with rfl | hline
    · rw [Columns.length_line hheader (List.cons_ne_nil _ _),hheaderLen]
    · obtain ⟨y,hy,rfl⟩ := List.mem_map.mp hline
      rw [Columns.length_line (hrow y (List.mem_range.mp hy)) (List.cons_ne_nil _ _),hrowLen]
  · intro line hline
    obtain rfl : Columns.line (columnWidth width height tokenAt) (headerSlots width) = line := by
      simpa [gridLines] using hline
    refine ⟨Columns.slotAt_line hheader rfl,fun x hx => ?_⟩
    exact Columns.slotAt_line hheader (by simp [headerSlots,hx])
  · intro y hy line hline
    obtain rfl : Columns.line (columnWidth width height tokenAt) (rowSlots width tokenAt y) =
        line := by
      simpa [gridLines,hy] using hline
    refine ⟨Columns.slotAt_line (hrow y hy) rfl,fun x hx => ?_,
      words_rowSlots htokens _ y⟩
    exact Columns.slotAt_line (hrow y hy) (by simp [rowSlots,hx])

end ruled

/-- No line of a grid breaks. -/
theorem gridLines_unbroken (htokens : ∀ x y, Token (tokenAt x y)) :
    ∀ line ∈ gridLines width height tokenAt, '\n' ∉ line.toList := by
  intro line hline hbreak
  rcases List.mem_cons.mp hline with rfl | hline
  · rcases Columns.mem_line hbreak with h | ⟨slot,hslot,h⟩
    · exact absurd h (by decide)
    · rcases mem_headerSlots hslot with rfl | ⟨x,_,rfl⟩
      · cases h
      · exact (colLabel_blank x).2 h
  · obtain ⟨y,_,rfl⟩ := List.mem_map.mp hline
    rcases Columns.mem_line hbreak with h | ⟨slot,hslot,h⟩
    · exact absurd h (by decide)
    · rcases mem_rowSlots hslot with rfl | ⟨x,rfl⟩
      · exact (rowLabel_blank y).2 h
      · exact (htokens x y).no_newline h

/-! ## The tokens of the two grids -/

private theorem symbol_token (c : CellStatus) : Token c.symbol := by
  cases c with
  | number n =>
    have hall : ∀ n : Fin 9, (CellStatus.number n).symbol.length ≤ 4 ∧
        (CellStatus.number n).symbol ≠ "" ∧ ' ' ∉ (CellStatus.number n).symbol.toList ∧
        '\n' ∉ (CellStatus.number n).symbol.toList := by decide
    obtain ⟨hshort,hnonempty,hspace,hnewline⟩ := hall n
    exact ⟨hshort,hnonempty,hspace,hnewline⟩
  | _ => exact ⟨by decide,by decide,by decide,by decide⟩

/-- At most eight cells around a cell are flagged. -/
theorem count_neighbors_le (s : GameState) (x y : Int) : (s.neighbors x y).count .flag ≤ 8 := by
  calc (s.neighbors x y).count .flag
      ≤ (s.neighbors x y).length := List.count_le_length
    _ ≤ GameState.neighborOffsets.length := List.length_filterMap_le _ _
    _ = 8 := rfl

private theorem remain_token (s : GameState) (x y : Nat) : Token (s.remainTokenAt x y) := by
  have hall : ∀ (n : Fin 9) (k : Fin 9), (toString ((n.val : Int) - (k.val : Nat))).length ≤ 4 ∧
      toString ((n.val : Int) - (k.val : Nat)) ≠ "" ∧
      ' ' ∉ (toString ((n.val : Int) - (k.val : Nat))).toList ∧
      '\n' ∉ (toString ((n.val : Int) - (k.val : Nat))).toList := by decide
  have hdash : Token "-" := ⟨by decide,by decide,by decide,by decide⟩
  unfold GameState.remainTokenAt
  split
  · rename_i n _
    split
    · have hcount := count_neighbors_le s x y
      obtain ⟨hshort,hnonempty,hspace,hnewline⟩ :=
        hall n ⟨(s.neighbors x y).count .flag,by omega⟩
      exact ⟨hshort,hnonempty,hspace,hnewline⟩
    · exact hdash
  · exact hdash

/-! ## The two texts -/

def cellStatuses : List CellStatus :=
  [.initial,.flag,.hitMine,.mine,.unknown] ++ (List.finRange 9).map .number

/-- The status that a symbol stands for. -/
def symbolStatus (symbol : String) : Option CellStatus :=
  cellStatuses.find? fun c => c.symbol = symbol

/-- The width, the height and the grid that a board text shows. -/
def readBoard (text : String) : Option (Nat × Nat × List (List CellStatus)) :=
  match (Text.split text '\n').drop 2 with
  | [] => none
  | header :: rows =>
    (rows.mapM fun row => ((Columns.words row.toList).drop 1).mapM fun word =>
      symbolStatus (String.ofList word)).map fun grid =>
        ((Columns.words header.toList).length,rows.length,grid)

private theorem symbolStatus_symbol (c : CellStatus) : symbolStatus c.symbol = some c := by
  cases c with
  | number n =>
    have hall : ∀ n : Fin 9, symbolStatus (CellStatus.number n).symbol = some (.number n) := by
      decide
    exact hall n
  | _ => decide

private theorem symbol_injective : Function.Injective CellStatus.symbol := by
  intro c d h
  have hc := symbolStatus_symbol c
  rw [h,symbolStatus_symbol] at hc
  exact (Option.some.inj hc).symm

private theorem notMem_size (s : GameState) :
    '\n' ∉ ("board size " ++ toString s.width ++ "*" ++ toString s.height).toList := by
  have hwidth : '\n' ∉ ("board size " ++ toString s.width).toList :=
    notMem_label s.width (by decide) (by decide)
  have hheight : '\n' ∉ ("*" ++ toString s.height).toList :=
    notMem_label s.height (by decide) (by decide)
  rw [String.append_assoc,String.toList_append,List.mem_append,not_or]
  exact ⟨hwidth,hheight⟩

private theorem notMem_status (g : GameStatus) : '\n' ∉ ("game status: " ++ g.text).toList := by
  cases g with
  | concluded e => cases e <;> decide
  | playing => decide

private theorem two_breaks : "\n\n" = "\n" ++ "\n" := by decide

private theorem one_break : String.singleton '\n' = "\n" := rfl

private theorem split_renderBoardText (s : GameState) :
    (Text.split (renderBoardText s) '\n').drop 2 =
      gridLines s.width s.height fun x y => (s.cell x y).symbol := by
  have hlines : renderBoardText s = (String.singleton '\n').intercalate
      (["board size " ++ toString s.width ++ "*" ++ toString s.height,""] ++
        gridLines s.width s.height fun x y => (s.cell x y).symbol) := by
    unfold renderBoardText
    rw [render_eq,one_break,two_breaks]
    simp only [List.cons_append,List.nil_append,gridLines,String.intercalate_cons_cons,
      String.append_assoc,String.empty_append]
  have hunbroken : ∀ line ∈ gridLines s.width s.height (fun x y => (s.cell x y).symbol),
      '\n' ∉ line.toList := gridLines_unbroken fun x y => symbol_token (s.cell x y)
  rw [hlines,Text.split_intercalate]
  · rfl
  · intro line hline
    rcases List.mem_append.mp hline with hline | hline
    · rcases List.mem_cons.mp hline with rfl | hline
      · exact notMem_size s
      · obtain rfl := List.mem_singleton.mp hline
        decide
    · exact hunbroken line hline
  · exact List.cons_ne_nil _ _

private theorem remainLegend_unbroken : '\n' ∉ remainLegend.toList := by
  unfold remainLegend
  simp only [String.toList_append,List.mem_append,not_or]
  exact ⟨⟨⟨Text.notMem_ofList (by decide),Text.notMem_ofList (by decide)⟩,
    Text.notMem_ofList (by decide)⟩,Text.notMem_ofList (by decide)⟩

private theorem split_remainText (s : GameState) : (Text.split (remainText s) '\n').drop 6 =
    gridLines s.width s.height s.remainTokenAt := by
  have hlines : remainText s = (String.singleton '\n').intercalate
      (["saolei_remain → computed","game status: " ++ s.gameStatus.text,"",
        "board size " ++ toString s.width ++ "*" ++ toString s.height,remainLegend,""] ++
        gridLines s.width s.height s.remainTokenAt) := by
    unfold remainText
    rw [render_eq,one_break,two_breaks]
    simp only [List.cons_append,List.nil_append,gridLines,String.intercalate_cons_cons,
      String.append_assoc,String.empty_append]
  have hunbroken : ∀ line ∈ gridLines s.width s.height s.remainTokenAt, '\n' ∉ line.toList :=
    gridLines_unbroken (remain_token s)
  rw [hlines,Text.split_intercalate]
  · rfl
  · intro line hline
    rcases List.mem_append.mp hline with hline | hline
    · simp only [List.mem_cons,List.not_mem_nil,or_false] at hline
      rcases hline with rfl | rfl | rfl | rfl | rfl | rfl
      · decide
      · exact notMem_status s.gameStatus
      · decide
      · exact notMem_size s
      · exact remainLegend_unbroken
      · decide
    · exact hunbroken line hline
  · exact List.cons_ne_nil _ _

/-- The cells row by row are the grid. -/
theorem cells_eq_grid (s : GameState) : ((List.range s.height).map fun y =>
    (List.range s.width).map fun x => s.cell x y) = s.grid := by
  apply List.ext_getElem
  · simp [s.rows]
  · intro y hy hy'
    rw [List.getElem_map,List.getElem_range]
    have hlen : s.grid[y].length = s.width := s.columns _ (List.getElem_mem hy')
    apply List.ext_getElem
    · simp [hlen]
    · intro x hx hx'
      simp [GameState.cell,hy',hx']

private theorem readBoard_renderBoardText (s : GameState) :
    readBoard (renderBoardText s) = some (s.width,s.height,s.grid) := by
  have htokens : ∀ x y, Token (s.cell x y).symbol := fun x y => symbol_token (s.cell x y)
  have hheader : (Columns.words (Columns.line (columnWidth s.width s.height fun x y =>
      (s.cell x y).symbol) (headerSlots s.width)).toList).length = s.width := by
    rw [Columns.words_line]
    · have hall : (headerSlots s.width).filter (fun slot => slot ≠ "") =
          (List.range s.width).map colLabel := by
        rw [headerSlots,List.filter_cons_of_neg (by simp)]
        apply List.filter_eq_self.mpr
        intro slot hslot
        obtain ⟨x,_,rfl⟩ := List.mem_map.mp hslot
        apply decide_eq_true
        intro h
        have hlen := length_colLabel x
        rw [h] at hlen
        simp at hlen
        omega
      rw [hall]
      simp
    · intro slot hslot
      rcases mem_headerSlots hslot with rfl | ⟨x,_,rfl⟩
      · decide
      · exact (colLabel_blank x).1
  have hrow : ∀ slotWidth y, ((Columns.words (Columns.line slotWidth
      (rowSlots s.width (fun x y => (s.cell x y).symbol) y)).toList).drop 1).mapM
        (fun word => symbolStatus (String.ofList word)) =
          some ((List.range s.width).map fun x => s.cell x y) := by
    intro slotWidth y
    have hwords : (Columns.words (Columns.line slotWidth
        (rowSlots s.width (fun x y => (s.cell x y).symbol) y)).toList).map String.ofList =
          rowSlots s.width (fun x y => (s.cell x y).symbol) y := words_rowSlots htokens slotWidth y
    generalize Columns.words (Columns.line slotWidth
      (rowSlots s.width (fun x y => (s.cell x y).symbol) y)).toList = words at hwords ⊢
    have htail : (words.drop 1).map String.ofList =
        (List.range s.width).map fun x => (s.cell x y).symbol := by
      rw [List.map_drop,hwords]
      rfl
    have hread : ((words.drop 1).map String.ofList).mapM symbolStatus =
        some ((List.range s.width).map fun x => s.cell x y) := by
      rw [htail,List.mapM_map]
      exact mapM_some fun x _ => symbolStatus_symbol (s.cell x y)
    rwa [List.mapM_map] at hread
  have hgrid : ((List.range s.height).map fun y => Columns.line (columnWidth s.width s.height
      fun x y => (s.cell x y).symbol) (rowSlots s.width (fun x y => (s.cell x y).symbol) y)).mapM
        (fun row => ((Columns.words row.toList).drop 1).mapM fun word =>
          symbolStatus (String.ofList word)) = some s.grid := by
    rw [List.mapM_map,← cells_eq_grid]
    exact mapM_some fun y _ => hrow _ y
  rw [readBoard,split_renderBoardText,gridLines]
  simp only [hgrid,hheader,Option.map_some,List.length_map,List.length_range]

/-- The rendered board reads back, and the remain grid names the same cells. -/
theorem board_reads_back (s : GameState) (hwidth : 1 ≤ s.width) (hheight : 1 ≤ s.height) :
    (∃ slotWidth,
      Ruled slotWidth s.width s.height (fun x y => (s.cell x y).symbol)
        ((Text.split (renderBoardText s) '\n').drop 2) ∧
      Ruled slotWidth s.width s.height s.remainTokenAt
        ((Text.split (remainText s) '\n').drop 6) ∧
      ((Text.split (renderBoardText s) '\n').drop 2).head? =
        ((Text.split (remainText s) '\n').drop 6).head?) ∧
    Function.Injective CellStatus.symbol ∧
    readBoard (renderBoardText s) = some (s.width,s.height,s.grid) := by
  have hsymbols : ∀ x y, Token (s.cell x y).symbol := fun x y => symbol_token (s.cell x y)
  have hremain := remain_token s
  have hsame : columnWidth s.width s.height s.remainTokenAt =
      columnWidth s.width s.height fun x y => (s.cell x y).symbol := by
    rw [columnWidth_eq hwidth hheight hremain,columnWidth_eq hwidth hheight hsymbols]
  refine ⟨⟨columnWidth s.width s.height fun x y => (s.cell x y).symbol,?_,?_,?_⟩,
    symbol_injective,readBoard_renderBoardText s⟩
  · rw [split_renderBoardText]
    exact gridLines_ruled hwidth hheight hsymbols
  · rw [split_remainText,← hsame]
    exact gridLines_ruled hwidth hheight hremain
  · rw [split_renderBoardText,split_remainText,gridLines,gridLines,hsame]
    rfl

/-- A mine counted next to a flag. -/
theorem board_reads_back_demo : readBoard (renderBoardText
    ⟨2,1,[[.number 1,.flag]],none,rfl,by decide⟩) = some (2,1,[[.number 1,.flag]]) :=
  (board_reads_back ⟨2,1,[[.number 1,.flag]],none,rfl,by decide⟩ (by decide) (by decide)).2.2

end Dominion.Game
