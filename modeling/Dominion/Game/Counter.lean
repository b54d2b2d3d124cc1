import Dominion.Framework.EcmaNumber
import Dominion.Game.Board

/-! # The mine counter

The three cells of the seven-segment display are decoded from the pixels; their number goes into
the win check and into the statistics. -/
namespace Dominion.Game

open Dominion.Framework.Ecma (Number)

/-! ## Pixels -/

/-- RGBA bytes, row by row. -/
structure DecodedImage where
  width : Nat
  height : Nat
  data : Fin (width * height * 4) → UInt8

structure RGB where
  r : Option UInt8
  g : Option UInt8
  b : Option UInt8
  deriving DecidableEq

/-- `(width * y + x) << 2` in 32 bits. -/
def pixelIndex (width x y : Int) : Int :=
  Int.bmod ((width * y + x) * 4) (2 ^ 32)

/-- `data[i]`, undefined outside of the array. -/
def DecodedImage.byte (img : DecodedImage) (i : Int) : Option UInt8 :=
  if h : 0 ≤ i ∧ i.toNat < img.width * img.height * 4 then some (img.data ⟨i.toNat,h.2⟩) else none

def getRGB (img : DecodedImage) (x y : Int) : RGB :=
  let i := pixelIndex img.width x y
  ⟨img.byte i,img.byte (i + 1),img.byte (i + 2)⟩

/-! ## The profile -/

inductive SegmentId
  | a | b | c | d | e | f | g
  deriving DecidableEq, Repr

def SegmentId.name : SegmentId → String
  | .a => "a"
  | .b => "b"
  | .c => "c"
  | .d => "d"
  | .e => "e"
  | .f => "f"
  | .g => "g"

/-- The core of a segment within its cell, both ends included. -/
structure Core where
  x0 : Int
  x1 : Int
  y0 : Int
  y1 : Int

structure CounterProfile where
  cellOrigins : List (Int × Int)
  segments : SegmentId → Core
  redMinR : Nat
  redMaxG : Nat
  redMaxB : Nat
  segmentOnRatio : ℚ

def defaultCounterProfile : CounterProfile where
  cellOrigins := [(38,126),(64,126),(90,126)]
  segments
    | .a => ⟨2,19,0,1⟩
    | .g => ⟨2,19,20,21⟩
    | .d => ⟨2,19,40,41⟩
    | .f => ⟨0,5,4,17⟩
    | .b => ⟨16,21,4,17⟩
    | .e => ⟨0,5,24,37⟩
    | .c => ⟨16,21,24,37⟩
  redMinR := 150
  redMaxG := 80
  redMaxB := 80
  segmentOnRatio := 1 / 2

def segmentIds : List SegmentId :=
  [.a,.b,.c,.d,.e,.f,.g]

inductive Glyph
  | digit (d : Fin 10)
  | minus
  deriving DecidableEq, Repr

def glyphTable : List (String × Glyph) :=
  [("abcdef",.digit 0),("bc",.digit 1),("abdeg",.digit 2),("abcdg",.digit 3),("bcfg",.digit 4),
    ("acdfg",.digit 5),("acdefg",.digit 6),("abc",.digit 7),("abcdefg",.digit 8),
    ("abcdfg",.digit 9),("g",.minus)]

/-- `Number(glyph)`. -/
def Glyph.number : Glyph → Number
  | .digit d => .finite (d.val : ℚ)
  | .minus => .nan

/-! ## Decoding -/

/-- `lo, …, hi`. -/
def between (lo hi : Int) : List Int :=
  (List.range (hi + 1 - lo).toNat).map fun k => lo + k

def CounterProfile.isRed (profile : CounterProfile) (rgb : RGB) : Bool :=
  rgb.r.any (fun r => decide (profile.redMinR ≤ r.toNat)) &&
    rgb.g.any (fun g => decide (g.toNat ≤ profile.redMaxG)) &&
    rgb.b.any fun b => decide (b.toNat ≤ profile.redMaxB)

/-- A pixel outside of the image is not red. -/
def redAt (img : DecodedImage) (profile : CounterProfile) (px py : Int) : Bool :=
  if px < 0 ∨ px ≥ img.width ∨ py < 0 ∨ py ≥ img.height then false
  else profile.isRed (getRGB img px py)

def isSegmentOn (img : DecodedImage) (cellX cellY : Int) (core : Core) (profile : CounterProfile) :
    Bool :=
  let pixels := (between core.y0 core.y1).flatMap fun dy =>
    (between core.x0 core.x1).map fun dx => (cellX + dx,cellY + dy)
  let redCount := pixels.countP fun p => redAt img profile p.1 p.2
  let total := pixels.length
  if total = 0 then false else decide ((redCount : ℚ) / total > profile.segmentOnRatio)

def decodeCell (img : DecodedImage) (cellX cellY : Int) (profile : CounterProfile) : Option Glyph :=
  let onKey := segmentIds.foldl (fun key segId =>
    if isSegmentOn img cellX cellY (profile.segments segId) profile then key ++ segId.name
    else key) ""
  glyphTable.lookup onKey

/-- What the cells of the counter show. -/
def cellGlyphs (img : DecodedImage) (profile : CounterProfile) : List (Option Glyph) :=
  profile.cellOrigins.map fun origin => decodeCell img origin.1 origin.2 profile

/-- The decoded counter as it is, exceptional numbers included. -/
inductive CounterReading
  | decoded (value : Number)
  | undecoded
  deriving DecidableEq

/-- `Number(g)` of a cell, which a short profile leaves undefined. -/
def numberAt (glyphs : List Glyph) (i : Nat) : Number :=
  (glyphs[i]?.map Glyph.number).getD .nan

/-- The value of the shown glyphs, with a minus in the first cell as the sign. -/
def counterValue (glyphs : List Glyph) : Number :=
  if glyphs[0]? = some .minus then
    (((10 : Number).mul (numberAt glyphs 1)).add (numberAt glyphs 2)).neg
  else
    (((100 : Number).mul (numberAt glyphs 0)).add ((10 : Number).mul (numberAt glyphs 1))).add
      (numberAt glyphs 2)

def decodeMineCounter (img : DecodedImage) (profile : CounterProfile) : CounterReading :=
  let cells := cellGlyphs img profile
  if cells.any Option.isNone then .undecoded else .decoded (counterValue (cells.filterMap id))

/-! ## The win check and the statistics -/

/-- A recognized board with its counter. -/
structure RecognizedState where
  width : Nat
  height : Nat
  grid : List (List CellStatus)
  mineCounter : Option CounterReading
  rows : grid.length = height
  columns : ∀ row ∈ grid, row.length = width

/-- A board beside what the counter of an image reads. -/
def recognized (img : DecodedImage) (profile : CounterProfile) (board : GameState) :
    RecognizedState where
  width := board.width
  height := board.height
  grid := board.grid
  mineCounter := some (decodeMineCounter img profile)
  rows := board.rows
  columns := board.columns

namespace RecognizedState

def isWin (state : RecognizedState) : Bool :=
  !(state.grid.any fun row => row.any CellStatus.nonWin) &&
    match state.mineCounter with
    | some (.decoded value) => value.strictEq 0
    | _ => false

end RecognizedState

inductive Average
  | number (value : Number)
  | notAvailable
  deriving DecidableEq

/-- The statistics of a game as they are computed. -/
structure ComputedStats where
  operationCount : Nat
  operationsByType : OperationCounts
  correctFlags : Option Number
  avgOpsPerMine : Average

def correctFlagsOf (initState : Option RecognizedState) (finalState : RecognizedState) :
    Option Number :=
  match initState.bind RecognizedState.mineCounter with
  | some (.decoded totalMines) =>
    let mineCells := finalState.grid.flatten.count .mine
    let hitMineCells := finalState.grid.flatten.count .hitMine
    some ((totalMines.sub (.finite mineCells)).sub (.finite hitMineCells))
  | _ => none

def avgOpsOf (operationCount : Nat) : Option Number → Average
  | none => .notAvailable
  | some correctFlags =>
    if Number.lt 0 correctFlags then
      .number (((((Number.finite operationCount).div correctFlags).mul 100).round).div 100)
    else .notAvailable

def RecognizedState.computeGameStats (initState : Option RecognizedState)
    (finalState : RecognizedState) (operationCount : Nat) (operationsByType : OperationCounts) :
    ComputedStats where
  operationCount := operationCount
  operationsByType := operationsByType
  correctFlags := correctFlagsOf initState finalState
  avgOpsPerMine := avgOpsOf operationCount (correctFlagsOf initState finalState)

/-! ## Exactness -/

/-- What a person reads off the cells: three digits, or a minus and two digits. -/
def reading : List (Option Glyph) → Option Int
  | [some (.digit a),some (.digit b),some (.digit c)] => some (100 * a.val + 10 * b.val + c.val)
  | [some .minus,some (.digit b),some (.digit c)] => some (-(10 * b.val + c.val))
  | _ => none

/-- The counter of an image is read as it is shown, in the win check and in the statistics too. -/
structure Exact (img : DecodedImage) (profile : CounterProfile) : Prop where
  integer : ∀ value, decodeMineCounter img profile = .decoded value →
    ∃ n : Int, reading (cellGlyphs img profile) = some n ∧ value = .finite n
  won : ∀ board, (recognized img profile board).isWin = true →
    cellGlyphs img profile = [some (.digit 0),some (.digit 0),some (.digit 0)]
  stats : ∀ board img' board' operationCount operationsByType,
    let stats := RecognizedState.computeGameStats (some (recognized img profile board))
      (recognized img' profile board') operationCount operationsByType
    (∀ flags, stats.correctFlags = some flags → flags.isInteger = true) ∧
      (∀ avg, stats.avgOpsPerMine = .number avg → avg.isFinite = true) ∧
      (stats.correctFlags = none ↔ decodeMineCounter img profile = .undecoded)

/-- A cell that shows nothing, or no minus but in front of two digits that are not both 0. -/
def Unambiguous (cells : List (Option Glyph)) : Prop :=
  none ∈ cells ∨ (some Glyph.minus ∉ cells.drop 1 ∧
    cells ≠ [some .minus,some (.digit 0),some (.digit 0)])

instance (cells : List (Option Glyph)) : Decidable (Unambiguous cells) :=
  inferInstanceAs (Decidable (_ ∨ _))

section exactness

variable {img : DecodedImage} {profile : CounterProfile}

private theorem decodeMineCounter_undecoded_iff :
    decodeMineCounter img profile = .undecoded ↔ none ∈ cellGlyphs img profile := by
  unfold decodeMineCounter
  by_cases h : none ∈ cellGlyphs img profile
  · simp [h]
  · simp [h]

private theorem decodeMineCounter_decoded (hcells : profile.cellOrigins.length = 3)
    (hnone : none ∉ cellGlyphs img profile) :
    ∃ g₀ g₁ g₂, cellGlyphs img profile = [some g₀,some g₁,some g₂] ∧
      decodeMineCounter img profile = .decoded (counterValue [g₀,g₁,g₂]) := by
  have hlength : (cellGlyphs img profile).length = 3 := by simp [cellGlyphs,hcells]
  obtain ⟨c₀,c₁,c₂,hcells⟩ := List.length_eq_three.mp hlength
  rw [hcells] at hnone
  have hsome : ∀ c ∈ [c₀,c₁,c₂], ∃ g, c = some g := by
    intro c hc
    cases c with
    | none => exact absurd hc hnone
    | some g => exact ⟨g,rfl⟩
  obtain ⟨g₀,rfl⟩ := hsome c₀ (by simp)
  obtain ⟨g₁,rfl⟩ := hsome c₁ (by simp)
  obtain ⟨g₂,rfl⟩ := hsome c₂ (by simp)
  exact ⟨g₀,g₁,g₂,hcells,by simp [decodeMineCounter,hcells]⟩

private theorem counterValue_reading {g₀ g₁ g₂ : Glyph} {n : Int}
    (h : reading [some g₀,some g₁,some g₂] = some n) :
    counterValue [g₀,g₁,g₂] = .finite n := by
  cases g₁ with
  | minus => cases g₀ <;> cases h
  | digit b =>
    cases g₂ with
    | minus => cases g₀ <;> cases h
    | digit c =>
      cases g₀ with
      | minus =>
        obtain rfl := Option.some.inj h
        simp [counterValue,numberAt,Glyph.number]
      | digit a =>
        obtain rfl := Option.some.inj h
        simp [counterValue,numberAt,Glyph.number]

private theorem isWin_recognized (board : GameState) : (recognized img profile board).isWin = true ↔
    (∀ row ∈ board.grid, ∀ c ∈ row, c.nonWin = false) ∧
      ∃ value, decodeMineCounter img profile = .decoded value ∧ value.strictEq 0 = true := by
  cases h : decodeMineCounter img profile with
  | undecoded => simp [RecognizedState.isWin,recognized,h]
  | decoded value => simp [RecognizedState.isWin,recognized,h]

private theorem stats_of_integer {board board' : GameState} {img' : DecodedImage} {n : Int}
    (h : decodeMineCounter img profile = .decoded (.finite n)) :
    correctFlagsOf (some (recognized img profile board)) (recognized img' profile board') =
      some (.finite ((n - board'.grid.flatten.count .mine - board'.grid.flatten.count .hitMine :
        Int) : ℚ)) := by
  simp [correctFlagsOf,recognized,h]

private theorem avgOpsOf_finite (operationCount : Nat) (flags : ℚ) {avg : Number}
    (h : avgOpsOf operationCount (some (.finite flags)) = .number avg) : avg.isFinite = true := by
  have hzero : (0 : Number) = .finite 0 := by simp
  rw [avgOpsOf,hzero,Number.lt_finite] at h
  by_cases hpos : 0 < flags
  · rw [if_pos (decide_eq_true hpos),Number.div_finite hpos.ne'] at h
    have hhundred : ((100 : Nat) : ℚ) ≠ 0 := by norm_num
    rw [Number.ofNat_eq,Number.mul_finite,Number.round_finite,Number.div_finite hhundred] at h
    cases h
    rfl
  · rw [if_neg (by simpa using hpos)] at h
    cases h

private theorem exact_of_undecoded (h : decodeMineCounter img profile = .undecoded) :
    Exact img profile := by
  constructor
  · intro value hvalue
    rw [h] at hvalue
    cases hvalue
  · intro board hwin
    obtain ⟨-,value,hvalue,-⟩ := (isWin_recognized board).mp hwin
    rw [h] at hvalue
    cases hvalue
  · intro board img' board' operationCount operationsByType
    have hflags : correctFlagsOf (some (recognized img profile board))
        (recognized img' profile board') = none := by simp [correctFlagsOf,recognized,h]
    simp [RecognizedState.computeGameStats,hflags,avgOpsOf,h]

private theorem exact_of_integer {n : Int}
    (h : decodeMineCounter img profile = .decoded (.finite n))
    (hreading : reading (cellGlyphs img profile) = some n)
    (hwon : n = 0 → cellGlyphs img profile = [some (.digit 0),some (.digit 0),some (.digit 0)]) :
    Exact img profile := by
  constructor
  · intro value hvalue
    rw [h] at hvalue
    cases hvalue
    exact ⟨n,hreading,rfl⟩
  · intro board hwin
    obtain ⟨-,value,hvalue,hzero⟩ := (isWin_recognized board).mp hwin
    rw [h] at hvalue
    cases hvalue
    apply hwon
    simpa using hzero
  · intro board img' board' operationCount operationsByType
    have hflags := @stats_of_integer img profile board board' img' n h
    refine ⟨?_,?_,?_⟩
    · intro flags hsome
      rw [RecognizedState.computeGameStats,hflags] at hsome
      obtain rfl := Option.some.inj hsome
      exact Number.isInteger_iff.mpr ⟨_,rfl⟩
    · intro avg havg
      rw [RecognizedState.computeGameStats,hflags] at havg
      exact avgOpsOf_finite _ _ havg
    · simp [RecognizedState.computeGameStats,hflags,h]

/-- Exactly the images whose minus stands in front of two digits, not both 0, are read exactly. -/
theorem exact_iff_unambiguous (profile : CounterProfile) (hcells : profile.cellOrigins.length = 3)
    (img : DecodedImage) : Exact img profile ↔ Unambiguous (cellGlyphs img profile) := by
  by_cases hnone : none ∈ cellGlyphs img profile
  · have hundecoded := decodeMineCounter_undecoded_iff.mpr hnone
    exact ⟨fun _ => Or.inl hnone,fun _ => exact_of_undecoded hundecoded⟩
  · obtain ⟨g₀,g₁,g₂,hshown,hdecoded⟩ := decodeMineCounter_decoded hcells hnone
    cases hreading : reading [some g₀,some g₁,some g₂] with
    | none =>
      -- a minus behind the first cell makes the value no number
      have hminus : g₁ = .minus ∨ g₂ = .minus := by
        cases g₁ with
        | minus => exact Or.inl rfl
        | digit b =>
          cases g₂ with
          | minus => exact Or.inr rfl
          | digit c => cases g₀ <;> cases hreading
      constructor
      · intro h
        obtain ⟨n,hn,-⟩ := h.integer _ hdecoded
        rw [hshown,hreading] at hn
        cases hn
      · intro h
        rw [hshown] at h
        rcases hminus with rfl | rfl <;> simp [Unambiguous] at h
    | some n =>
      have hvalue := counterValue_reading hreading
      rw [hvalue] at hdecoded
      have hdigits : some Glyph.minus ∉ (cellGlyphs img profile).drop 1 := by
        rw [hshown]
        cases g₁ <;> cases g₂ <;> cases g₀ <;> simp_all [reading]
      constructor
      · intro h
        refine Or.inr ⟨hdigits,fun hzero => ?_⟩
        -- a board that is all flags is won on -00
        have hn : n = 0 := by
          rw [← hshown,hzero] at hreading
          exact (Option.some.inj hreading).symm
        have hwin : (recognized img profile ⟨0,0,[],none,rfl,by simp⟩).isWin = true := by
          apply (isWin_recognized _).mpr
          exact ⟨by simp,_,hdecoded,by simp [hn]⟩
        have hread := h.won _ hwin
        rw [hzero] at hread
        simp at hread
      · intro h
        apply exact_of_integer hdecoded (hshown.symm ▸ hreading)
        intro hn
        have hplain := (h.resolve_left hnone).2
        rw [hshown] at hplain ⊢
        subst hn
        cases g₁ with
        | minus => cases g₀ <;> cases hreading
        | digit b =>
          cases g₂ with
          | minus => cases g₀ <;> cases hreading
          | digit c =>
            cases g₀ with
            | minus =>
              have hsum := Option.some.inj hreading
              have hb : b = 0 := Fin.ext (by simp; omega)
              have hc : c = 0 := Fin.ext (by simp; omega)
              subst hb hc
              exact absurd rfl hplain
            | digit a =>
              have hsum := Option.some.inj hreading
              have ha : a = 0 := Fin.ext (by simp; omega)
              have hb : b = 0 := Fin.ext (by simp; omega)
              have hc : c = 0 := Fin.ext (by simp; omega)
              subst ha hb hc
              rfl

/-- Where the reading is exact, the win check and the flags are those of the plain board. -/
theorem Exact.refines (h : Exact img profile) (board : GameState) :
    ∃ counter : MineCounter,
      (recognized img profile board).isWin = { board with mineCounter := some counter }.isWin ∧
      ∀ img' board' operationCount operationsByType,
        (RecognizedState.computeGameStats (some (recognized img profile board))
          (recognized img' profile board') operationCount operationsByType).correctFlags =
        (Game.computeGameStats (some { board with mineCounter := some counter }) board'
          operationCount operationsByType).correctFlags.map fun flags => .finite flags := by
  cases hdecoded : decodeMineCounter img profile with
  | undecoded =>
    refine ⟨.undecoded,?_,?_⟩
    · simp [RecognizedState.isWin,recognized,hdecoded,GameState.isWin]
    · intro img' board' operationCount operationsByType
      simp [RecognizedState.computeGameStats,correctFlagsOf,recognized,hdecoded,
        Game.computeGameStats]
  | decoded value =>
    obtain ⟨n,-,rfl⟩ := h.integer _ hdecoded
    refine ⟨.decoded n,?_,?_⟩
    · simp [RecognizedState.isWin,recognized,hdecoded,GameState.isWin]
    · intro img' board' operationCount operationsByType
      rw [RecognizedState.computeGameStats,stats_of_integer hdecoded]
      simp [Game.computeGameStats]

end exactness

/-- An image as large as the display needs whose lit pixels are red on black. -/
def display (lit : Nat → Nat → Bool) : DecodedImage where
  width := 112
  height := 168
  data i := if i.val % 4 = 0 && lit (i.val / 4 % 112) (i.val / 4 / 112) then 255 else 0

/-- A profile whose cores are single pixels of one row. -/
def rowProfile : CounterProfile :=
  let pixel (x : Int) : Core := ⟨x,x,0,0⟩
  { defaultCounterProfile with
    cellOrigins := [(0,0),(7,0),(14,0)]
    segments
      | .a => pixel 0
      | .b => pixel 1
      | .c => pixel 2
      | .d => pixel 3
      | .e => pixel 4
      | .f => pixel 5
      | .g => pixel 6 }

theorem exact_iff_unambiguous_demo :
    let img := display fun x _ => decide (x ∈ [6,8,9,15,16])
    reading (cellGlyphs img rowProfile) = some (-11) ∧ Exact img rowProfile := by
  constructor
  · decide +kernel
  · apply (exact_iff_unambiguous rowProfile rfl _).mpr
    decide +kernel

/-- A display of 0-0: the middle bar is lit in the second cell, all else in the other two. -/
def zeroMinusZero : DecodedImage :=
  display fun x y => (Nat.ble 64 x && Nat.ble x 85) == (Nat.ble 146 y && Nat.ble y 147)

/-- It is decoded, and the statistics of its game have no number of flags. -/
theorem middle_minus_is_nan :
    cellGlyphs zeroMinusZero defaultCounterProfile =
      [some (.digit 0),some .minus,some (.digit 0)] ∧
    decodeMineCounter zeroMinusZero defaultCounterProfile = .decoded .nan ∧
      ∀ board board', correctFlagsOf (some (recognized zeroMinusZero defaultCounterProfile board))
        (recognized zeroMinusZero defaultCounterProfile board') = some .nan := by
  have hcells : cellGlyphs zeroMinusZero defaultCounterProfile =
      [some (.digit 0),some .minus,some (.digit 0)] := by
    decide +kernel
  have hdecoded : decodeMineCounter zeroMinusZero defaultCounterProfile = .decoded .nan := by
    rw [decodeMineCounter,hcells]
    decide
  refine ⟨hcells,hdecoded,fun board board' => ?_⟩
  simp [correctFlagsOf,recognized,hdecoded]

end Dominion.Game
