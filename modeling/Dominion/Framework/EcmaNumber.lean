import Mathlib.Data.Rat.Floor

/-! # ECMAScript numbers

Numbers with their exceptional values.  Finite results are exact: they are not rounded to doubles,
and the two zeros are one. -/
namespace Dominion.Framework.Ecma

inductive Number
  | nan
  | infinite (negative : Bool)
  | finite (value : ℚ)
  deriving DecidableEq

namespace Number

def neg : Number → Number
  | nan => nan
  | infinite negative => infinite !negative
  | finite a => finite (-a)

def add : Number → Number → Number
  | finite a,finite b => finite (a + b)
  | finite _,infinite negative => infinite negative
  | infinite negative,finite _ => infinite negative
  | infinite a,infinite b => if a = b then infinite a else nan
  | _,_ => nan

def sub (a b : Number) : Number :=
  a.add b.neg

def mul : Number → Number → Number
  | finite a,finite b => finite (a * b)
  | finite a,infinite negative => if a = 0 then nan else infinite (negative ^^ decide (a < 0))
  | infinite negative,finite b => if b = 0 then nan else infinite (negative ^^ decide (b < 0))
  | infinite a,infinite b => infinite (a ^^ b)
  | _,_ => nan

def div : Number → Number → Number
  | finite a,finite b =>
    if b = 0 then if a = 0 then nan else infinite (decide (a < 0)) else finite (a / b)
  | finite _,infinite _ => finite 0
  | infinite negative,finite b => infinite (negative ^^ decide (b < 0))
  | _,_ => nan

/-- `a < b`. -/
def lt : Number → Number → Bool
  | finite a,finite b => decide (a < b)
  | finite _,infinite negative => !negative
  | infinite negative,finite _ => negative
  | infinite a,infinite b => a && !b
  | _,_ => false

/-- `Math.round`. -/
def round : Number → Number
  | finite a => finite ⌊a + 1 / 2⌋
  | a => a

/-- `a === b`. -/
def strictEq : Number → Number → Bool
  | nan,_ => false
  | a,b => decide (a = b)

instance : OfNat Number n := ⟨finite n⟩

/-- `Number.isInteger`. -/
def isInteger : Number → Bool
  | finite a => decide (a.isInt)
  | _ => false

def isFinite : Number → Bool
  | finite _ => true
  | _ => false

variable {a b : ℚ} {n : Nat}

@[simp] theorem ofNat_eq : (OfNat.ofNat n : Number) = finite (n : ℚ) := rfl
@[simp] theorem neg_finite : (finite a).neg = finite (-a) := rfl
@[simp] theorem add_finite : (finite a).add (finite b) = finite (a + b) := rfl
@[simp] theorem sub_finite : (finite a).sub (finite b) = finite (a - b) :=
  congrArg finite (sub_eq_add_neg a b).symm
@[simp] theorem mul_finite : (finite a).mul (finite b) = finite (a * b) := rfl
@[simp] theorem lt_finite : (finite a).lt (finite b) = decide (a < b) := rfl
@[simp] theorem round_finite : (finite a).round = finite ⌊a + 1 / 2⌋ := rfl
@[simp] theorem strictEq_finite : (finite a).strictEq (finite b) = decide (a = b) := by
  simp [strictEq]

theorem div_finite (hb : b ≠ 0) : (finite a).div (finite b) = finite (a / b) :=
  if_neg hb

@[simp] theorem nan_add (x : Number) : nan.add x = nan := rfl
@[simp] theorem add_nan (x : Number) : x.add nan = nan := by
  cases x <;> rfl
@[simp] theorem neg_nan : nan.neg = nan := rfl
@[simp] theorem mul_nan (x : Number) : x.mul nan = nan := by
  cases x <;> rfl
@[simp] theorem nan_sub (x : Number) : nan.sub x = nan := rfl
@[simp] theorem lt_nan (x : Number) : x.lt nan = false := by
  cases x <;> rfl
@[simp] theorem nan_strictEq (x : Number) : nan.strictEq x = false := rfl

theorem isInteger_iff {x : Number} : x.isInteger = true ↔ ∃ n : Int, x = finite n := by
  cases x with
  | nan => simp [isInteger]
  | infinite negative => simp [isInteger]
  | finite a =>
    simp only [isInteger,Rat.isInt,finite.injEq]
    constructor
    · intro h
      exact ⟨a.num,(Rat.coe_int_num_of_den_eq_one (by simpa using h)).symm⟩
    · rintro ⟨n,rfl⟩
      simp

end Number
end Dominion.Framework.Ecma
