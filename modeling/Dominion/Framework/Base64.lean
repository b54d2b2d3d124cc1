import Mathlib.Data.List.Basic

/-! # Base64

The standard encoding of bytes, with padding.  Decoding passes over line breaks and takes padding
at the end only. -/
namespace Dominion.Framework.Base64

/-- The digits, in the order of their values. -/
def alphabet : List Char :=
  "ABCDEFGHIJKLMNOPQRSTUVWXYZabcdefghijklmnopqrstuvwxyz0123456789+/".toList

def digit (n : Nat) : Char :=
  alphabet.getD n '='

def value (c : Char) : Option Nat :=
  alphabet.idxOf? c

def isBreak (c : Char) : Bool :=
  c == '\n' || c == '\r'

private theorem digit_spec {n : Nat} (hn : n < 64) :
    value (digit n) = some n ∧ digit n ≠ '=' ∧ isBreak (digit n) = false := by
  revert n
  decide

private theorem value_digit {n : Nat} (hn : n < 64) : value (digit n) = some n :=
  (digit_spec hn).1

private theorem digit_ne_padding {n : Nat} (hn : n < 64) : digit n ≠ '=' :=
  (digit_spec hn).2.1

private theorem isBreak_digit {n : Nat} (hn : n < 64) : isBreak (digit n) = false :=
  (digit_spec hn).2.2

/-! ## Groups of three bytes -/

def sextet₁ (a : UInt8) : Nat := a.toNat / 4
def sextet₂ (a b : UInt8) : Nat := a.toNat % 4 * 16 + b.toNat / 16
def sextet₃ (b c : UInt8) : Nat := b.toNat % 16 * 4 + c.toNat / 64
def sextet₄ (c : UInt8) : Nat := c.toNat % 64

def byte₁ (x y : Nat) : UInt8 := .ofNat (x * 4 + y / 16)
def byte₂ (y z : Nat) : UInt8 := .ofNat (y % 16 * 16 + z / 4)
def byte₃ (z w : Nat) : UInt8 := .ofNat (z % 4 * 64 + w)

section

variable (a b c : UInt8)

private theorem sextet₁_lt : sextet₁ a < 64 := by
  have ha : a.toNat < 256 := a.toNat_lt
  unfold sextet₁
  omega

private theorem sextet₂_lt : sextet₂ a b < 64 := by
  have hb : b.toNat < 256 := b.toNat_lt
  unfold sextet₂
  omega

private theorem sextet₃_lt : sextet₃ b c < 64 := by
  have hc : c.toNat < 256 := c.toNat_lt
  unfold sextet₃
  omega

private theorem sextet₄_lt : sextet₄ c < 64 := by
  unfold sextet₄
  omega

private theorem byte₁_sextets : byte₁ (sextet₁ a) (sextet₂ a b) = a := by
  have hb : b.toNat < 256 := b.toNat_lt
  have h : sextet₁ a * 4 + sextet₂ a b / 16 = a.toNat := by
    unfold sextet₁ sextet₂
    omega
  rw [byte₁,h,UInt8.ofNat_toNat]

private theorem byte₂_sextets : byte₂ (sextet₂ a b) (sextet₃ b c) = b := by
  have hb : b.toNat < 256 := b.toNat_lt
  have hc : c.toNat < 256 := c.toNat_lt
  have h : sextet₂ a b % 16 * 16 + sextet₃ b c / 4 = b.toNat := by
    unfold sextet₂ sextet₃
    omega
  rw [byte₂,h,UInt8.ofNat_toNat]

private theorem byte₃_sextets : byte₃ (sextet₃ b c) (sextet₄ c) = c := by
  have hc : c.toNat < 256 := c.toNat_lt
  have h : sextet₃ b c % 4 * 64 + sextet₄ c = c.toNat := by
    unfold sextet₃ sextet₄
    omega
  rw [byte₃,h,UInt8.ofNat_toNat]

end

/-! ## Texts -/

def encode : List UInt8 → List Char
  | [] => []
  | [a] => [digit (sextet₁ a),digit (sextet₂ a 0),'=','=']
  | [a,b] => [digit (sextet₁ a),digit (sextet₂ a b),digit (sextet₃ b 0),'=']
  | a :: b :: c :: rest =>
    digit (sextet₁ a) :: digit (sextet₂ a b) :: digit (sextet₃ b c) :: digit (sextet₄ c) ::
      encode rest

def decodeQuanta : List Char → Option (List UInt8)
  | [] => some []
  | p :: q :: r :: t :: rest => do
    let x ← value p
    let y ← value q
    if r = '=' ∧ t = '=' ∧ rest = [] then return [byte₁ x y]
    let z ← value r
    if t = '=' ∧ rest = [] then return [byte₁ x y,byte₂ y z]
    let w ← value t
    let bytes ← decodeQuanta rest
    return byte₁ x y :: byte₂ y z :: byte₃ z w :: bytes
  | _ => none

/-- `DecodeString`; `none` is an error. -/
def decode (cs : List Char) : Option (List UInt8) :=
  decodeQuanta (cs.filter fun c => !isBreak c)

private theorem decodeQuanta_encode (bytes : List UInt8) :
    decodeQuanta (encode bytes) = some bytes := by
  induction bytes using encode.induct with
  | case1 => rfl
  | case2 a =>
    simp [encode,decodeQuanta,value_digit,sextet₁_lt,sextet₂_lt,byte₁_sextets]
  | case3 a b =>
    simp [encode,decodeQuanta,value_digit,sextet₁_lt,sextet₂_lt,sextet₃_lt,digit_ne_padding,
      byte₁_sextets,byte₂_sextets]
  | case4 a b c rest ih =>
    simp [encode,decodeQuanta,value_digit,sextet₁_lt,sextet₂_lt,sextet₃_lt,sextet₄_lt,
      digit_ne_padding,byte₁_sextets,byte₂_sextets,byte₃_sextets,ih]

private theorem isBreak_of_mem_encode {bytes : List UInt8} {c : Char} (hc : c ∈ encode bytes) :
    isBreak c = false := by
  induction bytes using encode.induct with
  | case1 => cases hc
  | case2 a =>
    simp only [encode,List.mem_cons,List.not_mem_nil,or_false] at hc
    rcases hc with rfl | rfl | rfl | rfl
    · exact isBreak_digit (sextet₁_lt a)
    · exact isBreak_digit (sextet₂_lt a 0)
    · rfl
    · rfl
  | case3 a b =>
    simp only [encode,List.mem_cons,List.not_mem_nil,or_false] at hc
    rcases hc with rfl | rfl | rfl | rfl
    · exact isBreak_digit (sextet₁_lt a)
    · exact isBreak_digit (sextet₂_lt a b)
    · exact isBreak_digit (sextet₃_lt b 0)
    · rfl
  | case4 a b c rest ih =>
    simp only [encode,List.mem_cons] at hc
    rcases hc with rfl | rfl | rfl | rfl | hc
    · exact isBreak_digit (sextet₁_lt a)
    · exact isBreak_digit (sextet₂_lt a b)
    · exact isBreak_digit (sextet₃_lt b c)
    · exact isBreak_digit (sextet₄_lt c)
    · exact ih hc

/-- What was encoded is decoded. -/
theorem decode_encode (bytes : List UInt8) : decode (encode bytes) = some bytes := by
  have hfilter : (encode bytes).filter (fun c => !isBreak c) = encode bytes := by
    rw [List.filter_eq_self]
    intro c hc
    rw [isBreak_of_mem_encode hc]
    rfl
  rw [decode,hfilter,decodeQuanta_encode]

theorem encode_eq_nil {bytes : List UInt8} (h : encode bytes = []) : bytes = [] := by
  have hdecode := decodeQuanta_encode bytes
  rw [h] at hdecode
  exact (Option.some.inj hdecode).symm

end Dominion.Framework.Base64
