import Mathlib.Data.List.TakeDrop

/-! # SHA-256 and HMAC

The digest over lists of bytes, in the order of its specification: padding, message schedule,
compression. -/
namespace Dominion.Framework.Sha256

/-- The fractional parts of the cube roots of the first 64 primes. -/
def roundConstants : List UInt32 :=
  [0x428a2f98,0x71374491,0xb5c0fbcf,0xe9b5dba5,0x3956c25b,0x59f111f1,0x923f82a4,0xab1c5ed5,
   0xd807aa98,0x12835b01,0x243185be,0x550c7dc3,0x72be5d74,0x80deb1fe,0x9bdc06a7,0xc19bf174,
   0xe49b69c1,0xefbe4786,0x0fc19dc6,0x240ca1cc,0x2de92c6f,0x4a7484aa,0x5cb0a9dc,0x76f988da,
   0x983e5152,0xa831c66d,0xb00327c8,0xbf597fc7,0xc6e00bf3,0xd5a79147,0x06ca6351,0x14292967,
   0x27b70a85,0x2e1b2138,0x4d2c6dfc,0x53380d13,0x650a7354,0x766a0abb,0x81c2c92e,0x92722c85,
   0xa2bfe8a1,0xa81a664b,0xc24b8b70,0xc76c51a3,0xd192e819,0xd6990624,0xf40e3585,0x106aa070,
   0x19a4c116,0x1e376c08,0x2748774c,0x34b0bcb5,0x391c0cb3,0x4ed8aa4a,0x5b9cca4f,0x682e6ff3,
   0x748f82ee,0x78a5636f,0x84c87814,0x8cc70208,0x90befffa,0xa4506ceb,0xbef9a3f7,0xc67178f2]

/-- The eight working variables. -/
structure Words where
  a : UInt32
  b : UInt32
  c : UInt32
  d : UInt32
  e : UInt32
  f : UInt32
  g : UInt32
  h : UInt32

/-- The fractional parts of the square roots of the first 8 primes. -/
def initial : Words :=
  ⟨0x6a09e667,0xbb67ae85,0x3c6ef372,0xa54ff53a,
    0x510e527f,0x9b05688c,0x1f83d9ab,0x5be0cd19⟩

def rotr (x n : UInt32) : UInt32 :=
  (x >>> n) ||| (x <<< (32 - n))

/-- `n` as `k` bytes, most significant first. -/
def bigEndian (k n : Nat) : List UInt8 :=
  (List.range k).map fun i => UInt8.ofNat (n >>> (8 * (k - 1 - i)))

def pad (msg : List UInt8) : List UInt8 :=
  msg ++ 0x80 :: List.replicate ((119 - msg.length % 64) % 64) 0 ++ bigEndian 8 (8 * msg.length)

def word (bytes : List UInt8) : UInt32 :=
  bytes.foldl (fun w byte => w <<< 8 ||| byte.toUInt32) 0

def smallSigma0 (x : UInt32) : UInt32 :=
  rotr x 7 ^^^ rotr x 18 ^^^ (x >>> 3)

def smallSigma1 (x : UInt32) : UInt32 :=
  rotr x 17 ^^^ rotr x 19 ^^^ (x >>> 10)

/-- The message schedule, latest word first, after `n` extensions. -/
def schedule (block : List UInt8) : Nat → List UInt32
  | 0 => ((List.range 16).map fun i => word ((block.drop (4 * i)).take 4)).reverse
  | n + 1 =>
    let ws := schedule block n
    (smallSigma1 (ws.getD 1 0) + ws.getD 6 0 + smallSigma0 (ws.getD 14 0) + ws.getD 15 0) :: ws

def round (v : Words) (k w : UInt32) : Words :=
  let t₁ := v.h + (rotr v.e 6 ^^^ rotr v.e 11 ^^^ rotr v.e 25) +
    ((v.e &&& v.f) ^^^ (~~~v.e &&& v.g)) + k + w
  let t₂ := (rotr v.a 2 ^^^ rotr v.a 13 ^^^ rotr v.a 22) +
    ((v.a &&& v.b) ^^^ (v.a &&& v.c) ^^^ (v.b &&& v.c))
  ⟨t₁ + t₂,v.a,v.b,v.c,v.d + t₁,v.e,v.f,v.g⟩

def compress (v : Words) (block : List UInt8) : Words :=
  let r := (roundConstants.zip (schedule block 48).reverse).foldl (fun r kw => round r kw.1 kw.2) v
  ⟨v.a + r.a,v.b + r.b,v.c + r.c,v.d + r.d,v.e + r.e,v.f + r.f,v.g + r.g,v.h + r.h⟩

def sha256 (msg : List UInt8) : List UInt8 :=
  let padded := pad msg
  let v := (List.range (padded.length / 64)).foldl
    (fun v i => compress v ((padded.drop (64 * i)).take 64)) initial
  [v.a,v.b,v.c,v.d,v.e,v.f,v.g,v.h].flatMap fun w => bigEndian 4 w.toNat

theorem sha256_length (msg : List UInt8) : (sha256 msg).length = 32 := by
  simp [sha256,bigEndian]

/-- The digest of a text, in hexadecimal digits. -/
def hexDigest (s : String) : List Char :=
  (sha256 (s.toList.flatMap String.utf8EncodeChar)).flatMap fun b =>
    [Nat.digitChar (b.toNat / 16),Nat.digitChar (b.toNat % 16)]

theorem hexDigest_length (s : String) : (hexDigest s).length = 64 := by
  simp [hexDigest,List.map_const',sha256_length]

theorem isHex_digitChar {n : Nat} (hn : n < 16) :
    ('a' ≤ n.digitChar ∧ n.digitChar ≤ 'f') ∨ ('0' ≤ n.digitChar ∧ n.digitChar ≤ '9') := by
  revert n
  decide

theorem isHex_of_mem_hexDigest {s : String} {c : Char} (hc : c ∈ hexDigest s) :
    ('a' ≤ c ∧ c ≤ 'f') ∨ ('0' ≤ c ∧ c ≤ '9') := by
  obtain ⟨b,-,hb⟩ := List.mem_flatMap.mp hc
  have hlt : b.toNat < 256 := b.toNat_lt
  rcases List.mem_cons.mp hb with rfl | hb
  · exact isHex_digitChar (by omega)
  · obtain rfl := List.mem_singleton.mp hb
    exact isHex_digitChar (by omega)

/-- HMAC with SHA-256, whose blocks are 64 bytes long. -/
def hmac (key msg : List UInt8) : List UInt8 :=
  let key := if 64 < key.length then sha256 key else key
  let key := key ++ List.replicate (64 - key.length) 0
  sha256 (key.map (· ^^^ 0x5c) ++ sha256 (key.map (· ^^^ 0x36) ++ msg))

example : (sha256 [0x61,0x62,0x63]).take 8 = [0xba,0x78,0x16,0xbf,0x8f,0x01,0xcf,0xea] := by
  decide +kernel

end Dominion.Framework.Sha256
