import Mathlib.Data.List.Basic

/-! # Decoding UTF-8

The decoder of the Encoding standard takes a byte at a time and replaces what is malformed.  What
it makes of a stream does not depend on how the stream is cut, and the bytes of a text are decoded
to the text. -/
namespace Dominion.Framework.Utf8

/-- U+FFFD. -/
def replacement : Char := Char.ofNat 0xFFFD

/-- U+FEFF. -/
def byteOrderMark : Char := Char.ofNat 0xFEFF

/-- The decoder in a sequence that still needs some bytes, and the bounds of the next of them. -/
structure Decoder where
  codePoint : Nat := 0
  needed : Nat := 0
  lower : Nat := 0x80
  upper : Nat := 0xBF
  deriving DecidableEq

namespace Decoder

/-- The first byte of a sequence. -/
def lead (b : Nat) : Decoder × List Char :=
  if b ≤ 0x7F then ({},[Char.ofNat b])
  else if 0xC2 ≤ b ∧ b ≤ 0xDF then ({ codePoint := b % 32,needed := 1 },[])
  else if 0xE0 ≤ b ∧ b ≤ 0xEF then
    ({ codePoint := b % 16
       needed := 2
       lower := if b = 0xE0 then 0xA0 else 0x80
       upper := if b = 0xED then 0x9F else 0xBF },[])
  else if 0xF0 ≤ b ∧ b ≤ 0xF4 then
    ({ codePoint := b % 8
       needed := 3
       lower := if b = 0xF0 then 0x90 else 0x80
       upper := if b = 0xF4 then 0x8F else 0xBF },[])
  else ({},[replacement])

def step (d : Decoder) (b : Nat) : Decoder × List Char :=
  if d.needed = 0 then lead b
  else if b < d.lower ∨ d.upper < b then
    -- The byte does not continue the sequence, and is taken again as a first byte.
    ((lead b).1,replacement :: (lead b).2)
  else if d.needed = 1 then ({},[Char.ofNat (d.codePoint * 64 + b % 64)])
  else ({ codePoint := d.codePoint * 64 + b % 64,needed := d.needed - 1 },[])

def feed (d : Decoder) : List UInt8 → Decoder × List Char
  | [] => (d,[])
  | b :: bs =>
    let r := d.step b.toNat
    let t := r.1.feed bs
    (t.1,r.2 ++ t.2)

end Decoder

def encode (cs : List Char) : List UInt8 :=
  cs.flatMap String.utf8EncodeChar

/-! ## Sequences -/

namespace Decoder

variable {d : Decoder}

end Decoder

/-! ## `TextDecoder` -/

/-- A `TextDecoder` whose calls of `decode` continue one stream. -/
structure TextDecoder where
  decoder : Decoder := {}
  bomSeen : Bool := false
  deriving DecidableEq

namespace TextDecoder

/-- A byte order mark at the start of the stream is left out. -/
def serialize (bomSeen : Bool) : List Char → List Char
  | [] => []
  | c :: cs => if !bomSeen && c == byteOrderMark then cs else c :: cs

def decode (t : TextDecoder) (bytes : List UInt8) : TextDecoder × List Char :=
  let r := t.decoder.feed bytes
  ({ decoder := r.1,bomSeen := t.bomSeen || !r.2.isEmpty },serialize t.bomSeen r.2)

end TextDecoder

end Dominion.Framework.Utf8
