import Dominion.Framework.Utf8
import Mathlib.Data.List.TakeWhile

/-! # Lines of a byte stream

The frames of a team stream arrive as JSON values on a line each, in chunks of bytes.  The reader
gives the frames whose lines have arrived in full, wherever the chunks begin and wherever the
stream is cut. -/
namespace Dominion.Web

open Dominion.Framework.Utf8

/-! ## The reader -/

/-- The lines that are complete in the buffer, and what is left of it. -/
def takeLines (buf : List Char) : List (List Char) × List Char :=
  let nl := buf.idxOf '\n'
  if nl < buf.length then
    let r := takeLines (buf.drop (nl + 1))
    (buf.take nl :: r.1,r.2)
  else ([],buf)
termination_by buf.length

structure LineReader where
  decoder : TextDecoder := {}
  buf : List Char := []

/-- The lines yielded after one chunk was read. -/
def LineReader.read (r : LineReader) (value : List UInt8) : LineReader × List (List Char) :=
  let d := r.decoder.decode value
  let t := takeLines (r.buf ++ d.2)
  ({ decoder := d.1,buf := t.2 },t.1)

section sendStream

variable {ε : Type} (parse : List Char → Except String ε)

end sendStream

/-! ## Buffers -/

namespace LineReader

variable {r : LineReader}

end LineReader

section frames

variable {ε : Type} (render : ε → List Char)

/-- The text of some frames, a line each. -/
def framesText (frames : List ε) : List Char :=
  frames.flatMap fun frame => render frame ++ ['\n']

/-- The bytes of some frames. -/
def wire (frames : List ε) : List UInt8 :=
  encode (framesText render frames)

variable {render} {frames : List ε}

end frames

end Dominion.Web
