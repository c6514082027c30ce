import AdmissionControl.Bytes.Utf8
import AdmissionControl.Numeral.Binary64

/-!
# Reading a text in portions

A reader hands out a text in portions of `portionSize` code points.  It fetches UTF-8 in blocks and
fetches no block before a portion needs it, so what stands far enough in front of a fault can be had
all the same.  Every line end, a carriage return with or without a line feed after it, is read as
U+000A; a carriage return at the end of a block waits for the block after it.

* `Reader.fetch` decodes one more block; the position of a fault counts from the start of the block,
  with the bytes carried over to it.
* `portions` reads to the end or to the first fault.
-/

namespace AdmissionControl.Utf8

/-- Turns every line end into U+000A. -/
def unifyLines : Text → Text
  | [] => []
  | c :: rest =>
    if c = '\r' then
      match rest with
      | [] => ['\n']
      | d :: more => if d = '\n' then '\n' :: unifyLines more else '\n' :: unifyLines (d :: more)
    else c :: unifyLines rest

example : unifyLines ("a\r\nb\rc\n" : Text) = Text.ofString "a\nb\nc\n" := by decide +kernel

/-- Least number of bytes in a block. -/
def blockSize : Nat := 8192

/-- Code points in a portion. -/
def portionSize : Nat := 4096

structure Reader where
  /-- What was not fetched yet. -/
  bytes : List UInt8
  /-- The bytes of a form that is not complete. -/
  pending : List UInt8
  /-- Whether a carriage return waits for what follows it. -/
  heldReturn : Bool
  /-- Bytes per code point in the block before. -/
  density : Binary64
  /-- What was decoded and not handed out. -/
  ready : Text

namespace Reader

/-- The density before the first block, and after a block without code points. -/
def noDensity : Binary64 := .finite false 0 Binary64.minExponent

def start (bytes : List UInt8) : Reader := ⟨bytes, [], false, noDensity, []⟩

/-- The number of bytes that should hold the wanted code points, or that of a whole block. -/
def sizeFor (density : Binary64) (wanted : Nat) : Nat :=
  max blockSize (((density.mul (.ofInt wanted)).truncate?).getD 0)

/-- A decoded block with a carriage return that waited, and the one that waits now. -/
def holdReturn (held last : Bool) (text : Text) : Text × Bool :=
  if text.isEmpty && !last then ([], held)
  else
    let text := if held then ('\r' : CodePoint) :: text else text
    if text.getLast? = some ('\r' : CodePoint) && !last then (text.dropLast, true)
    else (text, false)

/-- Decodes the next block; the flag says whether that was the end. -/
def fetch (r : Reader) (wanted : Nat) : Except DecodeError (Reader × Bool) := do
  let size := sizeFor r.density wanted
  let block := r.bytes.take size
  let (done, pending) ← decodeFrom 0 0 [] (r.pending ++ block)
  if block.isEmpty && !pending.isEmpty then throw (unexpectedEnd 0 pending)
  let (text, held) := holdReturn r.heldReturn block.isEmpty done.reverse
  let text := unifyLines text
  let density := if text.isEmpty then noDensity else .ofRatio false block.length text.length
  return (⟨r.bytes.drop size, pending, held, density, r.ready ++ text⟩,
    block.isEmpty && text.isEmpty)

/-- Fetches blocks until a portion is ready or the bytes end. -/
def fill (fuel : Nat) (r : Reader) : Except DecodeError Reader :=
  match fuel with
  | 0 => .ok r
  | fuel + 1 =>
    if portionSize ≤ r.ready.length then .ok r
    else
      match r.fetch (portionSize - r.ready.length) with
      | .error e => .error e
      | .ok (r, ended) => if ended then .ok r else fill fuel r

/-- The portions that are left, and the fault that ends them. -/
def portionsFrom (fuel : Nat) (r : Reader) : List Text × Option DecodeError :=
  match fuel with
  | 0 => ([], none)
  | fuel + 1 =>
    match r.fill (r.bytes.length + 3) with
    | .error e => ([], some e)
    | .ok r =>
      if r.ready.isEmpty then ([], none)
      else
        let (rest, e) := portionsFrom fuel { r with ready := r.ready.drop portionSize }
        (r.ready.take portionSize :: rest, e)

end Reader

/-- The portions of some bytes up to the first fault, and that fault. -/
def portions (bytes : List UInt8) : List Text × Option DecodeError :=
  (Reader.start bytes).portionsFrom (bytes.length + 1)

example : portions [0x61, 0x0D] = ([Text.ofString "a\n"], none) := by decide +kernel

example : portions [0x61, 0xC3] = ([], some ⟨0, 1, 0xC3, .unexpectedEnd⟩) := by decide +kernel

end AdmissionControl.Utf8
