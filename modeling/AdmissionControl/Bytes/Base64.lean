import AdmissionControl.Text

/-!
# Base64, read leniently

`decode?` passes over every code point that is no digit of base 64.  Four digits make three bytes;
an incomplete group must be filled up with equals signs, after which nothing is read any more.
-/

namespace AdmissionControl.Base64

def digit? (c : CodePoint) : Option Nat :=
  if c.isAsciiUpper then some (c.val - 0x41)
  else if c.isAsciiLower then some (c.val - 0x61 + 26)
  else if c.isAsciiDigit then some (c.val - 0x30 + 52)
  else if c = '+' then some 62
  else if c = '/' then some 63
  else none

/-- `place` digits of the current group are read, `left` is what they leave over, and `pads` equals
signs have followed. -/
def decodeFrom (place left pads : Nat) (done : List UInt8) : Text → Option (List UInt8)
  | [] => if place = 0 then some done.reverse else none
  | c :: rest =>
    if c = '=' then
      if 2 ≤ place ∧ 4 ≤ place + pads + 1 then some done.reverse
      else decodeFrom place left (if 2 ≤ place then pads + 1 else pads) done rest
    else match digit? c with
      | none => decodeFrom place left pads done rest
      | some d =>
        match place with
        | 0 => decodeFrom 1 d 0 done rest
        | 1 => decodeFrom 2 (d % 16) 0 (UInt8.ofNat (left * 4 + d / 16) :: done) rest
        | 2 => decodeFrom 3 (d % 4) 0 (UInt8.ofNat (left * 16 + d / 4) :: done) rest
        | _ => decodeFrom 0 0 0 (UInt8.ofNat (left * 64 + d) :: done) rest

def decode? (s : Text) : Option (List UInt8) := decodeFrom 0 0 0 [] s

example : decode? ("aGk=\n" : Text) = some [0x68, 0x69] := by decide

end AdmissionControl.Base64
