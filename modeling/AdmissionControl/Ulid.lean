import AdmissionControl.Text

/-!
# Universally unique, sortable identifiers

An identifier has 128 bits, the upper 48 for the time in milliseconds and the lower 80 by chance.
It is written in 26 digits of base 32, without the letters I, L, O and U.  Identifiers of different
times therefore sort as the times do.
-/

namespace AdmissionControl

structure Ulid where
  milliseconds : Nat
  chance : Nat
deriving DecidableEq, Repr

namespace Ulid

def alphabet : Text := "0123456789ABCDEFGHJKMNPQRSTVWXYZ"

def digit (n : Nat) : CodePoint := alphabet.getD (n % 32) '0'

/-- The last `count` digits of a number in base 32, the highest first. -/
def digits : Nat → Nat → Text
  | 0, _ => []
  | count + 1, n => digits count (n / 32) ++ [digit n]

def render (u : Ulid) : Text :=
  digits 10 (u.milliseconds % 0x1000000000000) ++ digits 16 u.chance

/-- The number that bytes spell, the highest byte first. -/
def ofBytes (bytes : List UInt8) : Nat := bytes.foldl (fun n b => n * 256 + b.toNat) 0

/-- The identifier of a time and ten bytes by chance. -/
def make (milliseconds : Nat) (bytes : List UInt8) : Ulid := ⟨milliseconds, ofBytes bytes⟩

example : (make 1 [0, 0, 0, 0, 0, 0, 0, 0, 0, 33]).render =
    Text.ofString "00000000010000000000000011" := by decide +kernel

end Ulid

end AdmissionControl
