import AdmissionControl.Text

/-!
# Double-precision numbers, exactly

A finite number is a sign and a significand times a power of two, so that rounding is integer
arithmetic.  `ofRatio` rounds a quotient to the nearest number, ties to the even significand.  A
significand has at most 53 bits, and has fewer only at the least exponent; equal numbers therefore
have equal representations, zero apart, which has a sign.
-/

namespace AdmissionControl

inductive Binary64
  | finite (negative : Bool) (significand : Nat) (exponent : Int)
  | infinite (negative : Bool)
  | nan
deriving DecidableEq, Repr

namespace Binary64

/-- Least exponent of a significand. -/
def minExponent : Int := -1074

/-- Greatest exponent of a significand. -/
def maxExponent : Int := 971

/-- Nearest natural number to a quotient, ties to even. -/
def roundQuotient (num den : Nat) : Nat :=
  let floor := num / den
  let twice := 2 * (num % den)
  if twice < den then floor
  else if den < twice then floor + 1
  else floor + floor % 2

/-- `num / den` in units of `2 ^ exponent`, as a quotient of natural numbers. -/
def scaled (num den : Nat) (exponent : Int) : Nat × Nat :=
  if 0 ≤ exponent then (num, den * Nat.pow 2 exponent.toNat)
  else (num * Nat.pow 2 (-exponent).toNat, den)

/-- The exponent for which the quotient has 53 bits, or the least exponent. -/
def exponentFor (num den : Nat) : Int :=
  let guess : Int := (num.log2 : Int) - (den.log2 : Int) - 52
  let (a, b) := scaled num den guess
  max minExponent (if a / b < Nat.pow 2 52 then guess - 1 else guess)

def ofRatio (negative : Bool) (num den : Nat) : Binary64 :=
  if num = 0 then .finite negative 0 minExponent
  else
    let exponent := exponentFor num den
    let (a, b) := scaled num den exponent
    let m := roundQuotient a b
    let (m, exponent) := if m = Nat.pow 2 53 then (Nat.pow 2 52, exponent + 1) else (m, exponent)
    if maxExponent < exponent then .infinite negative else .finite negative m exponent

/-- The number nearest to `digits * 10 ^ power`.  Beyond a thousand places on either side the
result is infinite or zero whatever the digits are. -/
def ofDecimal (negative : Bool) (digits : Nat) (power : Int) : Binary64 :=
  let places : Int := (Nat.toDigits 10 digits).length + power
  if digits = 0 ∨ places < -1000 then .finite negative 0 minExponent
  else if 1000 < places then .infinite negative
  else if 0 ≤ power then ofRatio negative (digits * Nat.pow 10 power.toNat) 1
  else ofRatio negative digits (Nat.pow 10 (-power).toNat)

def ofInt (n : Int) : Binary64 := ofRatio (n < 0) n.natAbs 1

def neg : Binary64 → Binary64
  | .finite negative m e => .finite (!negative) m e
  | .infinite negative => .infinite (!negative)
  | .nan => .nan

/-- Nearest number to a signed integer times a power of two; an exact zero is positive. -/
def ofScaled (n exponent : Int) : Binary64 :=
  if 0 ≤ exponent then ofRatio (n < 0) (n.natAbs * Nat.pow 2 exponent.toNat) 1
  else ofRatio (n < 0) n.natAbs (Nat.pow 2 (-exponent).toNat)

def signed (negative : Bool) (m : Nat) : Int := if negative then -(m : Int) else m

def mul : Binary64 → Binary64 → Binary64
  | .nan, _ | _, .nan => .nan
  | .infinite a, .infinite b => .infinite (a != b)
  | .infinite a, .finite b m _ | .finite b m _, .infinite a =>
    if m = 0 then .nan else .infinite (a != b)
  | .finite a m e, .finite b n f =>
    let e := e + f
    if 0 ≤ e then ofRatio (a != b) (m * n * Nat.pow 2 e.toNat) 1
    else ofRatio (a != b) (m * n) (Nat.pow 2 (-e).toNat)

def add : Binary64 → Binary64 → Binary64
  | .nan, _ | _, .nan => .nan
  | .infinite a, .infinite b => if a = b then .infinite a else .nan
  | .infinite a, .finite .. | .finite .., .infinite a => .infinite a
  | .finite a m e, .finite b n f =>
    if m = 0 ∧ n = 0 then .finite (a && b) 0 minExponent
    else
      let low := min e f
      ofScaled (signed a m * Nat.pow 2 (e - low).toNat + signed b n * Nat.pow 2 (f - low).toNat) low

/-- The integer that a number equals, if it equals one. -/
def toInt? : Binary64 → Option Int
  | .finite negative m e =>
    if 0 ≤ e then some (signed negative (m * Nat.pow 2 e.toNat))
    else if m % Nat.pow 2 (-e).toNat = 0 then some (signed negative (m / Nat.pow 2 (-e).toNat))
    else none
  | _ => none

/-- The size of a number without its fraction; infinite and undefined ones have none. -/
def truncate? : Binary64 → Option Nat
  | .finite _ m e =>
    some (if 0 ≤ e then m * Nat.pow 2 e.toNat else m / Nat.pow 2 (-e).toNat)
  | _ => none

example : ofDecimal false 1 0 = .finite false (2 ^ 52) (-52) := by decide +kernel

example : (ofDecimal false 15 (-1)).toInt? = none := by decide +kernel

end Binary64

end AdmissionControl
