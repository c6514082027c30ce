import AdmissionControl.Numeral.Binary64

/-!
# The fewest digits that read back

`shortest?` finds the least number of decimal digits, from one to seventeen, that round to the given
number, and of two such decimals the nearer one.  `Binary64.render` writes them: positionally from
`0.0001` up to `10 ^ 16`, with a power of ten beyond.
-/

namespace AdmissionControl.Binary64

/-- The decimal `digits * 10 ^ point`. -/
structure Decimal where
  digits : Nat
  point : Int
deriving DecidableEq, Repr

/-- The numerator and denominator of `m * 2 ^ e`. -/
def ratio (m : Nat) (e : Int) : Nat × Nat :=
  if 0 ≤ e then (m * Nat.pow 2 e.toNat, 1) else (m, Nat.pow 2 (-e).toNat)

/-- `num / den` in units of `10 ^ power`. -/
def tenScaled (num den : Nat) (power : Int) : Nat × Nat :=
  if 0 ≤ power then (num, den * Nat.pow 10 power.toNat)
  else (num * Nat.pow 10 (-power).toNat, den)

/-- The power of ten just above a quotient, found upward from a lower bound. -/
def pointFrom (num den : Nat) : Nat → Int → Int
  | 0, power => power
  | fuel + 1, power =>
    let (a, b) := tenScaled num den power
    if a < b then power else pointFrom num den fuel (power + 1)

def readsBack (x : Binary64) (digits : Nat) (power : Int) : Bool :=
  digits != 0 && ofDecimal false digits power == x

/-- The decimal with `count` digits nearest to the quotient, if it reads back as `x`. -/
def withDigits? (x : Binary64) (num den : Nat) (point : Int) (count : Nat) : Option Decimal :=
  let power := point - count
  let (a, b) := tenScaled num den power
  let low := a / b
  let high := low + 1
  let twice := 2 * (a % b)
  let nearLow := twice < b || (twice == b && low % 2 == 0)
  match readsBack x low power, readsBack x high power with
  | true, true => some ⟨if nearLow then low else high, power⟩
  | true, false => some ⟨low, power⟩
  | false, true => some ⟨high, power⟩
  | false, false => none

/-- Shortest decimal of `m * 2 ^ e`; zero has none. -/
def shortest? (m : Nat) (e : Int) : Option Decimal :=
  if m = 0 then none else
  let (num, den) := ratio m e
  let lower : Int := ((num.log2 : Int) - (den.log2 : Int) - 1) * 30103 / 100000 - 1
  let point := pointFrom num den 8 lower
  (List.range 17).findSome? fun i => withDigits? (.finite false m e) num den point (i + 1)

/-- Digits without trailing zeros, and the place of the point relative to the first digit. -/
def Decimal.normal (d : Decimal) : Text × Int :=
  let digits := Text.ofNat d.digits
  let trimmed := (digits.reverse.dropWhile fun c : CodePoint => c = '0').reverse
  (trimmed, digits.length + d.point)

def zeros (n : Nat) : Text := List.replicate n '0'

/-- Digits with the point after the first `point` of them. -/
def positional (digits : Text) (point : Int) : Text :=
  if point ≤ 0 then "0." ++ zeros (-point).toNat ++ digits
  else
    let whole := point.toNat
    if digits.length ≤ whole then digits ++ zeros (whole - digits.length) ++ ".0"
    else digits.take whole ++ "." ++ digits.drop whole

/-- One digit before the point, and a signed exponent of at least two digits. -/
def scientific (digits : Text) (point : Int) : Text :=
  let power := point - 1
  let exponent := Text.ofNat power.natAbs
  let fraction := if digits.length ≤ 1 then [] else ('.' : CodePoint) :: digits.drop 1
  digits.take 1 ++ fraction ++ (if power < 0 then "e-" else "e+") ++
    zeros (2 - exponent.length) ++ exponent

def renderMagnitude (m : Nat) (e : Int) : Text :=
  match shortest? m e with
  | none => "0.0"
  | some d =>
    let (digits, point) := d.normal
    if -4 < point ∧ point ≤ 16 then positional digits point else scientific digits point

def render : Binary64 → Text
  | .nan => "nan"
  | .infinite negative => if negative then "-inf" else "inf"
  | .finite negative m e => (if negative then ("-" : Text) else []) ++ renderMagnitude m e

end AdmissionControl.Binary64
