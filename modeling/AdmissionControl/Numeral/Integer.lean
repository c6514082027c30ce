import AdmissionControl.Text.Blank
import AdmissionControl.Text.Digit

/-!
# Integer and decimal literals

* `readInteger` reads digits of a base from two to sixteen, of any script, with single underscores
  between digits, an optional sign, white space around, and the prefix of the base if that is 2, 8
  or 16.
* `readDecimal` reads a decimal fraction with an optional power of ten, or one of the words for
  infinity and not-a-number.
* A literal in base ten has at most `maxDigits` digits, and so has a number that is written out.
  Digits are counted before what follows them is looked at.
-/

namespace AdmissionControl.Numeral

/-- Greatest number of decimal digits that is read or written. -/
def maxDigits : Nat := 4300

inductive ReadError
  | malformed
  | tooManyDigits (count : Nat)
deriving DecidableEq, Repr

/-- Decimal digits in any script as ASCII; every other code point as it is. -/
def asciiDigits (s : Text) : Text :=
  s.map fun c => match Text.decimalDigit? c with
    | some d => CodePoint.ofNat (0x30 + d)
    | none => c

/-- The digits at the front of a text, with single underscores between them, and what follows them;
the flag says whether the last code point was a digit. -/
def digitsFrom (base : Nat) (afterDigit : Bool) (done : List Nat) : Text → Option (List Nat × Text)
  | [] => if afterDigit then some (done.reverse, []) else none
  | c :: rest =>
    if c = '_' then if afterDigit then digitsFrom base false done rest else none
    else match c.digitValue? with
      | some d =>
        if d < base then digitsFrom base true (d :: done) rest
        else if afterDigit then some (done.reverse, c :: rest) else none
      | none => if afterDigit then some (done.reverse, c :: rest) else none

/-- The text after a prefix such as `0x`; one underscore may follow it. -/
def dropBasePrefix (base : Nat) (s : Text) : Text :=
  match s with
  | z :: x :: rest =>
    if z = '0' ∧ (base = 16 ∧ x.lowerAscii = 'x' ∨ base = 8 ∧ x.lowerAscii = 'o' ∨
        base = 2 ∧ x.lowerAscii = 'b') then
      match rest with
      | u :: more => if u = '_' then more else rest
      | [] => s
    else s
  | _ => s

def splitSign : Text → Bool × Text
  | c :: rest =>
    if c = '-' then (true, rest) else if c = '+' then (false, rest) else (false, c :: rest)
  | [] => (false, [])

def isPowerOfTwo (base : Nat) : Bool := base == 2 || base == 4 || base == 8 || base == 16

def ofDigits (base : Nat) (digits : List Nat) : Nat := digits.foldl (fun n d => n * base + d) 0

def readInteger (base : Nat) (s : Text) : Except ReadError Int :=
  let (negative, body) := splitSign (asciiDigits (Text.trimSpace s))
  match digitsFrom base false [] (dropBasePrefix base body) with
  | none => .error .malformed
  | some (digits, rest) =>
    if maxDigits < digits.length && !isPowerOfTwo base then .error (.tooManyDigits digits.length)
    else if !rest.isEmpty then .error .malformed
    else
      let n : Int := ofDigits base digits
      .ok (if negative then -n else n)

/-- The decimal digits of a number, unless there are too many. -/
def writeInteger? (n : Int) : Option Text :=
  let digits := Text.ofNat n.natAbs
  if maxDigits < digits.length then none else some (Text.ofInt n)

/-- Removes the underscores of a literal, each of which must stand between two digits. -/
def dropUnderscores (before : Bool) : Text → Option Text
  | [] => some []
  | [c] => if c = '_' then none else some [c]
  | c :: d :: rest =>
    if c = '_' then
      if before && d.isAsciiDigit then dropUnderscores false (d :: rest) else none
    else (dropUnderscores c.isAsciiDigit (d :: rest)).map (c :: ·)

inductive Decimal
  | finite (negative : Bool) (digits : Nat) (power : Int)
  | infinite (negative : Bool)
  | nan
deriving DecidableEq, Repr

/-- The power of ten after a mantissa: nothing, or `e` with an optional sign and digits. -/
def readPower? : Text → Option Int
  | [] => some 0
  | c :: rest =>
    if c.lowerAscii = 'e' then
      let (negative, digits) := splitSign rest
      if digits.isEmpty || !digits.all CodePoint.isAsciiDigit then none
      else
        let n : Int := ofDigits 10 (digits.filterMap CodePoint.digitValue?)
        some (if negative then -n else n)
    else none

def readFinite? (negative : Bool) (s : Text) : Option Decimal :=
  let whole := s.takeWhile CodePoint.isAsciiDigit
  let rest := s.dropWhile CodePoint.isAsciiDigit
  let (fraction, rest) := match rest with
    | c :: more =>
      if c = '.' then (more.takeWhile CodePoint.isAsciiDigit, more.dropWhile CodePoint.isAsciiDigit)
      else ([], rest)
    | [] => ([], [])
  if whole.isEmpty && fraction.isEmpty then none
  else (readPower? rest).map fun power =>
    .finite negative (ofDigits 10 ((whole ++ fraction).filterMap CodePoint.digitValue?))
      (power - fraction.length)

def infinityWords : List Text := ["inf", "infinity"]

def readDecimal? (s : Text) : Option Decimal :=
  match dropUnderscores false (asciiDigits (Text.trimSpace s)) with
  | none => none
  | some s =>
    let (negative, body) := splitSign s
    let word := Text.lowerAscii body
    if infinityWords.contains word then some (.infinite negative)
    else if word = ("nan" : Text) then some .nan
    else readFinite? negative body

end AdmissionControl.Numeral
