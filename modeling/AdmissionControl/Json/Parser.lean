import AdmissionControl.Json.Value
import AdmissionControl.Limits
import AdmissionControl.Numeral.Integer
import AdmissionControl.Text.Hex

/-!
# Reading JSON

`parse` reads one JSON text with optional blanks around it.  Beyond RFC 8259 it reads the constants
`NaN`, `Infinity` and `-Infinity`.  It refuses an object that repeats a name, an integer with more
than `Numeral.maxDigits` digits, and containers nested deeper than `Limits.json`.

Every syntax error carries the number of code points from the fault to the end; `lineColumn` gives
the line and the column of an offset.
-/

namespace AdmissionControl.Json

inductive Problem
  | expectingValue
  | expectingName
  | expectingColon
  | expectingComma
  | unterminatedString
  | controlCharacter
  | unknownEscape
  | badUnicodeEscape
  | extraData
  | byteOrderMark
deriving DecidableEq, Repr

def Problem.message : Problem → Text
  | .expectingValue => "Expecting value"
  | .expectingName => "Expecting property name enclosed in double quotes"
  | .expectingColon => "Expecting ':' delimiter"
  | .expectingComma => "Expecting ',' delimiter"
  | .unterminatedString => "Unterminated string starting at"
  | .controlCharacter => "Invalid control character at"
  | .unknownEscape => "Invalid \\escape"
  | .badUnicodeEscape => "Invalid \\uXXXX escape"
  | .extraData => "Extra data"
  | .byteOrderMark => "Unexpected UTF-8 BOM (decode using utf-8-sig)"

inductive Container
  | array
  | object
deriving DecidableEq, Repr

inductive Error
  /-- `remaining` is the number of code points from the fault to the end. -/
  | malformed (problem : Problem) (remaining : Nat)
  | repeatedName (name : Text)
  | tooManyDigits (count : Nat)
  | tooDeep (container : Container)
deriving DecidableEq, Repr

def fail {α : Type} (problem : Problem) (rest : Text) : Except Error α :=
  .error (.malformed problem rest.length)

def isSpace (c : CodePoint) : Bool := c = ' ' || c = '\t' || c = '\n' || c = '\r'

def skipSpace (s : Text) : Text := s.dropWhile isSpace

/-- A high surrogate and the low surrogate that follows it stand for one code point. -/
def joinSurrogates : Text → Text
  | h :: l :: rest =>
    if h.isHighSurrogate && l.isLowSurrogate then
      CodePoint.ofNat (0x10000 + (h.val - 0xD800) * 0x400 + (l.val - 0xDC00)) :: joinSurrogates rest
    else h :: joinSurrogates (l :: rest)
  | s => s

/-- The code point of a one-letter escape. -/
def shortEscape? (c : CodePoint) : Option CodePoint :=
  if c = '"' ∨ c = '\\' ∨ c = '/' then some c
  else if c = 'b' then some '\x08'
  else if c = 'f' then some '\x0C'
  else if c = 'n' then some '\n'
  else if c = 'r' then some '\r'
  else if c = 't' then some '\t'
  else none

/-- Reads a string after its opening quote; `start` is the text from that quote on.  An escape by
number must have something after it, if only the closing quote. -/
def stringBody (start : Text) (done : List CodePoint) : Text → Except Error (Text × Text)
  | [] => fail .unterminatedString start
  | c :: rest =>
    if c = '"' then .ok (joinSurrogates done.reverse, rest)
    else if c = '\\' then
      match rest with
      | [] => fail .unterminatedString start
      | e :: afterEscape =>
        if e = 'u' then
          match afterEscape with
          | h₁ :: h₂ :: h₃ :: h₄ :: tail =>
            if [h₁, h₂, h₃, h₄].all CodePoint.isHexDigit && !tail.isEmpty then
              stringBody start (CodePoint.ofNat (Text.hexValue [h₁, h₂, h₃, h₄]) :: done) tail
            else fail .badUnicodeEscape rest
          | _ => fail .badUnicodeEscape rest
        else match shortEscape? e with
          | some d => stringBody start (d :: done) afterEscape
          | none => fail .unknownEscape (c :: rest)
    else if c.val ≤ 0x1F then fail .controlCharacter (c :: rest)
    else stringBody start (c :: done) rest

/-- The integer part of a number: a zero, or digits that do not start with one. -/
def integerPart? : Text → Option (Text × Text)
  | [] => none
  | c :: rest =>
    if c = '0' then some ([c], rest)
    else if c.isAsciiDigit then
      some (c :: rest.takeWhile CodePoint.isAsciiDigit, rest.dropWhile CodePoint.isAsciiDigit)
    else none

/-- A point with at least one digit after it, or nothing. -/
def fractionPart : Text → Text × Text
  | c :: d :: rest =>
    if c = '.' ∧ d.isAsciiDigit then
      (c :: d :: rest.takeWhile CodePoint.isAsciiDigit, rest.dropWhile CodePoint.isAsciiDigit)
    else ([], c :: d :: rest)
  | s => ([], s)

def splitPowerSign : Text → Text × Text
  | c :: rest => if c = '-' ∨ c = '+' then ([c], rest) else ([], c :: rest)
  | [] => ([], [])

/-- An `e` with an optional sign and at least one digit, or nothing. -/
def powerPart (s : Text) : Text × Text :=
  match s with
  | e :: rest =>
    if e.lowerAscii = 'e' then
      let (sign, rest) := splitPowerSign rest
      let digits := rest.takeWhile CodePoint.isAsciiDigit
      if digits.isEmpty then ([], s)
      else (e :: sign ++ digits, rest.dropWhile CodePoint.isAsciiDigit)
    else ([], s)
  | [] => ([], s)

def number (s : Text) : Except Error (Value × Text) :=
  let (negative, body) := match s with
    | c :: rest => if c = '-' then (true, rest) else (false, s)
    | [] => (false, s)
  match integerPart? body with
  | none => fail .expectingValue s
  | some (whole, rest) =>
    let (fraction, rest) := fractionPart rest
    let (power, rest) := powerPart rest
    if fraction.isEmpty && power.isEmpty then
      if Numeral.maxDigits < whole.length then .error (.tooManyDigits whole.length)
      else
        let n : Int := Numeral.ofDigits 10 (whole.filterMap CodePoint.digitValue?)
        .ok (.integer (if negative then -n else n), rest)
    else
      let sign : Text := if negative then "-" else []
      .ok (.decimal (sign ++ whole ++ fraction ++ power), rest)

/-- The words that stand for a value. -/
def words : List (Text × Value) := [
  ("null", .null), ("true", .bool true), ("false", .bool false), ("NaN", .decimal "NaN"),
  ("Infinity", .decimal "Infinity"), ("-Infinity", .decimal "-Infinity")]

def scalar (s : Text) : Except Error (Value × Text) :=
  match words.findSome? fun w => (Text.dropStart? s w.1).map (w.2, ·) with
  | some result => .ok result
  | none => number s

/-- The first name that occurs earlier in the list. -/
def firstRepeated? (seen : List Text) : List Text → Option Text
  | [] => none
  | name :: rest => if seen.contains name then some name else firstRepeated? (name :: seen) rest

def closeObject (done : List (Text × Value)) (rest : Text) : Except Error (Value × Text) :=
  let members := done.reverse
  match firstRepeated? [] (members.map (·.1)) with
  | some name => .error (.repeatedName name)
  | none => .ok (.object members, rest)

mutual

/-- Reads a value at the front of the text.  `depth` is how many containers may still open; of two
calls in a row one at least consumes a code point, so twice the length of the text is fuel
enough. -/
def value : Nat → Nat → Text → Except Error (Value × Text)
  | 0, _, s => fail .expectingValue s
  | fuel + 1, depth, s =>
    match s with
    | [] => fail .expectingValue s
    | c :: rest =>
      if c = '"' then do
        let (text, rest) ← stringBody s [] rest
        return (.string text, rest)
      else if c = '[' then
        match depth with
        | 0 => .error (.tooDeep .array)
        | depth + 1 =>
          match skipSpace rest with
          | [] => fail .expectingValue []
          | d :: more => if d = ']' then .ok (.array [], more) else items fuel depth [] (d :: more)
      else if c = '{' then
        match depth with
        | 0 => .error (.tooDeep .object)
        | depth + 1 =>
          match skipSpace rest with
          | [] => fail .expectingName []
          | d :: more =>
            if d = '}' then .ok (.object [], more) else members fuel depth [] (d :: more)
      else scalar s

/-- Reads the elements of an array and its closing bracket. -/
def items : Nat → Nat → List Value → Text → Except Error (Value × Text)
  | 0, _, _, s => fail .expectingValue s
  | fuel + 1, depth, done, s =>
    match value fuel depth s with
    | .error e => .error e
    | .ok (v, rest) =>
      match skipSpace rest with
      | [] => fail .expectingComma []
      | c :: more =>
        if c = ']' then .ok (.array (v :: done).reverse, more)
        else if c = ',' then items fuel depth (v :: done) (skipSpace more)
        else fail .expectingComma (c :: more)

/-- Reads the members of an object and its closing brace. -/
def members : Nat → Nat → List (Text × Value) → Text → Except Error (Value × Text)
  | 0, _, _, s => fail .expectingName s
  | fuel + 1, depth, done, s =>
    match s with
    | [] => fail .expectingName s
    | quote :: rest =>
      if quote = '"' then
        match stringBody s [] rest with
        | .error e => .error e
        | .ok (name, rest) =>
          match skipSpace rest with
          | [] => fail .expectingColon []
          | colon :: more =>
            if colon = ':' then
              match value fuel depth (skipSpace more) with
              | .error e => .error e
              | .ok (v, rest) =>
                match skipSpace rest with
                | [] => fail .expectingComma []
                | c :: more =>
                  if c = '}' then closeObject ((name, v) :: done) more
                  else if c = ',' then members fuel depth ((name, v) :: done) (skipSpace more)
                  else fail .expectingComma (c :: more)
            else fail .expectingColon (colon :: more)
      else fail .expectingName s

end

def byteOrderMark : CodePoint := '\uFEFF'

def parse [Limits] (s : Text) : Except Error Value := do
  if s.head? = some byteOrderMark then fail .byteOrderMark s
  else
    let (v, rest) ← value (2 * s.length + 1) Limits.json (skipSpace s)
    match skipSpace rest with
    | [] => .ok v
    | rest => fail .extraData rest

/-- Line and column of an offset, both counted from one; lines end at U+000A only. -/
def lineColumn (s : Text) (offset : Nat) : Nat × Nat :=
  let before := s.take offset
  let line := before.count ('\n' : CodePoint) + 1
  (line, (before.reverse.takeWhile fun c : CodePoint => c ≠ '\n').length + 1)

end AdmissionControl.Json
