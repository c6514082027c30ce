import AdmissionControl.Yaml.Cursor

/-!
# Tags

A tag names the type of a node.  A plain scalar without a tag has the type that its text shows:
`implicitTag` goes through the forms of truth values, decimals, integers, the merge mark, null,
timestamps and the value mark, and what has none of them is a text.

A form is a pattern that the whole text must match, one line end at the end left aside.
-/

namespace AdmissionControl.Yaml

/-- The type of a node; a name without a type is kept. -/
inductive Tag
  | null
  | bool
  | integer
  | decimal
  | binary
  | timestamp
  | omap
  | pairs
  | set
  | text
  | sequence
  | mapping
  /-- The key whose value is merged into the mapping that it stands in. -/
  | merge
  /-- The key whose value a mapping may stand for. -/
  | value
  | other (name : Text)
deriving DecidableEq, Repr, Inhabited

namespace Tag

/-- What the names of the types begin with. -/
def standardStart : Text := "tag:yaml.org,2002:"

def standardNames : List (Text × Tag) := [
  ("null", null), ("bool", bool), ("int", integer), ("float", decimal), ("binary", binary),
  ("timestamp", timestamp), ("omap", omap), ("pairs", pairs), ("set", set), ("str", text),
  ("seq", sequence), ("map", mapping), ("merge", merge), ("value", value)]

/-- The tag with a name. -/
def named (name : Text) : Tag :=
  match Text.dropStart? name standardStart with
  | some rest => (standardNames.lookup rest).getD (other name)
  | none => other name

/-- The name that asks for the tag that the text shows. -/
def unspecific : Text := "!"

/-- The tag of a lone mark that names no type. -/
def mark : Tag := other (standardStart ++ "yaml")

end Tag

/-! ### Forms -/

/-- Splits a text into the code points at its front with a property, and the rest. -/
def splitRun (p : CodePoint → Bool) (s : Text) : Text × Text := (s.takeWhile p, s.dropWhile p)

def dropSign : Text → Text
  | c :: rest => if c = '-' ∨ c = '+' then rest else c :: rest
  | [] => []

def isDigitOrUnderscore (c : CodePoint) : Bool := c.isAsciiDigit || c = '_'

/-- Groups of a colon and a number below sixty, at least one; answers what is left. -/
def dropSixties? (fuel : Nat) (seen : Bool) (s : Text) : Option Text :=
  match fuel with
  | 0 => none
  | fuel + 1 =>
    match s with
    | colon :: a :: b :: rest =>
      if colon = ':' && a.isAsciiDigit then
        if b.isAsciiDigit && a.val ≤ 0x35 then dropSixties? fuel true rest
        else dropSixties? fuel true (b :: rest)
      else if seen then some s else none
    | [colon, a] =>
      if colon = ':' && a.isAsciiDigit then some []
      else if seen then some s else none
    | _ => if seen then some s else none

/-- Digits without a leading zero, with underscores. -/
def isCounting (s : Text) : Bool :=
  match s with
  | c :: rest => c.isAsciiDigit && c ≠ '0' && rest.all isDigitOrUnderscore
  | [] => false

def isSexagesimal (s : Text) : Bool :=
  let (head, rest) := splitRun isDigitOrUnderscore s
  isCounting head && dropSixties? (rest.length + 1) false rest == some []

def isIntegerForm (s : Text) : Bool :=
  let body := dropSign s
  isCounting body || isSexagesimal body ||
  match body with
  | zero :: rest =>
    zero = '0' && (rest.isEmpty ||
      rest.all (fun c => c = '_' || (0x30 ≤ c.val && c.val ≤ 0x37)) ||
      match rest with
      | x :: more =>
        !more.isEmpty &&
        ((x = 'b' && more.all fun c => c = '0' || c = '1' || c = '_') ||
          (x = 'x' && more.all fun c => c.isHexDigit || c = '_'))
      | [] => false)
  | [] => false

/-- Nothing, or a power of ten with its sign. -/
def isPowerForm (s : Text) : Bool :=
  match s with
  | [] => true
  | e :: sign :: digits =>
    e.lowerAscii = 'e' && (sign = '+' || sign = '-') && !digits.isEmpty &&
    digits.all CodePoint.isAsciiDigit
  | _ => false

def startsWithDigit (s : Text) : Bool := (s.head?.map CodePoint.isAsciiDigit).getD false

/-- Digits, a point, more digits and a power. -/
def isFractionForm (s : Text) : Bool :=
  let (whole, rest) := splitRun isDigitOrUnderscore s
  startsWithDigit whole &&
  match rest with
  | point :: more => point = '.' && isPowerForm (more.dropWhile isDigitOrUnderscore)
  | [] => false

def isPointFirstForm (s : Text) : Bool :=
  match s with
  | point :: more =>
    point = '.' && startsWithDigit more && isPowerForm (more.dropWhile isDigitOrUnderscore)
  | [] => false

def isSexagesimalFraction (s : Text) : Bool :=
  let (head, rest) := splitRun isDigitOrUnderscore s
  startsWithDigit head &&
  match dropSixties? (rest.length + 1) false rest with
  | some (point :: more) => point = '.' && more.all isDigitOrUnderscore
  | _ => false

def infinityForms : List Text := [".inf", ".Inf", ".INF"]

def nanForms : List Text := [".nan", ".NaN", ".NAN"]

def isDecimalForm (s : Text) : Bool :=
  let body := dropSign s
  isFractionForm body || isPointFirstForm s || isSexagesimalFraction body ||
  infinityForms.contains body || nanForms.contains s

def boolForms : List Text :=
  ["yes", "Yes", "YES", "no", "No", "NO", "true", "True", "TRUE", "false", "False", "FALSE",
    "on", "On", "ON", "off", "Off", "OFF"]

def nullForms : List Text := ["~", "null", "Null", "NULL", ""]

/-! ### Timestamps -/

/-- The parts of a timestamp, each of them digits as they are written. -/
structure TimestampParts where
  year : Text
  month : Text
  day : Text
  /-- Hour, minute, second and the digits of the fraction. -/
  time : Option (Text × Text × Text × Text)
  /-- The sign, the hours and the minutes of an offset; an offset `Z` has none. -/
  zone : Option (Option (Bool × Text × Text))
deriving DecidableEq, Repr

/-- Between `least` and `most` digits, as many as there are. -/
def digits? (least most : Nat) (s : Text) : Option (Text × Text) :=
  let run := (s.takeWhile CodePoint.isAsciiDigit).take most
  if run.length < least then none else some (run, s.drop run.length)

def expect? (c : Char) : Text → Option Text
  | x :: rest => if x = (c : CodePoint) then some rest else none
  | [] => none

def zone? (s : Text) : Option (Option (Option (Bool × Text × Text))) :=
  let body := s.dropWhile isSpaceOrTab
  match body with
  | [] => if s.isEmpty then some none else none
  | c :: rest =>
    if c = 'Z' then if rest.isEmpty then some (some none) else none
    else if c = '+' ∨ c = '-' then do
      let (hours, rest) ← digits? 1 2 rest
      if rest.isEmpty then return some (some (c == '-', hours, []))
      let rest ← expect? ':' rest
      let (minutes, rest) ← digits? 2 2 rest
      if rest.isEmpty then return some (some (c == '-', hours, minutes)) else none
    else none

/-- What separates the time from the date: a letter `T`, or blanks. -/
def dropTimeMark? : Text → Option Text
  | c :: rest =>
    if c.lowerAscii = 't' then some rest
    else if isSpaceOrTab c then some (rest.dropWhile isSpaceOrTab)
    else none
  | [] => none

def timestampTime? (s : Text) :
    Option ((Text × Text × Text × Text) × Option (Option (Bool × Text × Text))) := do
  let s ← dropTimeMark? s
  let (hour, s) ← digits? 1 2 s
  let (minute, s) ← digits? 2 2 (← expect? ':' s)
  let (second, s) ← digits? 2 2 (← expect? ':' s)
  let (fraction, s) := match expect? '.' s with
    | some s => splitRun CodePoint.isAsciiDigit s
    | none => ([], s)
  let zone ← zone? s
  return ((hour, minute, second, fraction), zone)

/-- A line end at the end of a text is not part of what a form matches. -/
def dropFinalBreak (s : Text) : Text :=
  if s.getLast? = some ('\n' : CodePoint) then s.dropLast else s

def timestampParts? (s : Text) : Option TimestampParts := do
  let s := dropFinalBreak s
  let (year, s) ← digits? 4 4 s
  let (month, s) ← digits? 1 2 (← expect? '-' s)
  let (day, s) ← digits? 1 2 (← expect? '-' s)
  if s.isEmpty then return ⟨year, month, day, none, none⟩
  let (time, zone) ← timestampTime? s
  return ⟨year, month, day, some time, zone⟩

/-- A date alone shows its type only if month and day have two digits. -/
def isTimestampForm (s : Text) : Bool :=
  match timestampParts? s with
  | some parts => parts.time.isSome || (parts.month.length == 2 && parts.day.length == 2)
  | none => false

/-! ### The tag that a text shows -/

def implicitTag (s : Text) : Tag :=
  let form := dropFinalBreak s
  if boolForms.contains form then .bool
  else if isDecimalForm form then .decimal
  else if isIntegerForm form then .integer
  else if form = "<<" then .merge
  else if nullForms.contains form && (form ≠ [] || s = []) then .null
  else if isTimestampForm s then .timestamp
  else if form = "=" then .value
  else if (["!", "&", "*"] : List Text).contains form then .mark
  else .text

example : implicitTag "0o7" = .text ∧ implicitTag "0x_1f" = .integer := by decide +kernel

end AdmissionControl.Yaml
