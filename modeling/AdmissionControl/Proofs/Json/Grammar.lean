import AdmissionControl.Json.Parser
import Mathlib.Data.List.Nodup

/-!
# The grammar of JSON

The grammar of RFC 8259 as relations between what is written and the value that it stands for, with
the constants `NaN`, `Infinity` and `-Infinity`, and with a bound on the digits of an integer.  No
part of it uses the parser.

* `SpellsNumber`, `SpellsString` — numbers and strings.  A string is written in two stages: what
  stands between its quotes spells units, and units that are a surrogate pair stand for one code
  point.
* `Spells`, `Padded`, `Elements`, `Members` — values, with blanks around them, and in a row.
* `Value.depth`, `Value.NamesDistinct`, `Value.Fits` — how deep a value nests, that no object in it
  repeats a name, and both.
-/

namespace AdmissionControl.Json

/-- Spaces, tabs and line ends, as they may stand between any two signs. -/
def Blanks (s : Text) : Prop := ∀ c ∈ s, isSpace c = true

theorem blanks_nil : Blanks [] := nofun

/-! ### Numbers -/

def Digits (s : Text) : Prop := ∀ c ∈ s, c.isAsciiDigit = true

inductive IsWhole : Text → Prop
  | zero : IsWhole [('0' : CodePoint)]
  | digits {c : CodePoint} {s : Text} (digit : c.isAsciiDigit = true)
      (ne : c ≠ ('0' : CodePoint)) (rest : Digits s) : IsWhole (c :: s)

inductive IsFraction : Text → Prop
  | absent : IsFraction []
  | digits {s : Text} (ne : s ≠ []) (rest : Digits s) : IsFraction (('.' : CodePoint) :: s)

/-- The signs that the power of ten may have. -/
def powerSigns : List Text := [[], [('-' : CodePoint)], [('+' : CodePoint)]]

inductive IsPower : Text → Prop
  | absent : IsPower []
  | digits {e : CodePoint} {sign s : Text} (letter : e = ('e' : CodePoint) ∨ e = ('E' : CodePoint))
      (mem : sign ∈ powerSigns) (ne : s ≠ []) (rest : Digits s) : IsPower (e :: (sign ++ s))

/-- The sign of a number. -/
def minus : Bool → Text
  | true => [('-' : CodePoint)]
  | false => []

def signed (negative : Bool) (n : Nat) : Int := if negative then -n else n

/-- A number without a fraction and a power is an integer; any other one is kept as it is
written. -/
inductive SpellsNumber : Text → Value → Prop
  | integer {negative : Bool} {whole : Text} (isWhole : IsWhole whole)
      (count : whole.length ≤ Numeral.maxDigits) :
      SpellsNumber (minus negative ++ whole) (.integer
        (signed negative (Numeral.ofDigits 10 (whole.filterMap CodePoint.digitValue?))))
  | decimal {negative : Bool} {whole fraction power : Text} (isWhole : IsWhole whole)
      (isFraction : IsFraction fraction) (isPower : IsPower power)
      (ne : fraction ≠ [] ∨ power ≠ []) :
      SpellsNumber (minus negative ++ (whole ++ (fraction ++ power)))
        (.decimal (minus negative ++ (whole ++ (fraction ++ power))))

/-! ### Strings -/

def quote : CodePoint := '"'

def backslash : CodePoint := '\\'

/-- The escapes of one letter, each with the code point that it stands for. -/
def escapes : List (CodePoint × CodePoint) := [('"', '"'), ('\\', '\\'), ('/', '/'), ('b', '\x08'),
  ('f', '\x0C'), ('n', '\n'), ('r', '\r'), ('t', '\t')]

/-- What stands between the quotes of a string, with the units that it spells. -/
inductive Written : Text → List CodePoint → Prop
  | nil : Written [] []
  | plain {c : CodePoint} {s : Text} {units : List CodePoint} (notQuote : c ≠ quote)
      (notBackslash : c ≠ backslash) (notControl : 0x1F < c.val) (rest : Written s units) :
      Written (c :: s) (c :: units)
  | short {e d : CodePoint} {s : Text} {units : List CodePoint} (mem : (e, d) ∈ escapes)
      (rest : Written s units) : Written (backslash :: e :: s) (d :: units)
  | number {digits s : Text} {units : List CodePoint} (four : digits.length = 4)
      (hex : ∀ c ∈ digits, c.isHexDigit = true) (rest : Written s units) :
      Written (backslash :: ('u' : CodePoint) :: (digits ++ s))
        (.ofNat (Text.hexValue digits) :: units)

/-- The code point that a surrogate pair stands for. -/
def ofPair (high low : CodePoint) : CodePoint :=
  .ofNat (0x10000 + (high.val - 0xD800) * 0x400 + (low.val - 0xDC00))

/-- The text that units stand for, where a surrogate that is not one of a pair stays as it is. -/
inductive Joined : List CodePoint → Text → Prop
  | nil : Joined [] []
  | pair {high low : CodePoint} {units : List CodePoint} {s : Text}
      (isHigh : high.isHighSurrogate = true) (isLow : low.isLowSurrogate = true)
      (rest : Joined units s) : Joined (high :: low :: units) (ofPair high low :: s)
  | single {c : CodePoint} {units : List CodePoint} {s : Text}
      (alone : c.isHighSurrogate = true → ∀ low ∈ units.head?, low.isLowSurrogate = false)
      (rest : Joined units s) : Joined (c :: units) (c :: s)

/-- A string with its quotes. -/
inductive SpellsString : Text → Text → Prop
  | mk {body text : Text} {units : List CodePoint} (written : Written body units)
      (joined : Joined units text) : SpellsString (quote :: (body ++ [quote])) text

/-! ### Values -/

/-- The constants beyond RFC 8259. -/
def constants : List Text := ["NaN", "Infinity", "-Infinity"]

mutual

inductive Spells : Text → Value → Prop
  | null : Spells "null" .null
  | true : Spells "true" (.bool Bool.true)
  | false : Spells "false" (.bool Bool.false)
  | constant {s : Text} (mem : s ∈ constants) : Spells s (.decimal s)
  | number {s : Text} {v : Value} (spells : SpellsNumber s v) : Spells s v
  | string {s text : Text} (spells : SpellsString s text) : Spells s (.string text)
  | emptyArray {blanks : Text} (isBlanks : Blanks blanks) :
      Spells (('[' : CodePoint) :: (blanks ++ [(']' : CodePoint)])) (.array [])
  | array {s : Text} {items : List Value} (elements : Elements s items) :
      Spells (('[' : CodePoint) :: (s ++ [(']' : CodePoint)])) (.array items)
  | emptyObject {blanks : Text} (isBlanks : Blanks blanks) :
      Spells (('{' : CodePoint) :: (blanks ++ [('}' : CodePoint)])) (.object [])
  | object {s : Text} {members : List (Text × Value)} (isMembers : Members s members) :
      Spells (('{' : CodePoint) :: (s ++ [('}' : CodePoint)])) (.object members)

/-- A value with blanks around it. -/
inductive Padded : Text → Value → Prop
  | mk {before s after : Text} {v : Value} (isBefore : Blanks before) (spells : Spells s v)
      (isAfter : Blanks after) : Padded (before ++ (s ++ after)) v

/-- Values with commas between them. -/
inductive Elements : Text → List Value → Prop
  | last {s : Text} {v : Value} (padded : Padded s v) : Elements s [v]
  | next {s rest : Text} {v : Value} {items : List Value} (padded : Padded s v)
      (elements : Elements rest items) : Elements (s ++ ((',' : CodePoint) :: rest)) (v :: items)

/-- Names with values, and with commas between them. -/
inductive Members : Text → List (Text × Value) → Prop
  | last {before name after s text : Text} {v : Value} (isBefore : Blanks before)
      (spells : SpellsString name text) (isAfter : Blanks after) (padded : Padded s v) :
      Members (before ++ (name ++ (after ++ ((':' : CodePoint) :: s)))) [(text, v)]
  | next {before name after s text rest : Text} {v : Value} {members : List (Text × Value)}
      (isBefore : Blanks before) (spells : SpellsString name text) (isAfter : Blanks after)
      (padded : Padded s v) (isMembers : Members rest members) :
      Members (before ++ (name ++ (after ++ ((':' : CodePoint) :: (s ++
        ((',' : CodePoint) :: rest)))))) ((text, v) :: members)

end

/-! ### What is asked of values -/

namespace Value

mutual

/-- How deep arrays and objects nest. -/
def depth : Value → Nat
  | array items => depthItems items + 1
  | object members => depthMembers members + 1
  | null | bool _ | integer _ | decimal _ | string _ => 0

def depthItems : List Value → Nat
  | [] => 0
  | v :: items => max v.depth (depthItems items)

def depthMembers : List (Text × Value) → Nat
  | [] => 0
  | (_, v) :: members => max v.depth (depthMembers members)

end

/-- No object repeats a name, at any depth. -/
inductive NamesDistinct : Value → Prop
  | null : NamesDistinct null
  | bool (b : Bool) : NamesDistinct (bool b)
  | integer (n : Int) : NamesDistinct (integer n)
  | decimal (literal : Text) : NamesDistinct (decimal literal)
  | string (s : Text) : NamesDistinct (string s)
  | array {items : List Value} (each : ∀ v ∈ items, v.NamesDistinct) : NamesDistinct (array items)
  | object {members : List (Text × Value)} (nodup : (members.map (·.1)).Nodup)
      (each : ∀ m ∈ members, m.2.NamesDistinct) : NamesDistinct (object members)

/-- A value that does not nest deeper than a limit and in which no object repeats a name. -/
structure Fits (limit : Nat) (v : Value) : Prop where
  depth : v.depth ≤ limit
  names : v.NamesDistinct

theorem depthItems_le_iff {items : List Value} {n : Nat} :
    depthItems items ≤ n ↔ ∀ v ∈ items, v.depth ≤ n := by
  induction items with
  | nil => simp [depthItems]
  | cons v items ih => rw [depthItems, Nat.max_le, List.forall_mem_cons, ih]

theorem depthMembers_le_iff {members : List (Text × Value)} {n : Nat} :
    depthMembers members ≤ n ↔ ∀ m ∈ members, m.2.depth ≤ n := by
  induction members with
  | nil => simp [depthMembers]
  | cons m members ih => rw [depthMembers, Nat.max_le, List.forall_mem_cons, ih]

theorem fits_array_iff {limit : Nat} {items : List Value} :
    (array items).Fits limit ↔ ∃ below, limit = below + 1 ∧ ∀ v ∈ items, v.Fits below := by
  constructor
  · rintro ⟨hdepth, ⟨⟩⟩
    rename_i heach
    rw [Value.depth] at hdepth
    obtain ⟨below, rfl⟩ := Nat.exists_eq_add_of_le' (Nat.one_le_of_lt hdepth)
    have hbelow := depthItems_le_iff.mp (Nat.le_of_succ_le_succ hdepth)
    exact ⟨below, rfl, fun v hv => ⟨hbelow v hv, heach v hv⟩⟩
  · rintro ⟨below, rfl, heach⟩
    refine ⟨?_, .array fun v hv => (heach v hv).names⟩
    rw [Value.depth]
    exact Nat.succ_le_succ (depthItems_le_iff.mpr fun v hv => (heach v hv).depth)

theorem fits_object_iff {limit : Nat} {members : List (Text × Value)} :
    (object members).Fits limit ↔ ∃ below, limit = below + 1 ∧ (members.map (·.1)).Nodup ∧
      ∀ m ∈ members, m.2.Fits below := by
  constructor
  · rintro ⟨hdepth, ⟨⟩⟩
    rename_i hnodup heach
    rw [Value.depth] at hdepth
    obtain ⟨below, rfl⟩ := Nat.exists_eq_add_of_le' (Nat.one_le_of_lt hdepth)
    have hbelow := depthMembers_le_iff.mp (Nat.le_of_succ_le_succ hdepth)
    exact ⟨below, rfl, hnodup, fun m hm => ⟨hbelow m hm, heach m hm⟩⟩
  · rintro ⟨below, rfl, hnodup, heach⟩
    refine ⟨?_, .object hnodup fun m hm => (heach m hm).names⟩
    rw [Value.depth]
    exact Nat.succ_le_succ (depthMembers_le_iff.mpr fun m hm => (heach m hm).depth)

end Value

end AdmissionControl.Json
