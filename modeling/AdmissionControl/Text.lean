/-!
# Text as a list of code points

Identifiers, paths and documents are lists of Unicode code points.  Surrogates are admitted,
because a decoded escape can leave one on its own and the answers depend on it.

* `CodePoint`, with `CodePoint.ofChar` as a coercion from `Char`.
* `Text`, with `Text.ofString` as a coercion from `String`.
* `Text.lowerAscii` folds A to Z and leaves every other code point alone.
* `Text.splitOn` and `Text.joinWith` are inverse on parts that lack the separator.
-/

namespace AdmissionControl

structure CodePoint where
  val : Nat
  isLt : val < 0x110000
deriving DecidableEq, Repr

namespace CodePoint

def ofChar (c : Char) : CodePoint :=
  ⟨c.toNat, by
    have h := c.valid
    simp only [UInt32.isValidChar, Nat.isValidChar] at h
    show c.val.toNat < 0x110000
    omega⟩

instance : Coe Char CodePoint := ⟨ofChar⟩

instance : Inhabited CodePoint := ⟨'?'⟩

@[simp] theorem ofChar_val (c : Char) : (ofChar c).val = c.toNat := rfl

/-- The code point of a number, if it has one. -/
def ofNat? (n : Nat) : Option CodePoint :=
  if h : n < 0x110000 then some ⟨n, h⟩ else none

/-- The code point of a number known to be small, such as a byte. -/
def ofNat (n : Nat) : CodePoint :=
  if h : n < 0x110000 then ⟨n, h⟩ else ⟨0xFFFD, by decide⟩

theorem ofNat_val {n : Nat} (h : n < 0x110000) : (ofNat n).val = n := by
  simp [ofNat, h]

def isSurrogate (c : CodePoint) : Bool :=
  0xD800 ≤ c.val && c.val ≤ 0xDFFF

def isHighSurrogate (c : CodePoint) : Bool :=
  0xD800 ≤ c.val && c.val ≤ 0xDBFF

def isLowSurrogate (c : CodePoint) : Bool :=
  0xDC00 ≤ c.val && c.val ≤ 0xDFFF

def isAsciiUpper (c : CodePoint) : Bool :=
  0x41 ≤ c.val && c.val ≤ 0x5A

def isAsciiLower (c : CodePoint) : Bool :=
  0x61 ≤ c.val && c.val ≤ 0x7A

def isAsciiDigit (c : CodePoint) : Bool :=
  0x30 ≤ c.val && c.val ≤ 0x39

def isHexDigit (c : CodePoint) : Bool :=
  c.isAsciiDigit || (0x41 ≤ c.val && c.val ≤ 0x46) || (0x61 ≤ c.val && c.val ≤ 0x66)

/-- Value of an ASCII letter or digit as a digit, up to 35 for `z`. -/
def digitValue? (c : CodePoint) : Option Nat :=
  if c.isAsciiDigit then some (c.val - 0x30)
  else if c.isAsciiUpper then some (c.val - 0x41 + 10)
  else if c.isAsciiLower then some (c.val - 0x61 + 10)
  else none

def lowerAscii (c : CodePoint) : CodePoint :=
  if h : 0x41 ≤ c.val ∧ c.val ≤ 0x5A then ⟨c.val + 0x20, by omega⟩ else c

def upperAscii (c : CodePoint) : CodePoint :=
  if h : 0x61 ≤ c.val ∧ c.val ≤ 0x7A then ⟨c.val - 0x20, by omega⟩ else c

theorem ext_val {c d : CodePoint} (h : c.val = d.val) : c = d := by
  cases c; cases d; simp_all

theorem lowerAscii_val (c : CodePoint) :
    c.lowerAscii.val = if 0x41 ≤ c.val ∧ c.val ≤ 0x5A then c.val + 0x20 else c.val := by
  unfold lowerAscii
  split <;> simp_all

@[simp] theorem lowerAscii_lowerAscii (c : CodePoint) : c.lowerAscii.lowerAscii = c.lowerAscii := by
  apply ext_val
  have h := lowerAscii_val c
  rw [lowerAscii_val c.lowerAscii, h]
  by_cases hc : 0x41 ≤ c.val ∧ c.val ≤ 0x5A
  · simp only [hc, and_self, if_true]
    rw [if_neg (by omega)]
  · simp only [hc, if_false]

theorem not_isAsciiUpper_lowerAscii (c : CodePoint) : c.lowerAscii.isAsciiUpper = false := by
  have h := lowerAscii_val c
  simp only [isAsciiUpper, Bool.and_eq_false_iff, decide_eq_false_iff_not]
  split at h <;> omega

instance : Ord CodePoint := ⟨fun c d => compare c.val d.val⟩

end CodePoint

abbrev Text := List CodePoint

namespace Text

def ofString (s : String) : Text := s.toList.map CodePoint.ofChar

instance : Coe String Text := ⟨ofString⟩

/-- Decimal digits without a sign. -/
def ofNat (n : Nat) : Text := (Nat.toDigits 10 n).map CodePoint.ofChar

def ofInt : Int → Text
  | .ofNat n => ofNat n
  | .negSucc n => ('-' : CodePoint) :: ofNat (n + 1)

def lowerAscii (s : Text) : Text := s.map CodePoint.lowerAscii

def upperAscii (s : Text) : Text := s.map CodePoint.upperAscii

@[simp] theorem lowerAscii_lowerAscii (s : Text) : lowerAscii (lowerAscii s) = lowerAscii s := by
  simp [lowerAscii, List.map_map, Function.comp_def]

@[simp] theorem length_lowerAscii (s : Text) : (lowerAscii s).length = s.length := by
  simp [lowerAscii]

/-- The parts between separators; there is always one part more than separators. -/
def splitOn (sep : CodePoint) : Text → List Text
  | [] => [[]]
  | c :: rest =>
    if c = sep then [] :: splitOn sep rest
    else match splitOn sep rest with
      | [] => [[c]]
      | part :: parts => (c :: part) :: parts

def joinWith (sep : Text) : List Text → Text
  | [] => []
  | [part] => part
  | part :: parts => part ++ sep ++ joinWith sep parts

theorem splitOn_ne_nil (sep : CodePoint) (s : Text) : splitOn sep s ≠ [] := by
  cases s with
  | nil => simp [splitOn]
  | cons c rest =>
    unfold splitOn
    split
    · simp
    · split <;> simp

/-- Removes every occurrence of a code point. -/
def without (c : CodePoint) (s : Text) : Text := s.filter (· ≠ c)

def startsWith (s start : Text) : Bool := start.isPrefixOf s

/-- The text after the given beginning, if it begins so. -/
def dropStart? : Text → Text → Option Text
  | s, [] => some s
  | [], _ :: _ => none
  | c :: s, d :: start => if c = d then dropStart? s start else none

/-- Lexicographic order by code point. -/
def lt : Text → Text → Bool
  | _, [] => false
  | [], _ :: _ => true
  | c :: s, d :: t => c.val < d.val || (c.val == d.val && lt s t)

def le (s t : Text) : Bool := !lt t s

def sorted (texts : List Text) : List Text := texts.mergeSort le

/-- Characters for output; a surrogate, which is no character, becomes a question mark. -/
def render (s : Text) : String :=
  String.ofList (s.map fun c => if h : c.val.isValidChar then Char.ofNatAux c.val h else '?')

end Text

end AdmissionControl
