import AdmissionControl.Text.Hex
import AdmissionControl.Text.Printable

/-!
# Quoted text

The quoted form of a text uses single quotes, or double quotes if the text holds a single quote
and no double one.  Backslashes and the chosen quote are escaped, tabs and line ends have short
escapes, and every code point that is not printable is written by its number.
-/

namespace AdmissionControl.Text

/-- Backslash escape by number, in the shortest of the widths two, four and eight. -/
def numberEscape (n : Nat) : Text :=
  if n ≤ 0xFF then "\\x" ++ hexPadded 2 n
  else if n ≤ 0xFFFF then "\\u" ++ hexPadded 4 n
  else "\\U" ++ hexPadded 8 n

def quoteFor (s : Text) : CodePoint :=
  if ('\'' : CodePoint) ∈ s ∧ ('"' : CodePoint) ∉ s then '"' else '\''

/-- Escape of a code point between the given quotes. -/
def escape (quote c : CodePoint) : Text :=
  if c = quote ∨ c = '\\' then ['\\', c]
  else if c = '\t' then "\\t"
  else if c = '\n' then "\\n"
  else if c = '\r' then "\\r"
  else if isPrintable c then [c]
  else numberEscape c.val

def quoted (s : Text) : Text :=
  let quote := quoteFor s
  quote :: s.flatMap (escape quote) ++ [quote]

/-- Quoted form of bytes: printable ASCII as it is, every other byte by its number. -/
def quotedBytes (bytes : List UInt8) : Text :=
  let s : Text := bytes.map fun b => CodePoint.ofNat b.toNat
  let quote := quoteFor s
  let escapeByte (c : CodePoint) : Text :=
    if c.val ≤ 0x7E then escape quote c else numberEscape c.val
  ('b' : CodePoint) :: quote :: s.flatMap escapeByte ++ [quote]

end AdmissionControl.Text
