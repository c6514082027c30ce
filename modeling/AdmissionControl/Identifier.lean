import AdmissionControl.Text.Blank
import AdmissionControl.Value

/-!
# Identifiers and their normal form

An identifier is trimmed.  If what remains is a hexadecimal address, digits with an optional `0x`,
its normal form is `0x` with the digits in lower case; any other identifier is opaque, and only its
ASCII letters are put in lower case.

* `Identifier.canonical` is the normal form of a trimmed identifier.
* `Identifier.normalize` refuses values that are no text, blank texts and surrogates.
* `Identifier.isAddress` recognises the normal forms of addresses.
-/

namespace AdmissionControl.Identifier

inductive Problem
  | notText (kind : Text)
  | empty
deriving DecidableEq, Repr

def Problem.message : Problem → Text
  | .notText kind => "Allowlist entry must be a string, got " ++ kind
  | .empty => "Allowlist entry is empty"

inductive Error
  | malformed (problem : Problem)
  | fault (f : Fault)
deriving DecidableEq, Repr

def hexMark : Text := "0x"

/-- The text after `0x` or `0X`, or the whole text if it does not start so. -/
def dropHexMark : Text → Text
  | z :: x :: rest => if z = '0' ∧ x.lowerAscii = 'x' then rest else z :: x :: rest
  | s => s

/-- The digits of a hexadecimal address as they are written. -/
def addressDigits? (s : Text) : Option Text :=
  let digits := dropHexMark s
  if !digits.isEmpty && digits.all CodePoint.isHexDigit then some digits else none

def canonical (s : Text) : Text :=
  match addressDigits? s with
  | some digits => hexMark ++ Text.lowerAscii digits
  | none => Text.lowerAscii s

def normalizeText (raw : Text) : Except Error Text :=
  let trimmed := Text.trim raw
  if trimmed.isEmpty then .error (.malformed .empty)
  else match Utf8.firstSurrogates? trimmed with
    | some e => .error (.fault (.unencodable e))
    | none => .ok (canonical trimmed)

def normalize : Value → Except Error Text
  | .text raw => normalizeText raw
  | v => .error (.malformed (.notText v.kind))

/-- Whether a normal form is that of an address. -/
def isAddress (entry : Text) : Bool :=
  Text.startsWith entry hexMark && (addressDigits? entry).isSome

/-- `isAddress` for any text; a text that starts with `0x` must have an encoding. -/
def isAddress? (entry : Text) : Except Fault Bool :=
  if !Text.startsWith entry hexMark then .ok false
  else match Utf8.firstSurrogates? entry with
    | some e => .error (.unencodable e)
    | none => .ok (isAddress entry)

example : (normalizeText (" 0XAbC1\n" : Text)).toOption = some (Text.ofString "0xabc1") := by decide

example : (normalizeText ("QmYw\u212A" : Text)).toOption = some (Text.ofString "qmyw\u212A") := by
  decide

example : (normalizeText ("0x" : Text)).toOption = some (Text.ofString "0x") := by decide

end AdmissionControl.Identifier
