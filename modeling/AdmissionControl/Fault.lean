import AdmissionControl.Bytes.Utf8
import AdmissionControl.Calendar
import AdmissionControl.Json.Parser
import AdmissionControl.Numeral.Integer

/-!
# Faults

A fault is an error that no rule of admission control foresees: a text that cannot be encoded, a
number out of range, a call out of turn.  It is not a refusal of a source or of an identifier; it
ends the operation and reaches the caller as it is.  `Fault.kind` names its class for the audit
trail and `Fault.message` words it.
-/

namespace AdmissionControl

inductive Fault
  | unencodable (e : Utf8.EncodeError)
  | undecodable (e : Utf8.DecodeError)
  | nullByte
  | notAnInteger (base : Nat) (literal : Text)
  | notADecimal (literal : Text)
  /-- A decimal integer with too many digits was read. -/
  | tooManyDigits (count : Nat)
  /-- An integer with too many digits was to be written. -/
  | tooLongToWrite
  | noSuchCodePoint
  | codePointTooLarge
  /-- An integer beyond the greatest double-precision number was to become one. -/
  | integerTooLarge
  | date (e : Calendar.RangeError)
  /-- An offset of a day or more, in days and the seconds that remain. -/
  | offset (days : Int) (seconds : Nat)
  | notATimestamp
  /-- A value of the given kind stands where a text is searched for a form. -/
  | notText (kind : Text)
  | missingKey (key : Text)
  | emptyNumber
  | unhashable (kind : Text)
  | unsupportedSource (kind : Text)
  | unknownOperation (name : Text)
  | unknownLevel (name : Text)
  /-- A logger has no method of the name. -/
  | noSuchMethod (logger name : Text)
  /-- An argument of a call is given by place and by name. -/
  | repeatedArgument (function name : Text)
  | missingArgument (function name : Text)
  /-- Values of two types without an order were compared. -/
  | incomparable (left right : Text)
  | missingState (name : Text)
  | alreadyRunning
  | jsonTooDeep (container : Json.Container)
  | yamlTooDeep
  | literalTooDeep
deriving DecidableEq, Repr

namespace Fault

def kind : Fault → Text
  | unencodable _ => "UnicodeEncodeError"
  | undecodable _ => "UnicodeDecodeError"
  | nullByte | notAnInteger .. | notADecimal _ | tooManyDigits _ | tooLongToWrite
  | noSuchCodePoint | date _ | offset .. | unknownOperation _ => "ValueError"
  | codePointTooLarge | integerTooLarge => "OverflowError"
  | missingKey _ => "KeyError"
  | emptyNumber => "IndexError"
  | unhashable _ | unsupportedSource _ | repeatedArgument .. | missingArgument ..
  | incomparable .. | notText _ => "TypeError"
  | notATimestamp | unknownLevel _ | noSuchMethod .. | missingState _ => "AttributeError"
  | alreadyRunning => "RuntimeError"
  | jsonTooDeep _ | yamlTooDeep | literalTooDeep => "RecursionError"

/-- Longest part of a quoted literal that a message repeats. -/
def quotedLimit : Nat := 200

def digitLimitMessage (detail : Text) : Text :=
  "Exceeds the limit (" ++ Text.ofNat Numeral.maxDigits ++
    " digits) for integer string conversion" ++ detail ++
    "; use sys.set_int_max_str_digits() to increase the limit"

/-- Days and seconds of a distance in time. -/
def distance (days : Int) (seconds : Nat) : Text :=
  let parts := (if days = 0 then [] else [("days=" : Text) ++ Text.ofInt days]) ++
    (if seconds = 0 then [] else [("seconds=" : Text) ++ Text.ofNat seconds])
  "datetime.timedelta(" ++ (if parts.isEmpty then ("0" : Text) else Text.joinWith ", " parts) ++ ")"

def message : Fault → Text
  | unencodable e => e.message
  | undecodable e => e.message
  | nullByte => "embedded null byte"
  | notAnInteger base literal =>
    "invalid literal for int() with base " ++ Text.ofNat base ++ ": " ++
      (Text.quoted literal).take quotedLimit
  | notADecimal literal => "could not convert string to float: " ++ Text.quoted literal
  | tooManyDigits count => digitLimitMessage (": value has " ++ Text.ofNat count ++ " digits")
  | tooLongToWrite => digitLimitMessage []
  | noSuchCodePoint => "chr() arg not in range(0x110000)"
  | codePointTooLarge => "Python int too large to convert to C int"
  | integerTooLarge => "int too large to convert to float"
  | date e => e.message
  | offset days seconds =>
    "offset must be a timedelta strictly between -timedelta(hours=24) and timedelta(hours=24), " ++
      "not " ++ distance days seconds ++ "."
  | notATimestamp => "'NoneType' object has no attribute 'groupdict'"
  | notText kind => "expected string or bytes-like object, got '" ++ kind ++ "'"
  | missingKey key => Text.quoted key
  | emptyNumber => "string index out of range"
  | unhashable kind => "unhashable type: '" ++ kind ++ "'"
  | unsupportedSource kind => "Unsupported loader config: " ++ kind
  | unknownOperation name => Text.quoted name ++ " is not a valid GatedOperation"
  | unknownLevel name => "module 'logging' has no attribute '" ++ name ++ "'"
  | noSuchMethod logger name => "'" ++ logger ++ "' object has no attribute '" ++ name ++ "'"
  | repeatedArgument function name =>
    function ++ "() got multiple values for argument '" ++ name ++ "'"
  | missingArgument function name =>
    function ++ "() missing 1 required positional argument: '" ++ name ++ "'"
  | incomparable left right =>
    "'<' not supported between instances of '" ++ left ++ "' and '" ++ right ++ "'"
  | missingState name => "'State' object has no attribute '" ++ name ++ "'"
  | alreadyRunning => "Allowlist reloader is already running"
  | jsonTooDeep .array =>
    "maximum recursion depth exceeded while decoding a JSON array from a unicode string"
  | jsonTooDeep .object =>
    "maximum recursion depth exceeded while decoding a JSON object from a unicode string"
  | yamlTooDeep => "maximum recursion depth exceeded"
  | literalTooDeep => "maximum recursion depth exceeded while getting the repr of an object"

end Fault

end AdmissionControl
