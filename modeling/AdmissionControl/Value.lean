import AdmissionControl.Fault
import AdmissionControl.Limits
import AdmissionControl.Numeral.Shortest
import AdmissionControl.Text.Quoted

/-!
# Values

A value is anything that a caller may hand in as an identifier or that a settings file may hold.

* `Value.kind` names the type of a value, `Value.literal` writes it as a literal, and
  `Value.display` writes it for a message, where a text stands without quotes.
* `Value.same` is equality of values as keys: a number equals another number of the same size,
  whatever their types are, and the truth values count as zero and one.
* An integer with more than `Numeral.maxDigits` digits has no literal.
-/

namespace AdmissionControl

inductive Value
  | none
  | bool (b : Bool)
  | integer (n : Int)
  | decimal (x : Binary64)
  | text (s : Text)
  | bytes (b : List UInt8)
  | date (d : Date)
  | dateTime (t : DateTime)
  | list (items : List Value)
  | tuple (items : List Value)
  | set (items : List Value)
  | dict (members : List (Value × Value))
  /-- A list, or else a mapping, that contains itself and is being written further out. -/
  | loop (ofList : Bool)
deriving Repr, Inhabited

namespace Value

instance : Coe Text Value := ⟨text⟩

def kind : Value → Text
  | none => "NoneType"
  | bool _ => "bool"
  | integer _ => "int"
  | decimal _ => "float"
  | text _ => "str"
  | bytes _ => "bytes"
  | date _ => "date"
  | dateTime _ => "datetime"
  | list _ => "list"
  | tuple _ => "tuple"
  | set _ => "set"
  | dict _ => "dict"
  | loop ofList => if ofList then "list" else "dict"

/-! ### Literals -/

def offsetLiteral (o : Offset) : Text :=
  if o.minutes = 0 then "datetime.timezone.utc"
  else
    "datetime.timezone(" ++
      Fault.distance (o.minutes / 1440) ((o.minutes % 1440).toNat * 60) ++ ")"

/-- The seconds are left out with the microseconds if both are zero. -/
def dateTimeLiteral (t : DateTime) : Text :=
  let fraction := if t.microsecond = 0 then [] else [t.microsecond]
  let seconds := if t.second = 0 ∧ t.microsecond = 0 then [] else t.second :: fraction
  let numbers := [t.date.year, t.date.month, t.date.day, t.hour, t.minute] ++ seconds
  let offset := match t.offset with
    | some o => [("tzinfo=" : Text) ++ offsetLiteral o]
    | .none => []
  "datetime.datetime(" ++ Text.joinWith ", " (numbers.map Text.ofNat ++ offset) ++ ")"

def integerLiteral (n : Int) : Except Fault Text :=
  match Numeral.writeInteger? n with
  | some s => .ok s
  | .none => .error .tooLongToWrite

def dateLiteral (d : Date) : Text :=
  "datetime.date(" ++ Text.joinWith ", " ([d.year, d.month, d.day].map Text.ofNat) ++ ")"

mutual

/-- The literal of a value in which containers nest at most as deep as given. -/
def literalWithin (depth : Nat) : Value → Except Fault Text
  | none => .ok "None"
  | bool b => .ok (if b then "True" else "False")
  | integer n => integerLiteral n
  | decimal x => .ok x.render
  | text s => .ok (Text.quoted s)
  | bytes b => .ok (Text.quotedBytes b)
  | date d => .ok (dateLiteral d)
  | dateTime t => .ok (dateTimeLiteral t)
  | list items => do
    let parts ← literalsWithin depth items
    return ("[" : Text) ++ Text.joinWith ", " parts ++ "]"
  | tuple items => do
    match ← literalsWithin depth items with
    | [part] => return ("(" : Text) ++ part ++ ",)"
    | parts => return ("(" : Text) ++ Text.joinWith ", " parts ++ ")"
  | set items => do
    match ← literalsWithin depth items with
    | [] => return "set()"
    | parts => return ("\x7b" : Text) ++ Text.joinWith ", " parts ++ "\x7d"
  | dict members => do
    let parts ← memberLiteralsWithin depth members
    return ("\x7b" : Text) ++ Text.joinWith ", " parts ++ "\x7d"
  | loop ofList => .ok (if ofList then "[...]" else "\x7b...\x7d")

/-- The literals of the items of a container. -/
def literalsWithin (depth : Nat) : List Value → Except Fault (List Text)
  | [] => .ok []
  | v :: rest =>
    match depth with
    | 0 => .error .literalTooDeep
    | depth + 1 => do
      let part ← literalWithin depth v
      let parts ← literalsWithin (depth + 1) rest
      return part :: parts

def memberLiteralsWithin (depth : Nat) : List (Value × Value) → Except Fault (List Text)
  | [] => .ok []
  | (k, v) :: rest =>
    match depth with
    | 0 => .error .literalTooDeep
    | depth + 1 => do
      let name ← literalWithin depth k
      let value ← literalWithin depth v
      let parts ← memberLiteralsWithin (depth + 1) rest
      return (name ++ ": " ++ value) :: parts

end

def literal [Limits] (v : Value) : Except Fault Text := literalWithin Limits.literal v

def display [Limits] : Value → Except Fault Text
  | text s => .ok s
  | date d => .ok d.iso
  | dateTime t => .ok (t.iso " ")
  | v => literal v

/-! ### Equality and members -/

/-- The integer that a number or truth value equals. -/
def asInteger? : Value → Option Int
  | bool b => some (if b then 1 else 0)
  | integer n => some n
  | decimal x => x.toInt?
  | _ => .none

/-- Equality of two values that can be keys; containers equal nothing. -/
def same (v w : Value) : Bool :=
  match v, w with
  | none, none => true
  | text s, text t => s == t
  | bytes b, bytes c => b == c
  | date d, date e => d == e
  | dateTime s, dateTime t => s.same t
  | decimal x, decimal y =>
    x != .nan && (x == y || (v.asInteger?.isSome && v.asInteger? == w.asInteger?))
  | v, w => v.asInteger?.isSome && v.asInteger? == w.asInteger?

/-- Sets the member of a key: the place and the spelling of the first equal key are kept. -/
def put (key value : Value) : List (Value × Value) → List (Value × Value)
  | [] => [(key, value)]
  | (k, v) :: rest => if k.same key then (k, value) :: rest else (k, v) :: put key value rest

/-- The mapping with the given members, of which a later one replaces an earlier one. -/
def dictOf (members : List (Value × Value)) : Value :=
  dict (members.foldl (fun done m => put m.1 m.2 done) [])

/-- The members of a mapping by a key that is a text. -/
def member? (name : Text) (members : List (Value × Value)) : Option Value :=
  (members.find? fun m => m.1.same (text name)).map (·.2)

example : same (integer 1) (bool true) = true := by decide

example : (literalWithin 1 (list [none, text ("a" : Text)])).toOption =
    some (Text.ofString "[None, 'a']") := by decide +kernel

end Value

end AdmissionControl
