import AdmissionControl.Bytes.Base64
import AdmissionControl.Text.Lower
import AdmissionControl.Yaml.Node
import AdmissionControl.Yaml.SetOrder

/-!
# Documents

A document gives every node of a graph its object: the value of a scalar, or a collection whose
members are nodes again.  Collections are filled in the order in which they are met, those of the
next level after all of this one, so that a collection may contain itself.

* `scalarValue?` is how a scalar has its value, by its tag.
* `flatten` replaces the merge marks of a mapping by the members that they stand for.
* `Document.ofInput?` reads an input; none if it holds no document.
* `Document.value` writes an object out; where it meets itself again it leaves a loop.
-/

namespace AdmissionControl.Yaml

/-! ### Values of scalars -/

def boolValue (text : Text) : Except Error Value :=
  let word := Text.lower text
  if (["yes", "true", "on"] : List Text).contains word then .ok (.bool true)
  else if (["no", "false", "off"] : List Text).contains word then .ok (.bool false)
  else .error (.fault (.missingKey word))

def readNumber (base : Nat) (literal : Text) : Except Error Int :=
  match Numeral.readInteger base literal with
  | .ok n => .ok n
  | .error .malformed => .error (.fault (.notAnInteger base literal))
  | .error (.tooManyDigits count) => .error (.fault (.tooManyDigits count))

def readNumbers : List Text → Except Error (List Int)
  | [] => .ok []
  | part :: rest => do
    let n ← readNumber 10 part
    let ns ← readNumbers rest
    return n :: ns

/-- Numbers in base sixty, the highest first. -/
def ofSixties (numbers : List Int) : Int := numbers.foldl (fun n d => n * 60 + d) 0

/-- The sign of a literal and the literal without it; an empty literal is a fault. -/
def splitLiteralSign (literal : Text) : Except Error (Bool × Text) :=
  match literal with
  | [] => .error (.fault .emptyNumber)
  | c :: rest => .ok (c == '-', if c = '-' ∨ c = '+' then rest else literal)

def intValue (text : Text) : Except Error Value := do
  let (negative, body) ← splitLiteralSign (Text.without '_' text)
  let signed (n : Int) : Value := .integer (if negative then -n else n)
  match body with
  | [] => throw (.fault .emptyNumber)
  | c :: _ =>
    if body = "0" then return .integer 0
    else if Text.startsWith body "0b" then return signed (← readNumber 2 (body.drop 2))
    else if Text.startsWith body "0x" then return signed (← readNumber 16 (body.drop 2))
    else if c = '0' then return signed (← readNumber 8 body)
    else if body.contains (':' : CodePoint) then
      return signed (ofSixties (← readNumbers (Text.splitOn ':' body)))
    else return signed (← readNumber 10 body)

def readDecimal (literal : Text) : Except Error Binary64 :=
  match Numeral.readDecimal? literal with
  | some (.finite negative digits power) => .ok (.ofDecimal negative digits power)
  | some (.infinite negative) => .ok (.infinite negative)
  | some .nan => .ok .nan
  | none => .error (.fault (.notADecimal literal))

def readDecimals : List Text → Except Error (List Binary64)
  | [] => .ok []
  | part :: rest => do
    let x ← readDecimal part
    let xs ← readDecimals rest
    return x :: xs

/-- An integer as the nearest double-precision number, which must not be infinite. -/
def nearestDecimal (n : Int) : Except Error Binary64 :=
  match Binary64.ofInt n with
  | .infinite _ => .error (.fault .integerTooLarge)
  | x => .ok x

/-- The sum of numbers times powers of sixty, the lowest first. -/
def sumSixties (base : Int) (sum : Binary64) : List Binary64 → Except Error Binary64
  | [] => .ok sum
  | x :: rest => do
    let weight ← nearestDecimal base
    sumSixties (base * 60) (sum.add (x.mul weight)) rest

/-- The body of a decimal literal: small letters, without underscores and sign. -/
def decimalBody (text : Text) : Except Error (Bool × Text) :=
  splitLiteralSign (Text.lower (Text.without '_' text))

/-- The body that stands for the one not-a-number which all texts with it share. -/
def sharedNan : Text := ".nan"

def floatValue (text : Text) : Except Error Value := do
  let (negative, body) ← decimalBody text
  let signed (x : Binary64) : Value := .decimal (if negative then x.neg else x)
  if body = ".inf" then return signed (.infinite false)
  else if body = sharedNan then return .decimal .nan
  else if body.contains (':' : CodePoint) then
    let parts ← readDecimals (Text.splitOn ':' body)
    return signed (← sumSixties 1 (.finite false 0 Binary64.minExponent) parts.reverse)
  else return signed (← readDecimal body)

def binaryValue (text : Text) : Except Error Value :=
  if text.any (0x7F < ·.val) then .error (.malformed "binary data is not ASCII")
  else match Base64.decode? text with
    | some bytes => .ok (.bytes bytes)
    | none => .error (.malformed "binary data is incomplete")

def number (digits : Text) : Nat := Numeral.ofDigits 10 (digits.filterMap CodePoint.digitValue?)

/-- Six digits of a fraction. -/
def microseconds (fraction : Text) : Nat :=
  number ((fraction ++ List.replicate 6 ('0' : CodePoint)).take 6)

def zoneOffset : Option (Option (Bool × Text × Text)) → Except Error (Option Offset)
  | none => .ok none
  | some none => .ok (some .zero)
  | some (some (negative, hours, minutes)) =>
    let size : Int := number hours * 60 + number minutes
    let minutes := if negative then -size else size
    match Offset.ofMinutes? minutes with
    | some o => .ok (some o)
    | none => .error (.fault (.offset (minutes / 1440) ((minutes % 1440).toNat * 60)))

def timestampValue (text : Text) : Except Error Value := do
  match timestampParts? text with
  | none => throw (.fault .notATimestamp)
  | some parts =>
    let year := number parts.year
    let month := number parts.month
    let day := number parts.day
    match parts.time with
    | none =>
      match Date.make? year month day with
      | .ok d => return .date d
      | .error e => throw (.fault (.date e))
    | some (hour, minute, second, fraction) =>
      let offset ← zoneOffset parts.zone
      match DateTime.make? year month day (number hour) (number minute) (number second)
          (microseconds fraction) offset with
      | .ok t => return .dateTime t
      | .error e => throw (.fault (.date e))

/-- How a scalar of a type has its value from its text. -/
def scalarValue? : Tag → Option (Text → Except Error Value)
  | .null => some fun _ => .ok .none
  | .bool => some boolValue
  | .integer => some intValue
  | .decimal => some floatValue
  | .binary => some binaryValue
  | .timestamp => some timestampValue
  | .text => some fun text => .ok (.text text)
  | _ => none

/-- The kinds of collections. -/
inductive Shape
  | list
  | pairs
  | set
  | dict
deriving DecidableEq, Repr

def shape? : Tag → Option Shape
  | .sequence => some .list
  | .omap | .pairs => some .pairs
  | .set => some .set
  | .mapping => some .dict
  | _ => none

def tagOf (g : Graph) (id : NodeId) : Tag := ((g.node? id).map (·.tag)).getD (.other [])

/-- The text of a scalar.  A mapping with a value mark stands for the scalar under that mark. -/
def scalarText (g : Graph) (fuel : Nat) (id : NodeId) : Except Error Text :=
  match fuel with
  | 0 => .error (.fault .yamlTooDeep)
  | fuel + 1 =>
    match g.node? id with
    | some ⟨_, .scalar text⟩ => .ok text
    | some ⟨_, .mapping members⟩ =>
      match members.find? fun m => tagOf g m.1 == .value with
      | some m => scalarText g fuel m.2
      | none => .error (.malformed "a scalar is expected")
    | _ => .error (.malformed "a scalar is expected")

/-! ### Merging -/

def members (g : Graph) (id : NodeId) : List (NodeId × NodeId) :=
  match g.node? id with
  | some ⟨_, .mapping members⟩ => members
  | _ => []

def setMembers (g : Graph) (id : NodeId) (members : List (NodeId × NodeId)) : Graph :=
  match g.node? id with
  | some node => g.setNode id { node with content := .mapping members }
  | none => g

def isMapping (g : Graph) (id : NodeId) : Bool :=
  match g.node? id with
  | some ⟨_, .mapping _⟩ => true
  | _ => false

def retag (g : Graph) (id : NodeId) (tag : Tag) : Graph :=
  match g.node? id with
  | some node => g.setNode id { node with tag := tag }
  | none => g

/-- Whether a node is the mark whose value is merged into the mapping that it stands in. -/
def isMergeMark (g : Graph) (id : NodeId) : Bool := tagOf g id == .merge

/-- The number of merge marks in a graph. -/
def mergeMarks (g : Graph) : Nat :=
  g.nodes.foldl (fun n node => n + match node.content with
    | .mapping members => members.countP fun m => isMergeMark g m.1
    | _ => 0) 0

/-- The value of the first merge mark among the members, and the other members. -/
def takeMark? (g : Graph) : List (NodeId × NodeId) → Option (NodeId × List (NodeId × NodeId))
  | [] => none
  | m :: rest =>
    if isMergeMark g m.1 then some (m.2, rest)
    else (takeMark? g rest).map fun (value, others) => (value, m :: others)

/-- Makes texts of the value marks among the keys. -/
def settleValueMarks (g : Graph) (members : List (NodeId × NodeId)) : Graph :=
  members.foldl (fun g m => if tagOf g m.1 = .value then retag g m.1 .text else g) g

/-- The members of mappings, of which a later one comes first. -/
def mergedItems (flatten : Graph → NodeId → Except Error Graph) (g : Graph)
    (done : List (NodeId × NodeId)) :
    List NodeId → Except Error (Graph × List (NodeId × NodeId))
  | [] => .ok (g, done)
  | item :: rest =>
    if isMapping g item then
      match flatten g item with
      | .error e => .error e
      | .ok g => mergedItems flatten g (members g item ++ done) rest
    else .error (.malformed "a merge mark stands for no mapping")

/-- What a merge mark with a value stands for: the members of one mapping or of several. -/
def mergedMembers (flatten : Graph → NodeId → Except Error Graph) (g : Graph) (value : NodeId) :
    Except Error (Graph × List (NodeId × NodeId)) :=
  match g.node? value with
  | some ⟨_, .sequence items⟩ => mergedItems flatten g [] items
  | _ => mergedItems flatten g [] [value]

/-- Takes out the merge marks of a mapping, one after the other, and puts what they stand for in
front of the other members.  `merged` is what was merged so far, the last one first.  Every mark is
taken out before its value is looked at, so their number bounds the fuel. -/
def flattenFrom (fuel depth : Nat) (g : Graph) (id : NodeId)
    (merged : List (List (NodeId × NodeId))) : Except Error Graph :=
  match fuel, depth with
  | 0, _ | _, 0 => .error (.fault .yamlTooDeep)
  | fuel + 1, depth + 1 =>
    match takeMark? g (members g id) with
    | none =>
      let g := settleValueMarks g (members g id)
      .ok (if merged.isEmpty then g else setMembers g id (merged.reverse.flatten ++ members g id))
    | some (value, others) => do
      let (g, more) ←
        mergedMembers (fun g id => flattenFrom fuel depth g id []) (setMembers g id others) value
      flattenFrom fuel (depth + 1) g id (more :: merged)

def flatten [Limits] (g : Graph) (id : NodeId) : Except Error Graph :=
  flattenFrom (mergeMarks g + 1) Limits.merge g id []

/-! ### Objects -/

inductive Object
  | scalar (value : Value)
  | list (items : List NodeId)
  | pairs (items : List (NodeId × NodeId))
  | set (keys : List Value)
  | dict (members : List (Value × NodeId))
deriving Repr, Inhabited

structure Document where
  graph : Graph
  /-- The object of every node that was met. -/
  objects : Array (Option Object)
  /-- Collections that are still to be filled, the last one met first. -/
  waiting : List (NodeId × Shape)

namespace Document

def object? (d : Document) (id : NodeId) : Option Object := (d.objects[id]?).join

def setObject (d : Document) (id : NodeId) (object : Object) : Document :=
  { d with objects := d.objects.setIfInBounds id (some object) }

/-- A collection without its members. -/
def emptyObject : Shape → Object
  | .list => .list []
  | .pairs => .pairs []
  | .set => .set []
  | .dict => .dict []

/-- Meets a node: a scalar gets its value, a collection is put on the waiting list.  A mapping
cannot stand for a timestamp, even if a text is found under its value mark. -/
def meet (d : Document) (id : NodeId) : Except Error Document :=
  if (d.object? id).isSome then .ok d
  else
    let tag := tagOf d.graph id
    match scalarValue? tag, shape? tag with
    | some ofText, _ => do
      let text ← scalarText d.graph (d.graph.nodes.size + 1) id
      if tag = .timestamp && isMapping d.graph id then throw (.fault (.notText "list"))
      let value ← ofText text
      return d.setObject id (.scalar value)
    | none, some shape =>
      .ok { d.setObject id (emptyObject shape) with waiting := (id, shape) :: d.waiting }
    | none, none => .error (.malformed "a tag is unknown")

/-- Meets a node that is a key, which must be a scalar. -/
def meetKey (d : Document) (id : NodeId) : Except Error (Document × Value) := do
  let d ← d.meet id
  match d.object? id with
  | some (.scalar value) => return (d, value)
  | _ => throw (.malformed "a collection is used as a key")

def meetAll (d : Document) : List NodeId → Except Error Document
  | [] => .ok d
  | id :: rest => do
    let d ← d.meet id
    d.meetAll rest

/-- A key of a mapping.  A not-a-number is the same key only where it comes from the same node, or
where both are written as the shared one, which has no origin. -/
structure Key where
  value : Value
  origin : Option NodeId

def Key.same (k l : Key) : Bool :=
  match k.value, l.value with
  | .decimal .nan, .decimal .nan => k.origin == l.origin
  | v, w => v.same w

/-- The origin of a key, which the node with its text is. -/
def keyOrigin? (d : Document) (id : NodeId) : Option NodeId :=
  match scalarText d.graph (d.graph.nodes.size + 1) id with
  | .ok text =>
    match decimalBody text with
    | .ok (_, body) => if body = sharedNan then none else some id
    | .error _ => some id
  | .error _ => some id

/-- A value as the key that a node writes. -/
def keyOf (d : Document) (id : NodeId) (value : Value) : Key :=
  match value with
  | .decimal .nan => ⟨value, d.keyOrigin? id⟩
  | _ => ⟨value, none⟩

/-- Sets the member of a key: the place and the spelling of the first equal key are kept. -/
def putMember (key : Key) (id : NodeId) : List (Key × NodeId) → List (Key × NodeId)
  | [] => [(key, id)]
  | (k, other) :: rest =>
    if k.same key then (k, id) :: rest else (k, other) :: putMember key id rest

def meetMembers (d : Document) (done : List (Key × NodeId)) :
    List (NodeId × NodeId) → Except Error (Document × List (Key × NodeId))
  | [] => .ok (d, done)
  | (key, value) :: rest => do
    let (d, k) ← d.meetKey key
    let d ← d.meet value
    d.meetMembers (putMember (d.keyOf key k) value done) rest

/-- The members of a mapping node, merge marks replaced. -/
def meetMapping [Limits] (d : Document) (id : NodeId) :
    Except Error (Document × List (Value × NodeId)) :=
  if !isMapping d.graph id then .error (.malformed "a mapping is expected")
  else do
    let graph ← flatten d.graph id
    let (d, members) ← meetMembers { d with graph := graph } [] (members graph id)
    return (d, members.map fun m => (m.1.value, m.2))

def sequenceItems (g : Graph) (id : NodeId) : Except Error (List NodeId) :=
  match g.node? id with
  | some ⟨_, .sequence items⟩ => .ok items
  | _ => .error (.malformed "a sequence is expected")

def meetPairs (d : Document) (done : List (NodeId × NodeId)) :
    List NodeId → Except Error (Document × List (NodeId × NodeId))
  | [] => .ok (d, done.reverse)
  | item :: rest => do
    match d.graph.node? item with
    | some ⟨_, .mapping [(key, value)]⟩ =>
      let d ← d.meet key
      let d ← d.meet value
      d.meetPairs ((key, value) :: done) rest
    | _ => throw (.malformed "a mapping of one member is expected")

/-- Fills a collection. -/
def fill [Limits] (d : Document) (id : NodeId) : Shape → Except Error Document
  | .list => do
    let items ← sequenceItems d.graph id
    let d ← d.meetAll items
    return d.setObject id (.list items)
  | .pairs => do
    let items ← sequenceItems d.graph id
    let (d, pairs) ← d.meetPairs [] items
    return d.setObject id (.pairs pairs)
  | .set => do
    let (d, members) ← d.meetMapping id
    return d.setObject id (.set (inSetOrder (members.map (·.1))))
  | .dict => do
    let (d, members) ← d.meetMapping id
    return d.setObject id (.dict members)

def fillAll [Limits] (d : Document) : List (NodeId × Shape) → Except Error Document
  | [] => .ok d
  | (id, shape) :: rest => do
    let d ← d.fill id shape
    d.fillAll rest

/-- Fills level after level until nothing waits. -/
def fillLevels [Limits] (fuel : Nat) (d : Document) : Except Error Document :=
  match fuel with
  | 0 => .ok d
  | fuel + 1 =>
    if d.waiting.isEmpty then .ok d
    else do
      let d ← fillAll { d with waiting := [] } d.waiting.reverse
      fillLevels fuel d

def ofGraph? [Limits] (g : Graph) : Except Error Document := do
  let d : Document := ⟨g, Array.replicate g.nodes.size none, []⟩
  let d ← d.meet g.root
  d.fillLevels (g.nodes.size + 1)

/-- Reads an input; none if it holds no document. -/
def ofInput? [Limits] (input : Input) : Except Error (Option Document) := do
  let (tokens, failure) := tokens input
  match ← Graph.ofTokens? tokens failure with
  | none => return none
  | some g =>
    let d ← ofGraph? g
    return some d

/-! ### Writing out -/

/-- An object written out; the flag says whether a loop is in it. -/
structure Written where
  value : Value
  loops : Bool

/-- The objects that were written out and hold no loop.  Such an object looks the same in every
place, so it is written once. -/
abbrev Sheet := StateM (Array (Option Value))

/-- Puts an object without loops on the sheet. -/
def keep (id : NodeId) (value : Value) (loops : Bool) : Sheet Written := do
  if !loops then modify fun sheet => sheet.setIfInBounds id (some value)
  return ⟨value, loops⟩

/-- A pair as a tuple. -/
def Written.pair (key value : Written) : Written :=
  ⟨.tuple [key.value, value.value], key.loops || value.loops⟩

/-- An object written out, in a place that lies inside the given ones. -/
def valueWithin (d : Document) (fuel : Nat) (outer : List NodeId) (id : NodeId) : Sheet Written :=
  match fuel with
  | 0 => return ⟨.none, false⟩
  | fuel + 1 => do
    match ((← get)[id]?).join, d.object? id with
    | some value, _ => return ⟨value, false⟩
    | none, none => return ⟨.none, false⟩
    | none, some (.scalar value) => return ⟨value, false⟩
    | none, some (.set keys) => return ⟨.set keys, false⟩
    | none, some (.list items) =>
      if outer.contains id then return ⟨.loop true, true⟩
      else
        let parts ← items.mapM (valueWithin d fuel (id :: outer))
        keep id (.list (parts.map (·.value))) (parts.any (·.loops))
    | none, some (.pairs items) =>
      if outer.contains id then return ⟨.loop true, true⟩
      else
        let parts ← items.mapM fun m =>
          return Written.pair (← valueWithin d fuel (id :: outer) m.1)
            (← valueWithin d fuel (id :: outer) m.2)
        keep id (.list (parts.map (·.value))) (parts.any (·.loops))
    | none, some (.dict members) =>
      if outer.contains id then return ⟨.loop false, true⟩
      else
        let parts ← members.mapM fun m => valueWithin d fuel (id :: outer) m.2
        keep id (.dict ((members.map (·.1)).zip (parts.map (·.value)))) (parts.any (·.loops))

def value (d : Document) (id : NodeId) : Value :=
  ((d.valueWithin (d.objects.size + 1) [] id).run (Array.replicate d.objects.size none)).1.value

/-- The members of a mapping whose keys are texts that are wanted; of a member only what `write`
makes of it. -/
def select (d : Document) (id : NodeId) (wanted : List Text) (write : Text → NodeId → Value) :
    Value :=
  match d.object? id with
  | some (.dict members) =>
    .dict (members.filterMap fun m =>
      match m.1 with
      | .text name => if wanted.contains name then some (.text name, write name m.2) else none
      | _ => none)
  | _ => d.value id

end Document

end AdmissionControl.Yaml
