import AdmissionControl.Fault

/-!
# The audit trail

Decisions, loads and reloads leave records on a trail.  A trail has a threshold below which nothing
is recorded, and may be bound to an operation, whose identifier then stands on every record.

* `emit` appends a record; `withOperation` binds an operation for the time of one action.
* `Audited ε α` is an action that leaves records and may fail; the records stay if it fails.
-/

namespace AdmissionControl

inductive Level
  | debug
  | info
  | warning
  | error
  | critical
deriving DecidableEq, Repr

namespace Level

def name : Level → Text
  | debug => "debug"
  | info => "info"
  | warning => "warning"
  | error => "error"
  | critical => "critical"

def rank : Level → Nat
  | debug => 1
  | info => 2
  | warning => 3
  | error => 4
  | critical => 5

end Level

/-- What a trail records: everything, or what is at a level or above it. -/
inductive Threshold
  | everything
  | atLeast (level : Level)
deriving DecidableEq, Repr

def Threshold.admits : Threshold → Level → Bool
  | everything, _ => true
  | atLeast least, level => least.rank ≤ level.rank

/-- Fields of a record by name. -/
abbrev Fields := List (Text × Json.Value)

namespace Fields

/-- Fields whose names are literals. -/
def of (fields : List (String × Json.Value)) : Fields :=
  fields.map fun f => (Text.ofString f.1, f.2)

def without (name : Text) (fields : Fields) : Fields := fields.filter (·.1 ≠ name)

/-- Sets a field, in place of one of that name if there is one. -/
def set (name : Text) (value : Json.Value) (fields : Fields) : Fields :=
  without name fields ++ [(name, value)]

end Fields

structure Record where
  level : Level
  /-- What happened, in most records a text; null if that is not said. -/
  event : Json.Value
  fields : Fields
  operationId : Option Text
deriving Repr

namespace Record

/-- Fields that ask for a trace of the call; they are not part of a record. -/
def traceFields : List Text := ["exc_info", "stack_info"]

/-- The members of a record: the given fields, then the operation, the event and the level, which
replace fields of the same name. -/
def members (r : Record) : Fields :=
  let fields := r.fields.filter fun f => !traceFields.contains f.1
  let fields := match r.operationId with
    | some id => Fields.set "operation_id" (.string id) fields
    | none => fields
  let fields := match r.event with
    | .null => fields
    | event => Fields.set "event" event fields
  Fields.set "level" (.string r.level.name) fields

/-- The lines that a record takes on a console, where a text that happened stands as it is. -/
def consoleLines (r : Record) : Nat :=
  match r.event with
  | .string s => s.count ('\n' : CodePoint) + 1
  | _ => 1

def json (r : Record) : Json.Value := .object r.members

end Record

structure Trail where
  threshold : Threshold
  operation : Option Text
  records : List Record
deriving Repr

namespace Trail

/-- A trail with every level, no operation and no records. -/
def start : Trail := ⟨.everything, none, []⟩

/-- The operation that records name; an empty identifier names none. -/
def operationId (t : Trail) : Option Text := t.operation.filter (!·.isEmpty)

def add (t : Trail) (level : Level) (event : Json.Value) (fields : Fields) : Trail :=
  if t.threshold.admits level then
    { t with records := t.records ++ [⟨level, event, fields, t.operationId⟩] }
  else t

end Trail

abbrev Audited (ε α : Type) := ExceptT ε (StateM Trail) α

def emit (level : Level) (event : Text) (fields : List (String × Json.Value)) : StateM Trail Unit :=
  modify fun t => t.add level (.string event) (Fields.of fields)

/-- Runs an action bound to an operation; afterwards the trail is bound as it was before. -/
def withOperation {ε α : Type} (id : Text) (action : Audited ε α) : Audited ε α :=
  ExceptT.mk fun t =>
    let (result, after) := action.run.run { t with operation := some id }
    (result, { after with operation := t.operation })

/-- The result of an action that cannot end it, with the failure as a value. -/
def attempt {ε α : Type} (action : Audited ε α) : StateM Trail (Except ε α) := action.run

end AdmissionControl
