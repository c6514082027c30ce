import AdmissionControl.Audit
import AdmissionControl.Text.Upper

/-!
# Loggers

A logger records the calls of a program on a trail.  Its threshold has a name, and so has every
method; a call hands over an event and fields by name.

* `Threshold.named` finds a threshold, whatever the case of its name.
* `Logger.call` is one call.  It is a fault if there is no such method, or if a field has the name
  of an argument; a method below the threshold records nothing.
-/

namespace AdmissionControl

namespace Threshold

/-- What is found under a name.  Two of the names belong to something that is no threshold. -/
def table : List (Text × Except Fault Threshold) := [
  ("NOTSET", .ok .everything), ("DEBUG", .ok (.atLeast .debug)), ("INFO", .ok (.atLeast .info)),
  ("WARN", .ok (.atLeast .warning)), ("WARNING", .ok (.atLeast .warning)),
  ("ERROR", .ok (.atLeast .error)), ("FATAL", .ok (.atLeast .critical)),
  ("CRITICAL", .ok (.atLeast .critical)),
  ("BASIC_FORMAT", .error (.missingKey "%(levelname)s:%(name)s:%(message)s")),
  ("_STYLES", .error (.unhashable "dict"))]

/-- The threshold of the given name; case does not matter. -/
def named (name : Text) : Except Fault Threshold :=
  let capitals := Text.upper name
  (table.lookup capitals).getD (.error (.unknownLevel capitals))

/-- The name of the logger with a threshold, as its faults give it. -/
def loggerName (t : Threshold) : Text :=
  "BoundLoggerFilteringAt" ++ match t with
    | everything => ("Notset" : Text)
    | atLeast .debug => "Debug"
    | atLeast .info => "Info"
    | atLeast .warning => "Warning"
    | atLeast .error => "Error"
    | atLeast .critical => "Critical"

end Threshold

namespace Logger

/-- What a method does. -/
inductive Work
  | record (level : Level)
  /-- Records an error and asks for a trace. -/
  | exception
  /-- Records at the level that stands in front of the event. -/
  | anyLevel
deriving DecidableEq, Repr

structure Method where
  work : Work
  /-- Nothing is done before the result is awaited. -/
  deferred : Bool
deriving DecidableEq, Repr

def works : List (Text × Work) := [
  ("debug", .record .debug), ("info", .record .info), ("msg", .record .info),
  ("warn", .record .warning), ("warning", .record .warning), ("error", .record .error),
  ("critical", .record .critical), ("fatal", .record .critical), ("exception", .exception),
  ("log", .anyLevel)]

/-- A method by name; an `a` in front of a name defers its work. -/
def method? (name : Text) : Option Method :=
  match works.lookup name, name with
  | some work, _ => some ⟨work, false⟩
  | none, c :: rest => if c = 'a' then (works.lookup rest).map (⟨·, true⟩) else none
  | none, [] => none

/-- The name of a function with the mark of those that defer their work. -/
def marked (outer : Text) (deferred : Bool) (name : Text) : Text :=
  outer ++ (if deferred then ("a" : Text) else []) ++ name

/-- The function behind a method under a threshold, as faults name it. -/
def functionName (threshold : Threshold) (m : Method) : Text :=
  match m.work with
  | .record level =>
    if threshold.admits level then
      marked "_make_filtering_bound_logger.<locals>.make_method.<locals>." m.deferred "meth"
    else marked "_" m.deferred "nop"
  | .exception => marked [] m.deferred "exception"
  | .anyLevel => marked "_make_filtering_bound_logger.<locals>." m.deferred "log"

def eventName : Text := "event"

/-- The arguments that a call gives by place. -/
def arguments : Work → List Text
  | .anyLevel => ["self", "level"]
  | _ => ["self", eventName]

/-- The first field that has the name of an argument. -/
def repeated? (arguments : List Text) (fields : Fields) : Option Text :=
  (fields.find? fun f => arguments.contains f.1).map (·.1)

/-- Checks that a call hands over every argument once. -/
def checkArguments (threshold : Threshold) (m : Method) (fields : Fields) : Except Fault Unit :=
  match repeated? (arguments m.work) fields with
  | some name => .error (.repeatedArgument (functionName threshold m) name)
  | none =>
    if m.work == .anyLevel && (fields.lookup eventName).isNone then
      .error (.missingArgument (functionName threshold m) eventName)
    else .ok ()

/-- The function that records, and the argument that only it has. -/
def recorder : Text := "BoundLoggerBase._proxy_to_logger"
def recorderArgument : Text := "method_name"

/-- Records at a level that the threshold admits. -/
def record (threshold : Threshold) (level : Level) (event : Json.Value) (fields : Fields) :
    Audited Fault Unit := do
  if threshold.admits level then
    if (repeated? [recorderArgument] fields).isSome then
      throw (.repeatedArgument recorder recorderArgument)
    modify fun t => t.add level event fields

/-- A call of the method with a name. -/
def call (threshold : Threshold) (name : Text) (event : Json.Value) (fields : Fields) :
    Audited Fault Unit := do
  match method? name with
  | none => throw (.noSuchMethod threshold.loggerName name)
  | some m =>
    liftM (checkArguments threshold m fields)
    if !m.deferred then
      match m.work with
      | .record level => record threshold level event fields
      | .exception => record threshold .error event fields
      | .anyLevel => throw (.incomparable "str" "int")

example : (Threshold.named "wArn").toOption = some (.atLeast .warning) := by decide +kernel

end Logger

end AdmissionControl
