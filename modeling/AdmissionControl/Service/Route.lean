import AdmissionControl.Admission
import AdmissionControl.Reload.Watcher

/-!
# Routes

A route is a template of paths with the methods that it answers and an endpoint.  The parts of a
template are literal texts, parameters that stand for one segment, and parameters that stand for any
stretch of the path.

* `Template.match?` answers the values of the parameters, each as long as what follows allows.  A
  stretch holds no line end; one line end at the very end of a path is not part of anything.
* `find` picks the route for a path and a method.
-/

namespace AdmissionControl.Service

inductive Part
  | literal (text : Text)
  /-- A segment that is not empty. -/
  | segment (name : Text)
  /-- Any stretch of the path, slashes included. -/
  | rest (name : Text)
deriving DecidableEq, Repr

abbrev Template := List Part

/-- Values of parameters by name. -/
abbrev Parameters := List (Text × Text)

/-- A text without the line end at its very end. -/
def dropFinalBreak (s : Text) : Text :=
  if s.getLast? = some ('\n' : CodePoint) then s.dropLast else s

/-- The longest value at the start of a path, of characters that are `allowed`, for which what
follows it has an answer. -/
def longestBefore {α : Type} (allowed : CodePoint → Bool) (next : Text → Option α) :
    Text → Option (Text × α)
  | [] => (next []).map ([], ·)
  | c :: tail =>
    let longer := if allowed c then longestBefore allowed next tail else none
    match longer with
    | some (value, answer) => some (c :: value, answer)
    | none => (next (c :: tail)).map ([], ·)

def Template.match? (template : Template) (path : Text) : Option Parameters :=
  match template with
  | [] => if (dropFinalBreak path).isEmpty then some [] else none
  | .literal text :: parts =>
    match Text.dropStart? path text with
    | some tail => match? parts tail
    | none => none
  | .segment name :: parts =>
    match longestBefore (· ≠ Path.slash) (match? parts) path with
    | some (value, more) => if value.isEmpty then none else some ((name, value) :: more)
    | none => none
  | .rest name :: parts =>
    match longestBefore (· ≠ ('\n' : CodePoint)) (match? parts) path with
    | some (value, more) => some ((name, value) :: more)
    | none => none

/-- What a route leads to. -/
inductive Endpoint
  | health
  | status
  | check
  | admission
  /-- A route of the host that runs only if its deployment is admitted; the function answers for
  the host. -/
  | guarded (operation : Operation) (run : Option Text → Json.Value)
  /-- A page that describes the service. -/
  | page

structure Route where
  methods : List Text
  template : Template
  endpoint : Endpoint

def identifierName : Text := "identifier"
def operationName : Text := "operation"
def deploymentName : Text := "deployment"

def ownRoutes : List Route := [
  ⟨["GET"], [.literal "/health"], .health⟩,
  ⟨["GET"], [.literal "/allowlist"], .status⟩,
  ⟨["GET"], [.literal "/allowlist/check/", .rest identifierName], .check⟩,
  ⟨["POST"], [.literal "/admission/", .segment operationName, .literal "/", .rest identifierName],
    .admission⟩]

/-- The pages that describe the service. -/
def pagePaths : List Text := ["/openapi.json", "/docs", "/docs/oauth2-redirect", "/redoc"]

def pageRoutes : List Route := pagePaths.map fun path => ⟨["GET", "HEAD"], [.literal path], .page⟩

/-- A route of the host under the given path, guarded for an operation. -/
def guardedRoute (template : Template) (operation : Operation) (run : Option Text → Json.Value) :
    Route :=
  ⟨["POST"], template, .guarded operation run⟩

/-- How routes answer to a path and a method. -/
inductive Match
  | full (route : Route) (parameters : Parameters)
  /-- The path is known, but not for this method. -/
  | wrongMethod (route : Route)
  | none

def find (routes : List Route) (method path : Text) : Match :=
  let hits := routes.filterMap fun r => (r.template.match? path).map (r, ·)
  match hits.find? fun hit => hit.1.methods.contains method with
  | some (route, parameters) => .full route parameters
  | Option.none =>
    match hits with
    | (route, _) :: _ => .wrongMethod route
    | [] => .none

/-- The path with its slashes at the end removed, or with one added if it has none. -/
def otherSlash (path : Text) : Text :=
  if path.getLast? = some Path.slash then Path.dropTrailingSlashes path else path ++ [Path.slash]

/-- Whether a path that is not known becomes known with or without a slash at its end. -/
def redirects (routes : List Route) (path : Text) : Bool :=
  path ≠ [Path.slash] && routes.any fun r => (r.template.match? (otherSlash path)).isSome

end AdmissionControl.Service
