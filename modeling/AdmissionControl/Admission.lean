import AdmissionControl.Decision

/-!
# Admission

Before it deploys, starts or queries, a host asks for admission.  Every admission has an operation
identifier, given by the caller or fresh, under which its decision is recorded: a permit at the
level debug, a denial as a warning.

* `requestAdmission` returns the permit or fails with the denial.
* `isAdmitted` answers the same as a yes or no.
-/

namespace AdmissionControl

inductive Operation
  | deploy
  | start
  | query
deriving DecidableEq, Repr

namespace Operation

def name : Operation → Text
  | deploy => "deploy"
  | start => "start"
  | query => "query"

def all : List Operation := [deploy, start, query]

def ofName? (name : Text) : Option Operation := all.find? fun o => o.name = name

theorem ofName?_name (o : Operation) : ofName? o.name = some o := by
  cases o <;> decide

/-- The operation of a name; any other name is a fault. -/
def ofName (name : Text) : Except Fault Operation :=
  match ofName? name with
  | some o => .ok o
  | none => .error (.unknownOperation name)

end Operation

/-- A denied admission. -/
structure Denial where
  operation : Operation
  decision : Decision
  operationId : Text
deriving DecidableEq, Repr

namespace Denial

def kind : Text := "AdmissionDenied"

def message (d : Denial) : Text :=
  ("Subgraph " : Text) ++ Text.quoted d.decision.rawIdentifier ++ " is not on the allowlist (" ++
    d.operation.name ++ " denied: " ++ d.decision.reason.name ++ ")"

end Denial

inductive AdmissionError
  | denied (d : Denial)
  | fault (f : Fault)
deriving DecidableEq, Repr

/-- The given identifier, or the fresh one if none or an empty one is given. -/
def operationIdFor (given : Option Text) (fresh : Text) : Text :=
  match given with
  | some id => if id.isEmpty then fresh else id
  | none => fresh

/-- Records a decision and refuses it if it is a denial. -/
def concludeAdmission (operation : Operation) (id : Text) (decision : Decision) :
    Audited AdmissionError Decision := do
  let fields := ("operation", Json.Value.string operation.name) :: decision.fields
  if decision.permitted then
    emit .debug "Subgraph admitted" fields
    return decision
  else
    emit .warning "Subgraph denied by allowlist" fields
    throw (.denied ⟨operation, decision, id⟩)

def requestAdmission [Limits] (store : Store) (operation : Operation) (identifier : Value)
    (given : Option Text) (fresh : Text) : Audited AdmissionError Decision :=
  let id := operationIdFor given fresh
  withOperation id do
    match store.check identifier with
    | .error f => throw (.fault f)
    | .ok decision => concludeAdmission operation id decision

def isAdmitted [Limits] (store : Store) (operation : Operation) (identifier : Value)
    (fresh : Text) : Audited Fault Bool :=
  ExceptT.mk do
    match ← attempt (requestAdmission store operation identifier none fresh) with
    | .ok _ => return .ok true
    | .error (.denied _) => return .ok false
    | .error (.fault f) => return .error f

end AdmissionControl
