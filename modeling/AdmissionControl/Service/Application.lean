import AdmissionControl.Audit.Logger
import AdmissionControl.Service.Response
import AdmissionControl.Settings.Load

/-!
# The service

An application answers requests from the published allowlist.  Until it is ready, every route that
knows of the allowlist answers 503; a denial answers 403, and a guarded route of the host runs only
after it was admitted.

* `Application.startUp` loads the settings and the allowlist; only if both succeed is it ready.
* `Application.enterWatch` lets the task run that watches the file, and `Application.rescan` looks
  at the file once.
* `Application.shutDown` makes it unready again and stops the watch.
* `Application.respond` answers one request.
-/

namespace AdmissionControl.Service

structure Application where
  ready : Bool
  /-- The store, once the startup has published an allowlist. -/
  store : Option Store
  reloader : Option Reload.Reloader
  hostRoutes : List Route
  /-- Whether the pages that describe the service are served. -/
  pages : Bool

namespace Application

/-- The variable that asks for the pages. -/
def debugVariable : Text := "DEBUG"

def wantsPages (env : Environment) : Bool :=
  Text.lowerAscii ((env.lookup? debugVariable).getD []) = ("true" : Text)

/-- The variable that names the threshold of the audit trail. -/
def thresholdVariable : Text := "LOG_LEVEL"

/-- The threshold of the audit trail that an environment asks for. -/
def threshold (env : Environment) : Except Fault Threshold :=
  Threshold.named
    ((env.lookup? thresholdVariable).getD (if wantsPages env then "DEBUG" else "INFO"))

def new (env : Environment) (hostRoutes : List Route) : Application :=
  ⟨false, none, none, hostRoutes, wantsPages env⟩

def routes (a : Application) : List Route :=
  (if a.pages then pageRoutes else []) ++ ownRoutes ++ a.hostRoutes

/-! ### Answers -/

/-- What keeps a request from its answer. -/
inductive Trouble
  /-- A refusal with a status and a body. -/
  | refused (status : Nat) (detail : Json.Value)
  | fault (f : Fault)
  /-- An operation that has no such name. -/
  | unknownOperation (given : Text)

def startingUp (message : String) : Trouble :=
  .refused 503 (.record [("status", "starting"), ("message", message)])

/-- The store of an application that is ready. -/
def gate (a : Application) : Except Trouble Store :=
  if !a.ready then .error (startingUp "Allowlist gate is starting up")
  else match a.store with
    | some store => .ok store
    | none => .error (.fault (.missingState "allowlist_gate"))

/-- What health tells about reloads. -/
inductive ReloadHealth
  | disabled
  | stopped
  | failing
  | watching
deriving DecidableEq, Repr

namespace ReloadHealth

def name : ReloadHealth → Text
  | disabled => "disabled"
  | stopped => "stopped"
  | failing => "failing"
  | watching => "watching"

def isDegraded : ReloadHealth → Bool
  | failing | stopped => true
  | disabled | watching => false

end ReloadHealth

def reloadHealth : Option Reload.Reloader → ReloadHealth
  | none => .disabled
  | some r =>
    if !r.running then .stopped
    else if r.status.consecutiveFailures ≠ 0 then .failing
    else .watching

def health (a : Application) : Except Trouble Json.Value :=
  if !a.ready then .error (startingUp "Allowlist gate is starting up. Loading allowlist...")
  else match a.store with
    | none => .error (.fault (.missingState "allowlist_store"))
    | some store =>
      let reload := reloadHealth a.reloader
      .ok (.record [("status", if reload.isDegraded then "degraded" else "ok"),
        ("allowlist_version", .ofNat store.version),
        ("entry_count", .ofNat store.current.allowlist.size),
        ("source_kind", .string store.current.allowlist.kind.name),
        ("reload", .string reload.name)])

def reloadStatus : Option Reload.Reloader → Json.Value
  | none => .null
  | some r => .record (r.status.fields ++ [("running", .bool r.running)])

def status (a : Application) : Except Trouble Json.Value :=
  match a.gate with
  | .error t => .error t
  | .ok store =>
    .ok (.record [("snapshot", store.current.describe), ("reload", reloadStatus a.reloader)])

def checkIdentifier [Limits] (a : Application) (identifier : Text) : Except Trouble Json.Value :=
  match a.gate with
  | .error t => .error t
  | .ok store =>
    match store.check (.text identifier) with
    | .ok decision => .ok decision.json
    | .error f => .error (.fault f)

def denialBody (d : Denial) : Json.Value :=
  .record [("admitted", .bool false), ("operation", .string d.operation.name),
    ("operation_id", .string d.operationId), ("decision", d.decision.json)]

def permitBody (operation : Operation) (decision : Decision) : Json.Value :=
  .record [("admitted", .bool true), ("operation", .string operation.name),
    ("decision", decision.json)]

/-- Asks for admission on behalf of a request. -/
def admitFor [Limits] (a : Application) (operation : Operation) (identifier : Value)
    (fresh : Text) : StateM Trail (Except Trouble (Except Denial Decision)) := do
  match a.gate with
  | .error t => return .error t
  | .ok store =>
    match ← attempt (requestAdmission store operation identifier none fresh) with
    | .ok decision => return .ok (.ok decision)
    | .error (.denied d) => return .ok (.error d)
    | .error (.fault f) => return .error (.fault f)

def admission [Limits] (a : Application) (operation identifier : Text) (fresh : Text) :
    StateM Trail (Except Trouble Response) := do
  match Operation.ofName? operation with
  | none => return .error (.unknownOperation operation)
  | some operation =>
    match ← a.admitFor operation (.text identifier) fresh with
    | .error t => return .error t
    | .ok (.ok decision) => return .ok (.json 200 (permitBody operation decision))
    | .ok (.error d) => return .ok (.json 403 (denialBody d))

/-- The deployment that a guard asks about: the parameter of that name, or nothing. -/
def deploymentOf (parameters : Parameters) : Option Text := parameters.lookup deploymentName

def guardedValue : Option Text → Value
  | some s => .text s
  | none => .none

def guarded [Limits] (a : Application) (operation : Operation) (run : Option Text → Json.Value)
    (parameters : Parameters) (fresh : Text) : StateM Trail (Except Trouble Response) := do
  let deployment := deploymentOf parameters
  match ← a.admitFor operation (guardedValue deployment) fresh with
  | .error t => return .error t
  | .ok (.error d) => return .error (.refused 403 (denialBody d))
  | .ok (.ok _) => return .ok (.json 200 (run deployment))

def parameter (name : Text) (parameters : Parameters) : Text := (parameters.lookup name).getD []

/-- The answer of an endpoint. -/
def answer [Limits] (a : Application) (endpoint : Endpoint) (parameters : Parameters)
    (fresh : Text) : StateM Trail (Except Trouble Response) :=
  match endpoint with
  | .health => return a.health.map (Response.json 200)
  | .status => return a.status.map (Response.json 200)
  | .check =>
    return (a.checkIdentifier (parameter identifierName parameters)).map (Response.json 200)
  | .admission =>
    a.admission (parameter operationName parameters) (parameter identifierName parameters) fresh
  | .guarded operation run => a.guarded operation run parameters fresh
  | .page => return .ok .page

/-! ### Trouble -/

def expectedOperations : Text := "'deploy', 'start' or 'query'"

/-- What the check of an operation's name says about a name that is none. -/
def operationDetail (given : Text) : Json.Value :=
  let place : Json.Value := .array ["path", .string operationName]
  if given.any (·.isSurrogate) then
    .record [("type", "string_unicode"), ("loc", place),
      ("msg", "Input should be a valid string, unable to parse raw data as a unicode string"),
      ("input", .string given)]
  else
    .record [("type", "enum"), ("loc", place),
      ("msg", .string ("Input should be " ++ expectedOperations)), ("input", .string given),
      ("ctx", .record [("expected", .string expectedOperations)])]

/-- A fault is recorded and answered. -/
def faultResponse (request : Request) (f : Fault) : StateM Trail Response := do
  emit .error "Unhandled exception"
    [("error", .string f.message), ("error_type", .string f.kind),
      ("path", .string request.loggedPath)]
  return .internalError f

/-- The response to trouble; a body that has no encoding is a fault itself. -/
def troubleResponse (request : Request) : Trouble → StateM Trail Response
  | .refused status detail => do
    emit .warning "HTTP exception"
      [("status_code", .ofNat status), ("path", .string request.loggedPath)]
    return .error status detail
  | .fault f => faultResponse request f
  | .unknownOperation given =>
    let body : Json.Value := .record [("detail", .array [operationDetail given])]
    match Utf8.firstSurrogates? body.renderPlain with
    | some e => faultResponse request (.unencodable e)
    | none => return .json 422 body

/-- Answers a request; `fresh` is the identifier of an operation that the request may start. -/
def respond [Limits] (a : Application) (request : Request) (fresh : Text) :
    StateM Trail Response := do
  match find a.routes request.method request.path with
  | .full route parameters =>
    match ← a.answer route.endpoint parameters fresh with
    | .ok response => return response
    | .error trouble => troubleResponse request trouble
  | .wrongMethod route => return .wrongMethod route.methods
  | .none =>
    if redirects a.routes request.path then
      match locationFor (otherSlash request.path) with
      | .ok location => return .redirect location
      | .error f => faultResponse request f
    else return .notFound

/-! ### Startup and shutdown -/

inductive StartupError
  | settings (r : Settings.Refusal)
  | allowlist (r : Allowlist.Refusal)
  | fault (f : Fault)
deriving DecidableEq, Repr

/-- What a refused startup writes before the process ends; a fault writes nothing. -/
def StartupError.message? : StartupError → Option Text
  | settings r => some r.message
  | allowlist r =>
    some (("ALLOWLIST ERROR: " : Text) ++ r.kind ++ ": " ++ r.message ++
      "\nThe gate refuses to start without a valid allowlist.")
  | fault _ => none

def StartupError.ofSettings : Settings.Error → StartupError
  | .refused r => .settings r
  | .fault f => .fault f

/-- The version of the service. -/
def serviceVersion : Text := "0.1.0"

/-- Loads the allowlist of the settings; a refusal is recorded. -/
def loadStartup [Limits] (fs : FileSystem) (source : Source) (now : Instant) :
    Audited StartupError Allowlist :=
  ExceptT.mk do
    match ← attempt (Allowlist.load fs source now) with
    | .ok allowlist => return .ok allowlist
    | .error (.fault f) => return .error (.fault f)
    | .error (.refused r) =>
      emit .error "Startup allowlist load failed - refusing to start"
        [("error", .string r.message), ("error_type", .string r.kind)]
      return .error (.allowlist r)

/-- The reloader that settings ask for: only a file is watched, and only if reloads are enabled. -/
def reloaderFor (fs : FileSystem) (s : Settings) : Option Reload.Reloader :=
  match s.source with
  | some (.file path) =>
    if s.reload.enabled then
      some (Reload.Reloader.new fs.workingDirectory path s.reload.options)
    else none
  | _ => none

/-- Starts the reloader that settings ask for; that they ask for none is recorded. -/
def startWatch (fs : FileSystem) (s : Settings) (allowlist : Allowlist) :
    StateM Trail (Option Reload.Reloader) :=
  match reloaderFor fs s with
  | some r => do
    match ← attempt r.start with
    | .ok started => return some started
    | .error _ => return some r
  | none => do
    emit .debug "Allowlist reload watcher disabled"
      [("source_kind", .string allowlist.kind.name), ("reload_enabled", .bool s.reload.enabled)]
    return none

/-- The source that loaded settings name. -/
def sourceOf (s : Settings) : Source := s.source.getD (.inline (.text []) Allowlist.inlineVariable)

def startUp [Limits] (a : Application) (env : Environment) (fs : FileSystem) (now : Instant) :
    Audited StartupError Application := do
  emit .info "Subgraph allowlist gate starting up..." []
  let settings ← ExceptT.adapt StartupError.ofSettings (Settings.load env fs none)
  let allowlist ← loadStartup fs (sourceOf settings) now
  let store := Store.new allowlist now
  emit .info "Allowlist published" store.current.description
  let reloader ← startWatch fs settings allowlist
  emit .info "Subgraph allowlist gate ready" [("version", .string serviceVersion)]
  return { a with ready := true, store := some store, reloader := reloader }

/-- The files that a startup may read: the settings, and the allowlist if a file holds it. -/
def startupFiles (env : Environment) : List Text :=
  let settings := (Settings.searchPaths env none).filterMap fun path => (env.expand path).toOption
  match (Settings.resolveSource env).run.run Trail.start with
  | (.ok (some (.file path)), _) => settings ++ [path]
  | _ => settings

/-- The task of the watch runs for the first time, if the startup has made one. -/
def enterWatch (a : Application) : StateM Trail Application := do
  match a.reloader with
  | some r => return { a with reloader := some (← r.enter) }
  | none => return a

/-- The watched file is looked at, if there is a watch. -/
def rescan [Limits] (a : Application) (fs : FileSystem) (now : Instant) :
    StateM Trail Application := do
  match a.reloader, a.store with
  | some reloader, some store =>
    let (reloader, store) ← reloader.wake fs now store
    return { a with reloader := some reloader, store := some store }
  | _, _ => return a

def shutDown (a : Application) : StateM Trail Application := do
  emit .info "Subgraph allowlist gate shutting down..." []
  let reloader ← match a.reloader with
    | some r => do
      let r ← r.stop
      pure (some r)
    | none => pure none
  emit .info "Subgraph allowlist gate shutdown complete" []
  return { a with ready := false, reloader := reloader }

end Application

end AdmissionControl.Service
