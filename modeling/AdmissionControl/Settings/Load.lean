import AdmissionControl.Settings.Basic
import AdmissionControl.Yaml.Document

/-!
# Loading the settings

The settings come from the first file that exists among the given path, the path in the environment,
and one in the working and one in the home directory; without a file they are the default ones.
Variables of the environment then replace the port and whether reloads are enabled, and name the
source of the allowlist.  Settings without a source are refused.

* `resolveSource` picks the source: a file wins over an inline text.
* `ofFile` reads one file.
* `load` does all of it and records what it found.
-/

namespace AdmissionControl

/-- What a process finds around it. -/
structure Environment where
  /-- The variables with their values. -/
  bindings : List (Text × Text)
  home : Text
  accounts : Accounts
deriving Repr, Inhabited

namespace Environment

def lookup? (env : Environment) (name : Text) : Option Text := env.bindings.lookup name

def expand (env : Environment) (path : Text) : Except Fault Text :=
  env.accounts.expand env.home path

end Environment

namespace Settings

/-! ### The source -/

def resolveSource (env : Environment) : Audited Fault (Option Source) := do
  let path := Text.trim ((env.lookup? fileVariable).getD [])
  let inline? := env.lookup? inlineVariable
  if path.isEmpty then
    return inline?.map fun text => .inline (.text text) inlineVariable
  else
    if inline?.isSome then
      emit .warning "Both allowlist sources are set - using the file, ignoring the inline list"
        [("file_variable", .string fileVariable), ("inline_variable", .string inlineVariable),
          ("path", .string path)]
    let path ← liftM (env.expand path)
    return some (.file path)

/-! ### The file -/

/-- The members of a document that count, written out. -/
def rawMembers (d : Yaml.Document) (root : Yaml.NodeId) : Value :=
  d.select root topNames fun name id =>
    if name = "version" then d.value id else d.select id sectionNames fun _ id => d.value id

/-- The root of a settings file; an empty file is null. -/
def rawOfBytes [Limits] (path : Text) (bytes : List UInt8) : Except Error Value :=
  match Yaml.Document.ofInput? (Yaml.Input.ofBytes bytes) with
  | .error (.malformed reason) => refuse (some path) (.malformed (Text.ofString reason))
  | .error (.fault f) => .error (.fault f)
  | .ok none => .ok .none
  | .ok (some d) => .ok (rawMembers d d.graph.root)

/-- The version must be one that is supported; a list or a mapping cannot even be compared. -/
def checkVersion [Limits] (path : Text) (version : Option Value) : Except Error Unit :=
  match version with
  | none | some .none => refuse (some path) .noVersion
  | some v =>
    match v with
    | .list _ | .dict _ | .loop _ => .error (.fault (.unhashable v.kind))
    | _ =>
      if v.same (.integer supportedVersion) then .ok ()
      else match v.display with
        | .ok shown => refuse (some path) (.unsupportedVersion shown)
        | .error f => .error (.fault f)

/-- The settings of a root value. -/
def ofRoot [Limits] (path : Text) : Value → Except Error Settings
  | .dict members => do
    checkVersion path (Value.member? "version" members)
    ofMembers (some path) members
  | .none => refuse (some path) .noVersion
  | _ => refuse (some path) .notAMapping

def ofFile [Limits] (path : Text) (bytes : List UInt8) : Except Error Settings :=
  (rawOfBytes path bytes).bind (ofRoot path)

/-! ### The search -/

/-- Where a settings file is looked for after the given places. -/
def defaultPaths : List Text := [".subgraph-gate/config.yaml", "~/.subgraph-gate/config.yaml"]

/-- The paths to try, as they are written; empty ones are passed over. -/
def searchPaths (env : Environment) (given : Option Text) : List Text :=
  ([given, env.lookup? configVariable].filterMap id).filter (!·.isEmpty) ++ defaultPaths

/-- The first path that leads to a regular file, with what can be read there. -/
def findFile (env : Environment) (fs : FileSystem) :
    List Text → Except Fault (Option (Text × Except FileError (List UInt8)))
  | [] => .ok none
  | path :: rest => do
    let path ← env.expand path
    match fs.regular? path with
    | some content => return some (path, content)
    | none => findFile env fs rest

/-- The settings of the file that was found; one that cannot be read is refused. -/
def ofFound [Limits] (path : Text) : Except FileError (List UInt8) → Except Error Settings
  | .ok bytes => ofFile path bytes
  | .error e => refuse (some path) (.unreadable e)

/-- The settings before the environment changes them. -/
def base [Limits] (env : Environment) (fs : FileSystem) (given : Option Text) :
    Audited Error Settings := do
  let paths := searchPaths env given
  match findFile env fs paths with
  | .error f => throw (.fault f)
  | .ok none =>
    emit .info "No gate config file found - using defaults"
      [("searched", .array (paths.map Json.Value.string))]
    return Settings.default
  | .ok (some (path, content)) =>
    emit .info "Loading gate config" [("path", .string path)]
    liftM (ofFound path content)

/-! ### The environment -/

def trueWords : List Text := ["1", "true", "yes", "on"]

def falseWords : List Text := ["0", "false", "no", "off"]

def overridePort (env : Environment) (s : Settings) : Except Error Settings :=
  match env.lookup? portVariable with
  | none => .ok s
  | some given =>
    match Numeral.readInteger 10 given with
    | .ok port => .ok { s with server := { s.server with port := port } }
    | .error _ => refuse s.path (.badPort given)

def overrideReload (env : Environment) (s : Settings) : Except Error Settings :=
  match env.lookup? reloadVariable with
  | none => .ok s
  | some given =>
    let word := Text.lowerAscii (Text.trim given)
    if trueWords.contains word then .ok { s with reload := { s.reload with enabled := true } }
    else if falseWords.contains word then
      .ok { s with reload := { s.reload with enabled := false } }
    else refuse s.path (.badReload given)

def applyEnvironment (env : Environment) (s : Settings) : Except Error Settings :=
  (overridePort env s).bind (overrideReload env)

/-! ### All together -/

def isFile : Source → Bool
  | .file _ => true
  | _ => false

/-- The host that stands for every interface. -/
def anyHost : Text := "0.0.0.0"

def recordLoaded (s : Settings) (source : Source) : StateM Trail Unit := do
  if !isFile source && s.reload.enabled then
    emit .debug "Inline allowlist - reload watcher not applicable" []
  if s.server.host = anyHost then
    emit .warning ("SECURITY WARNING: gate admin API is configured to bind on 0.0.0.0 (all " ++
      "interfaces). Recommended: server.host: '127.0.0.1'.") []
  emit .info "Gate config loaded"
    [("path", .ofText? s.path),
      ("source_kind", .string (if isFile source then SourceKind.file else .inline).name),
      ("reload_enabled", .bool s.reload.enabled)]

/-- The settings that a process starts with. -/
def load [Limits] (env : Environment) (fs : FileSystem) (given : Option Text) :
    Audited Error Settings := do
  let s ← base env fs given
  let s ← liftM (applyEnvironment env s)
  match ← (ExceptT.adapt Error.fault (resolveSource env)) with
  | none => liftM (refuse (α := Settings) s.path .noSource)
  | some source =>
    recordLoaded s source
    return { s with source := some source }

/-! ### What the server is started with -/

/-- The name under which a server finds the application. -/
def application : Text := "subgraph_gate.main:app"

/-- Connections at a time, waiting connections, and seconds that an idle one is kept. -/
def connectionLimit : Nat := 100
def backlog : Nat := 50
def keepAlive : Nat := 5

def serverArguments (s : Settings) : Json.Value :=
  .record [("host", .string s.server.host), ("port", .integer s.server.port),
    ("limit_concurrency", .ofNat connectionLimit), ("backlog", .ofNat backlog),
    ("timeout_keep_alive", .ofNat keepAlive)]

end Settings

end AdmissionControl
