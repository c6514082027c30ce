import AdmissionControl.Service.Application
import AdmissionControl.Ulid
import Std.Time.DateTime.Timestamp

/-!
# The program

Starts the service from the environment and the files that it names, and answers the requests on
standard input, one on each line: a method, a blank and a path.  Each response is a line of JSON on
standard output, and each record of the audit trail one on standard error.

Everything here moves bytes; what the program does is said in the module of the application.
-/

namespace AdmissionControl.Program

open Service

attribute [local instance] Limits.usual

/-- The variables that count. -/
def variableNames : List Text :=
  [Settings.fileVariable, Settings.inlineVariable, Settings.configVariable, Settings.portVariable,
    Settings.reloadVariable, Application.debugVariable, Application.thresholdVariable]

def homeVariable : String := "HOME"

def accountTable : String := "/etc/passwd"

def now : IO Instant := do
  let time ← Std.Time.Timestamp.now
  return ⟨(time.toNanosecondsSinceUnixEpoch.val / 1000).toNat⟩

def freshId (time : Instant) : IO Text := do
  let bytes ← IO.getRandomBytes 10
  return (Ulid.make (time.microseconds / 1000) bytes.toList).render

/-! ### The environment and the files -/

def readVariable (name : Text) : IO (Option (Text × Text)) := do
  return (← IO.getEnv name.render).map (name, Text.ofString ·)

def readAccounts : IO Accounts := do
  try
    return Accounts.ofTable (Text.ofString (← IO.FS.readFile accountTable))
  catch _ => return ⟨[]⟩

def readEnvironment : IO Environment := do
  let found ← variableNames.filterMapM readVariable
  let home := (← IO.getEnv homeVariable).getD "/"
  return ⟨found, Text.ofString home, ← readAccounts⟩

/-- Why a file that is there cannot be read, as far as that is known. -/
def refusalOf : IO.Error → Option FileError
  | .permissionDenied .. => some .accessDenied
  | .hardwareFault .. => some .inputOutput
  | _ => none

/-- Adds what stands at a path on disk. -/
def addPath (fs : FileSystem) (path : Text) : IO FileSystem := do
  let place := (← IO.currentDir) / path.render
  if ← place.isDir then return fs.makeDirectory path
  else
    try
      return fs.write path (← IO.FS.readBinFile place).toList
    catch e => return ((refusalOf e).map (fs.refuse path)).getD fs

def readFiles (paths : List Text) : IO FileSystem := do
  let directory ← IO.currentDir
  paths.foldlM addPath (FileSystem.new (Text.ofString directory.toString))

/-! ### Requests -/

def blank : CodePoint := ' '

def requestOfLine (line : String) : Request :=
  let text := Text.without '\n' (Text.ofString line)
  ⟨text.takeWhile (· ≠ blank), (text.dropWhile (· ≠ blank)).drop 1⟩

def responseJson (r : Response) : Json.Value :=
  let optional (name : String) (v : Option Json.Value) := (v.map fun v => (name, v)).toList
  .record ([("status", .ofNat r.status)] ++ optional "body" r.body ++
    optional "location" (r.location.map .string) ++ optional "allow" (r.allow.map .string))

/-- Runs an action on a trail of its own and prints the records that it leaves. -/
def printing {α : Type} (threshold : Threshold) (action : StateM Trail α) : IO α := do
  let (a, trail) := action.run ⟨threshold, none, []⟩
  for record in trail.records do
    IO.eprintln record.json.render.render
  return a

/-- Looks at the watched file, then answers the next request, until there is none. -/
partial def serve (threshold : Threshold) (app : Application) : IO Application := do
  let line ← (← IO.getStdin).getLine
  if line.isEmpty then return app
  let time ← now
  let fs ← readFiles (app.reloader.map (·.path)).toList
  let app ← printing threshold (app.rescan fs time)
  let response ← printing threshold (app.respond (requestOfLine line) (← freshId time))
  IO.println (responseJson response).render.render
  serve threshold app

/-- The text of a startup that failed. -/
def failureText (e : Application.StartupError) : Text :=
  match e, e.message? with
  | _, some message => message
  | .fault f, none => f.kind ++ ": " ++ f.message
  | _, none => []

def run (env : Environment) (threshold : Threshold) : IO UInt32 := do
  let fs ← readFiles (Application.startupFiles env)
  match ← printing threshold ((Application.new env []).startUp env fs (← now)).run with
  | .error e =>
    IO.eprintln (failureText e).render
    return 1
  | .ok app =>
    let app ← printing threshold app.enterWatch
    let app ← serve threshold app
    let _ ← printing threshold app.shutDown
    return 0

end AdmissionControl.Program

def main : IO UInt32 := do
  let env ← AdmissionControl.Program.readEnvironment
  match AdmissionControl.Service.Application.threshold env with
  | .ok threshold => AdmissionControl.Program.run env threshold
  | .error f =>
    IO.eprintln f.message.render
    return 1
