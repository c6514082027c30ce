import AdmissionControl.Reload.Pass

/-!
# The reloader and its watch

A reloader republishes the allowlist of one file.  While it runs it watches the directory of that
file; a change that `keeps` lets through, or the time between two rescans, starts a pass.  No end of
a pass stops the watch: it ends when it is stopped, when its stream of events ends, or when that
stream fails.

* `start` makes the task of the watch, and is refused while there is one.  The task runs later: with
  `enter` it begins to watch.  A stop that comes before leaves no record of the watch.
* `refresh` is a pass at the caller's request, whose fault is the caller's.
* `wake` is a pass of the watch, whose fault is recorded; `changed` is what a batch of changes does.
-/

namespace AdmissionControl.Reload

structure Options where
  forcePolling : Bool
  pollDelay : Int
  debounce : Int
  rescanInterval : Int
deriving DecidableEq, Repr

namespace Options

/-- Poll delay and debounce of 300 and 200 milliseconds, and five seconds between two rescans. -/
def default : Options := ⟨false, 300, 200, 5000⟩

end Options

/-- How far the task of the watch has come. -/
inductive Task
  /-- There is none, or it is over. -/
  | off
  /-- It is made and has not run yet. -/
  | made
  | watching
deriving DecidableEq, Repr

def Task.running : Task → Bool
  | off => false
  | made | watching => true

structure Reloader where
  /-- The normal absolute path of the watched file. -/
  path : Text
  options : Options
  status : Status
  task : Task
deriving DecidableEq, Repr

/-- What the stream of events fails with: the class of the error, and what it says. -/
structure StreamError where
  kind : Text
  message : Text
deriving DecidableEq, Repr

namespace Reloader

def new (workingDirectory path : Text) (options : Options) : Reloader :=
  ⟨Path.absolute workingDirectory path, options, .start, .off⟩

def running (r : Reloader) : Bool := r.task.running

def state (r : Reloader) (store : Store) : State := ⟨store, r.status⟩

def withState (r : Reloader) (s : State) : Reloader × Store :=
  ({ r with status := s.status }, s.store)

/-! ### Passes -/

def refresh [Limits] (fs : FileSystem) (now : Instant) (r : Reloader) (store : Store) :
    StateM Trail (Reloader × Store × Outcome) := do
  let (s, outcome) ← Pass.run fs r.path now (r.state store)
  let (r, store) := r.withState s
  return (r, store, outcome)

/-- A fault in a pass of the watch is recorded and the watch goes on. -/
def recordEscape (path : Text) : Outcome → StateM Trail Unit
  | .escaped f =>
    emit .error "Allowlist reload handler error (non-fatal)"
      [("path", .string path), ("error", .string f.message), ("error_type", .string f.kind)]
  | _ => return ()

/-- One pass of the watch; a reloader that does not watch is not woken. -/
def wake [Limits] (fs : FileSystem) (now : Instant) (r : Reloader) (store : Store) :
    StateM Trail (Reloader × Store) := do
  if r.task = .watching then
    let (r, store, outcome) ← r.refresh fs now store
    recordEscape r.path outcome
    return (r, store)
  else return (r, store)

/-! ### The watch -/

def directory (r : Reloader) : Text := Path.parent r.path

/-- Whether a changed path counts: the watched file itself, or a name that starts with two dots, as
the links have that replace a whole directory at once. -/
def keeps (workingDirectory : Text) (r : Reloader) (path : Text) : Bool :=
  Path.absolute workingDirectory path = r.path || Text.startsWith (Path.baseName path) Path.up

/-- The changed paths of a batch that count. -/
def kept (workingDirectory : Text) (r : Reloader) (changes : List Text) : List Text :=
  changes.filter (r.keeps workingDirectory)

/-- The watch is told of a batch of changes; it passes over a batch in which none counts. -/
def changed [Limits] (fs : FileSystem) (now : Instant) (r : Reloader) (store : Store)
    (changes : List Text) : StateM Trail (Reloader × Store) :=
  if (r.kept fs.workingDirectory changes).isEmpty then return (r, store) else r.wake fs now store

/-- Makes the task of the watch. -/
def start (r : Reloader) : Audited Fault Reloader :=
  if r.running then throw .alreadyRunning else return { r with task := .made }

/-- The task runs for the first time, and begins to watch. -/
def enter (r : Reloader) : StateM Trail Reloader := do
  if r.task = .made then
    emit .info "Allowlist file watcher started"
      [("path", .string r.path), ("force_polling", .bool r.options.forcePolling),
        ("rescan_interval_ms", .integer r.options.rescanInterval)]
    return { r with task := .watching }
  else return r

def recordCancelled (r : Reloader) : StateM Trail Unit :=
  emit .debug "Allowlist file watcher cancelled" [("path", .string r.path)]

/-- Stops the watch, if it runs, between two passes; a task that has not run yet never does. -/
def stop (r : Reloader) : StateM Trail Reloader := do
  if r.task = .watching then recordCancelled r
  return { r with task := .off }

/-- Stops the watch during a pass: the pass is cancelled in the given phase, or has ended before. -/
def stopDuring [Limits] (fs : FileSystem) (now : Instant) (phase : Phase) (r : Reloader)
    (store : Store) : StateM Trail (Reloader × Store × Phase) := do
  let interrupted ← Pass.interrupt fs r.path now phase (r.state store)
  let (r, store) := r.withState interrupted.state
  recordEscape r.path interrupted.outcome
  let r ← r.stop
  interrupted.late
  return (r, store, interrupted.seen)

/-- The stream of events ends. -/
def streamEnded (r : Reloader) : StateM Trail Reloader := do
  if r.task = .watching then
    emit .info "Allowlist file watcher stopped" [("path", .string r.path)]
    return { r with task := .off }
  else return r

/-- The stream of events fails, and the watch ends with it. -/
def streamFailed (now : Instant) (error : StreamError) (r : Reloader) : StateM Trail Reloader := do
  if r.task = .watching then
    emit .error "Allowlist file watcher error (watcher stopped)"
      [("path", .string r.path), ("error", .string error.message),
        ("error_type", .string error.kind)]
    let failure : Failure := ⟨"Watcher stopped: " ++ error.message, error.kind, now⟩
    return { r with task := .off, status := r.status.watchFailed failure }
  else return r

/-- What the watch asks of the source of events. -/
def watchArguments (r : Reloader) : Json.Value :=
  .record [("paths", .array [.string r.directory]), ("debounce", .integer r.options.debounce),
    ("force_polling", .bool r.options.forcePolling),
    ("poll_delay_ms", .integer r.options.pollDelay), ("recursive", .bool false),
    ("rust_timeout", .integer r.options.rescanInterval), ("yield_on_timeout", .bool true)]

end Reloader

end AdmissionControl.Reload
