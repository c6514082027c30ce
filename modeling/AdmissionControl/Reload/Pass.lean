import AdmissionControl.Reload.Status

/-!
# One pass of a reload

A pass reads the digest of the watched file, loads the file if the digest is not that of the
published allowlist, and publishes what was loaded.  The two reads are the points at which a pass
can be interrupted, so it is made of three steps: `begin`, `checked` and `loaded`.  A pass that is
cancelled publishes nothing, and every pass ends with an idle status.

* `run` is a pass without interruption.
* `interrupt` is a pass that is cancelled while it is in a given phase.
-/

namespace AdmissionControl.Reload

/-- How a pass ends. -/
inductive Outcome
  | unchanged
  | published
  | failed
  | cancelled
  /-- A fault, which is neither counted nor kept. -/
  | escaped (f : Fault)
deriving DecidableEq, Repr

def Outcome.name : Outcome → Text
  | .unchanged => "unchanged"
  | .published => "published"
  | .failed => "failed"
  | .cancelled => "cancelled"
  | .escaped f => f.kind

/-- What a pass works on. -/
structure State where
  store : Store
  status : Status
deriving DecidableEq, Repr

namespace Pass

def setStatus (f : Status → Status) (s : State) : State := { s with status := f s.status }

def begin (now : Instant) (s : State) : State := setStatus (Status.begin now) s

def finish (s : State) (outcome : Outcome) : State × Outcome := (setStatus Status.settle s, outcome)

/-- A refused source is reported; the published allowlist stays. -/
def report (path : Text) (now : Instant) (s : State) (r : Allowlist.Refusal) :
    StateM Trail (State × Outcome) := do
  let s := setStatus (Status.failed ⟨r.message, r.kind, now⟩) s
  emit .error "Allowlist reload failed - keeping prior allowlist"
    [("path", .string path), ("error", .string r.message), ("error_type", .string r.kind),
      ("active_version", .ofNat s.store.version),
      ("consecutive_failures", .ofNat s.status.consecutiveFailures)]
  return finish s .failed

/-- The end of a pass that a load error brings about. -/
def fail (path : Text) (now : Instant) (s : State) :
    Allowlist.LoadError → StateM Trail (State × Outcome)
  | .refused r => report path now s r
  | .fault f => return finish s (.escaped f)

/-- What follows the first read: the end of the pass, or the second read. -/
inductive Turn
  | ended (s : State) (outcome : Outcome)
  | loading (s : State)
deriving DecidableEq, Repr

/-- The step after the digest was read. -/
def checked (path : Text) (now : Instant) (s : State) :
    Except Allowlist.LoadError Text → StateM Trail Turn
  | .error e => do
    let (s, outcome) ← fail path now s e
    return .ended s outcome
  | .ok checksum =>
    if checksum = s.store.current.allowlist.checksum then
      let (s, outcome) := finish (setStatus Status.unchanged s) .unchanged
      return .ended s outcome
    else return .loading (setStatus (fun t => { t with phase := .loading }) s)

/-- The step after the file was loaded. -/
def loaded (path : Text) (now : Instant) (s : State) :
    Except Allowlist.LoadError Allowlist → StateM Trail (State × Outcome)
  | .error e => fail path now s e
  | .ok allowlist => do
    let store ← s.store.publishRecorded allowlist now
    emit .info "Allowlist hot-reloaded"
      [("path", .string path), ("version", .ofNat store.version),
        ("count", .ofNat allowlist.size)]
    return finish ⟨store, s.status.published now⟩ .published

def run [Limits] (fs : FileSystem) (path : Text) (now : Instant) (s : State) :
    StateM Trail (State × Outcome) := do
  match ← checked path now (begin now s) (Allowlist.fileChecksum fs path) with
  | .ended s outcome => return (s, outcome)
  | .loading s =>
    let result ← attempt (Allowlist.load fs (.file path) now)
    loaded path now s result

def cancel (s : State) : State × Outcome := finish s .cancelled

/-- A pass that is interrupted in one of its two reads.  `seen` is the phase in which it was
interrupted, idle if it ended before; `late` is the load that goes on without it. -/
structure Interrupted where
  state : State
  outcome : Outcome
  seen : Phase
  late : StateM Trail Unit

/-- The pass up to its cancellation; a load under way still leaves its records, but later. -/
def interrupt [Limits] (fs : FileSystem) (path : Text) (now : Instant) (phase : Phase) (s : State) :
    StateM Trail Interrupted := do
  let s := begin now s
  if phase = .checking then
    let (s, outcome) := cancel s
    return ⟨s, outcome, .checking, pure ()⟩
  else
    match ← checked path now s (Allowlist.fileChecksum fs path) with
    | .ended s outcome => return ⟨s, outcome, .idle, pure ()⟩
    | .loading s =>
      let (s, outcome) := cancel s
      return ⟨s, outcome, .loading, do
        let _ ← attempt (Allowlist.load fs (.file path) now)
        return ()⟩

end Pass

end AdmissionControl.Reload
