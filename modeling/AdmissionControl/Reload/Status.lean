import AdmissionControl.Store

/-!
# The record of reloads

A status says what a reloader is doing and how its passes ended so far.  It counts publishes and the
failures in a row, and keeps the last failure; a failure of the watch itself is kept too but not
counted.
-/

namespace AdmissionControl.Reload

inductive Phase
  | idle
  | checking
  | loading
  | publishing
  | reportingError
deriving DecidableEq, Repr

def Phase.name : Phase → Text
  | .idle => "idle"
  | .checking => "checking"
  | .loading => "loading"
  | .publishing => "publishing"
  | .reportingError => "reporting_error"

structure Failure where
  message : Text
  kind : Text
  time : Instant
deriving DecidableEq, Repr

structure Status where
  phase : Phase
  lastCheckedAt : Option Instant
  lastSuccessAt : Option Instant
  lastFailure : Option Failure
  consecutiveFailures : Nat
  reloadCount : Nat
deriving DecidableEq, Repr

namespace Status

def start : Status := ⟨.idle, none, none, none, 0, 0⟩

def begin (now : Instant) (s : Status) : Status :=
  { s with phase := .checking, lastCheckedAt := some now }

/-- The end of every pass, however it ended. -/
def settle (s : Status) : Status := { s with phase := .idle }

def unchanged (s : Status) : Status := { s with consecutiveFailures := 0 }

def failed (failure : Failure) (s : Status) : Status :=
  { s with
    phase := .reportingError
    lastFailure := some failure
    consecutiveFailures := s.consecutiveFailures + 1 }

def published (now : Instant) (s : Status) : Status :=
  { s with
    phase := .publishing
    lastSuccessAt := some now
    consecutiveFailures := 0
    reloadCount := s.reloadCount + 1 }

def watchFailed (failure : Failure) (s : Status) : Status :=
  { s with lastFailure := some failure }

def time (t : Option Instant) : Json.Value := .ofText? (t.map Instant.iso)

def fields (s : Status) : List (String × Json.Value) :=
  [("state", .string s.phase.name), ("last_checked_at", time s.lastCheckedAt),
    ("last_success_at", time s.lastSuccessAt),
    ("last_error", .ofText? (s.lastFailure.map (·.message))),
    ("last_error_type", .ofText? (s.lastFailure.map (·.kind))),
    ("last_error_at", time (s.lastFailure.map (·.time))),
    ("consecutive_failures", .ofNat s.consecutiveFailures),
    ("reload_count", .ofNat s.reloadCount)]

end Status

end AdmissionControl.Reload
