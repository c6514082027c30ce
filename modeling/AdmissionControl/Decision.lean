import AdmissionControl.Store

/-!
# Decisions

`Snapshot.decide` answers an identifier: it permits if the normal form is an entry, and
denies with a reason otherwise.  It is a fault only if the identifier cannot be written or encoded.

* `Decision.verdict` follows from the reason.
* `Snapshot.snapshotVersion_decide` says which snapshot a decision speaks of.
-/

namespace AdmissionControl

inductive Verdict
  | permit
  | deny
deriving DecidableEq, Repr

def Verdict.name : Verdict → Text
  | .permit => "permit"
  | .deny => "deny"

inductive Reason
  | listed
  | notListed
  | malformed
deriving DecidableEq, Repr

def Reason.name : Reason → Text
  | .listed => "listed"
  | .notListed => "not_listed"
  | .malformed => "malformed_identifier"

structure Decision where
  /-- The normal form, if there is one. -/
  identifier : Option Text
  /-- A text as it was given; any other value as a literal. -/
  rawIdentifier : Text
  snapshotVersion : Nat
  snapshotLoadedAt : Instant
  reason : Reason
deriving DecidableEq, Repr

namespace Decision

def verdict (d : Decision) : Verdict :=
  match d.reason with
  | .listed => .permit
  | .notListed | .malformed => .deny

def permitted (d : Decision) : Bool := d.verdict == .permit

def fields (d : Decision) : List (String × Json.Value) :=
  [("verdict", .string d.verdict.name), ("identifier", .ofText? d.identifier),
    ("raw_identifier", .string d.rawIdentifier), ("snapshot_version", .ofNat d.snapshotVersion),
    ("snapshot_loaded_at", .string d.snapshotLoadedAt.iso), ("reason", .string d.reason.name)]

def json (d : Decision) : Json.Value := .record d.fields

theorem permitted_iff (d : Decision) : d.permitted = true ↔ d.reason = .listed := by
  unfold permitted verdict
  cases d.reason <;> decide

end Decision

/-- A text as it is, any other value as a literal. -/
def rawText [Limits] : Value → Except Fault Text
  | .text s => .ok s
  | v => v.literal

namespace Snapshot

/-- The decision about an identifier, once its raw text is known. -/
def decideRaw (snapshot : Snapshot) (identifier : Value) (raw : Text) : Except Fault Decision :=
  let decision (normal : Option Text) (reason : Reason) : Decision :=
    ⟨normal, raw, snapshot.version, snapshot.allowlist.loadedAt, reason⟩
  match Identifier.normalize identifier with
  | .error (.fault f) => .error f
  | .error (.malformed _) => .ok (decision none .malformed)
  | .ok normal =>
    .ok (decision (some normal)
      (if snapshot.allowlist.contains normal then .listed else .notListed))

def decide [Limits] (snapshot : Snapshot) (identifier : Value) : Except Fault Decision :=
  match rawText identifier with
  | .error f => .error f
  | .ok raw => snapshot.decideRaw identifier raw

theorem snapshotVersion_decide [Limits] {identifier : Value} {snapshot : Snapshot} {d : Decision}
    (h : snapshot.decide identifier = .ok d) : d.snapshotVersion = snapshot.version := by
  unfold decide at h
  split at h
  · cases h
  · unfold decideRaw at h
    dsimp only at h
    split at h
    · cases h
    · cases h; rfl
    · cases h; rfl

end Snapshot

/-- The decision about an identifier for the current snapshot of a store. -/
def Store.check [Limits] (s : Store) (identifier : Value) : Except Fault Decision :=
  s.current.decide identifier

end AdmissionControl
