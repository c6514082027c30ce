import AdmissionControl.Allowlist.Load

/-!
# Snapshots and the store

A snapshot is an allowlist with a version; the store holds the current one.  The first version is
one, and every `publish` raises it by one.  A snapshot that was taken before a publish stays what it
was.

* `version_publish` and `allowlist_publish` say what publishing does to the store.
* `Snapshot.describe` tells everything about a snapshot but its entries.
-/

namespace AdmissionControl

structure Snapshot where
  allowlist : Allowlist
  version : Nat
  publishedAt : Instant
deriving DecidableEq, Repr, Inhabited

namespace Snapshot

/-- Everything about a snapshot but its entries. -/
def description (s : Snapshot) : List (String × Json.Value) :=
  [("version", .ofNat s.version), ("entry_count", .ofNat s.allowlist.size),
    ("source_kind", .string s.allowlist.kind.name),
    ("source_location", .string s.allowlist.location),
    ("loaded_at", .string s.allowlist.loadedAt.iso), ("published_at", .string s.publishedAt.iso),
    ("checksum", .string s.allowlist.checksum)]

def describe (s : Snapshot) : Json.Value := .record s.description

end Snapshot

structure Store where
  current : Snapshot
deriving DecidableEq, Repr, Inhabited

namespace Store

/-- A store with its first snapshot. -/
def new (allowlist : Allowlist) (now : Instant) : Store := ⟨⟨allowlist, 1, now⟩⟩

def version (s : Store) : Nat := s.current.version

/-- Replaces the current snapshot by one of the next version. -/
def publish (s : Store) (allowlist : Allowlist) (now : Instant) : Store :=
  ⟨⟨allowlist, s.version + 1, now⟩⟩

@[simp] theorem version_new (a : Allowlist) (now : Instant) : (new a now).version = 1 := rfl

@[simp] theorem version_publish (s : Store) (a : Allowlist) (now : Instant) :
    (s.publish a now).version = s.version + 1 := rfl

@[simp] theorem allowlist_publish (s : Store) (a : Allowlist) (now : Instant) :
    (s.publish a now).current.allowlist = a := rfl

/-- Publishes an allowlist and records it. -/
def publishRecorded (s : Store) (allowlist : Allowlist) (now : Instant) : StateM Trail Store := do
  let next := s.publish allowlist now
  emit .info "Allowlist snapshot published"
    [("version", .ofNat next.version), ("previous_version", .ofNat s.version),
      ("count", .ofNat allowlist.size), ("previous_count", .ofNat s.current.allowlist.size),
      ("source", .string allowlist.location)]
  return next

end Store

end AdmissionControl
