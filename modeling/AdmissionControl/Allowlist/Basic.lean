import AdmissionControl.Audit
import AdmissionControl.Identifier
import AdmissionControl.Sha256

/-!
# Allowlists

An allowlist is a set of normal forms with the source it was loaded from.  `normalizeAll` builds the
set from raw entries and refuses the whole list at the first entry that has no normal form.

* `mem_insertNew` says what adding an entry does to the set.
* `nodup_insertNew` says that no entry is kept twice.
-/

namespace AdmissionControl

inductive SourceKind
  | file
  | inline
deriving DecidableEq, Repr, Inhabited

def SourceKind.name : SourceKind → Text
  | .file => "file"
  | .inline => "inline"

structure Allowlist where
  /-- Normal forms in the order of their first appearance, each of them once. -/
  entries : List Text
  kind : SourceKind
  /-- The path of the file, or where the inline text came from. -/
  location : Text
  /-- Digest of the bytes that were loaded. -/
  checksum : Text
  loadedAt : Instant
deriving DecidableEq, Repr, Inhabited

namespace Allowlist

def size (a : Allowlist) : Nat := a.entries.length

def isEmpty (a : Allowlist) : Bool := a.entries.isEmpty

def contains (a : Allowlist) (entry : Text) : Bool := a.entries.contains entry

/-- Number of entries that are addresses. -/
def addressCount (a : Allowlist) : Nat := a.entries.countP Identifier.isAddress

/-! ### Building the set -/

def insertNew (entries : List Text) (entry : Text) : List Text :=
  if entry ∈ entries then entries else entries ++ [entry]

theorem mem_insertNew (entries : List Text) (entry x : Text) :
    x ∈ insertNew entries entry ↔ x ∈ entries ∨ x = entry := by
  unfold insertNew
  split
  · rename_i h
    constructor
    · exact Or.inl
    · rintro (hx | rfl)
      · exact hx
      · exact h
  · simp

theorem nodup_insertNew {entries : List Text} (h : entries.Nodup) (entry : Text) :
    (insertNew entries entry).Nodup := by
  unfold insertNew
  split
  · exact h
  · rename_i hn
    rw [List.nodup_append]
    refine ⟨h, by simp, ?_⟩
    intro a ha b hb
    simp only [List.mem_singleton] at hb
    rintro rfl
    exact hn (hb ▸ ha)

/-- Why raw entries make no set: the entry at an index is refused, or its normal form fails. -/
inductive EntryError
  | refused (index : Nat) (problem : Identifier.Problem)
  | fault (f : Fault)
deriving DecidableEq, Repr

def normalizeFrom (index : Nat) (done : List Text) : List Value → Except EntryError (List Text)
  | [] => .ok done
  | raw :: rest =>
    match Identifier.normalize raw with
    | .ok entry => normalizeFrom (index + 1) (insertNew done entry) rest
    | .error (.malformed problem) => .error (.refused index problem)
    | .error (.fault f) => .error (.fault f)

def normalizeAll (raw : List Value) : Except EntryError (List Text) := normalizeFrom 0 [] raw

theorem nodup_normalizeFrom {index : Nat} {done : List Text} (hd : done.Nodup) {raw : List Value}
    {entries : List Text} (h : normalizeFrom index done raw = .ok entries) : entries.Nodup := by
  induction raw generalizing index done with
  | nil =>
    simp only [normalizeFrom, Except.ok.injEq] at h
    exact h ▸ hd
  | cons v rest ih =>
    rw [normalizeFrom] at h
    split at h
    · exact ih (nodup_insertNew hd _) h
    · cases h
    · cases h

theorem nodup_normalizeAll {raw : List Value} {entries : List Text}
    (h : normalizeAll raw = .ok entries) : entries.Nodup :=
  nodup_normalizeFrom List.nodup_nil h

end Allowlist

end AdmissionControl
