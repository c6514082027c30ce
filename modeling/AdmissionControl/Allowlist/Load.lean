import AdmissionControl.Allowlist.Basic
import AdmissionControl.FileSystem.Tree

/-!
# Loading an allowlist

An allowlist comes from a file or from an inline text.  A file holds one JSON object whose member
`allowlist` is a list of texts; an inline text has its entries between commas, and a blank one has
none.  Loading either yields the whole set or fails.

* `Refusal` says why a source was refused, and words it with the source.
* `load` reads a source, normalizes its entries, and records what was loaded.
* `fileChecksum` is the digest of a file, in the form in which an allowlist carries it.
-/

namespace AdmissionControl

/-- Where an allowlist comes from. -/
inductive Source
  | file (path : Text)
  | inline (content : Value) (location : Text)
  /-- A value that names no source; loading it is a fault. -/
  | bare (value : Value)
deriving Repr, Inhabited

namespace Allowlist

/-- The variable that an inline text comes from unless another location is given. -/
def inlineVariable : Text := "SUBGRAPH_ALLOWEDLIST"

/-- The name of the one member of a document that counts. -/
def memberName : Text := "allowlist"

def separator : CodePoint := ','

/-! ### Refusals -/

inductive Problem
  | fileNotFound
  | unreadable (e : FileError)
  | notUtf8 (e : Utf8.DecodeError)
  | notJson (problem : Json.Problem) (line column : Nat)
  | repeatedName (name : Text)
  | tooManyDigits (count : Nat)
  | notAnObject (kind : Text)
  | noMember
  | notAList (kind : Text)
  | notText (kind : Text)
  | entry (index : Nat) (problem : Identifier.Problem)
deriving DecidableEq, Repr

/-- A refused source. -/
structure Refusal where
  problem : Problem
  source : Text
deriving DecidableEq, Repr

namespace Refusal

/-- The class of a refusal: the source was not there, or it was malformed. -/
def kind (r : Refusal) : Text :=
  match r.problem with
  | .fileNotFound | .unreadable _ => "SourceUnavailable"
  | _ => "MalformedSource"

def problemMessage : Problem → Text
  | .fileNotFound => "Allowlist file not found"
  | .unreadable e => "Could not read allowlist file: " ++ e.message
  | .notUtf8 e => "Allowlist file is not valid UTF-8: " ++ e.message
  | .notJson problem line column =>
    ("Allowlist file is not valid JSON: " : Text) ++ problem.message ++ " (line " ++
      Text.ofNat line ++ ", column " ++ Text.ofNat column ++ ")"
  | .repeatedName name => "Duplicate key in allowlist file: " ++ Text.quoted name
  | .tooManyDigits count => (Fault.tooManyDigits count).message
  | .notAnObject kind => "Allowlist file root must be a JSON object, got " ++ kind
  | .noMember => "Allowlist file has no '" ++ memberName ++ "' key"
  | .notAList kind => ("'" : Text) ++ memberName ++ "' must be a list, got " ++ kind
  | .notText kind => "Inline allowlist must be a string, got " ++ kind
  | .entry index problem =>
    "Allowlist entry #" ++ Text.ofNat index ++ " is invalid: " ++ problem.message

/-- The problem, and the source in brackets unless its name is empty. -/
def message (r : Refusal) : Text :=
  problemMessage r.problem ++
    (if r.source.isEmpty then ([] : Text) else " (source: " ++ r.source ++ Text.ofString ")")

/-- The index of the entry at fault, if it was an entry. -/
def entryIndex? (r : Refusal) : Option Nat :=
  match r.problem with
  | .entry index _ => some index
  | _ => none

end Refusal

inductive LoadError
  | refused (r : Refusal)
  | fault (f : Fault)
deriving DecidableEq, Repr

namespace LoadError

def kind : LoadError → Text
  | refused r => r.kind
  | fault f => f.kind

def message : LoadError → Text
  | refused r => r.message
  | fault f => f.message

end LoadError

def refuse {α : Type} (source : Text) (problem : Problem) : Except LoadError α :=
  .error (.refused ⟨problem, source⟩)

/-! ### Documents -/

/-- The name of the type that a JSON value has as a raw entry. -/
def valueKind : Json.Value → Text
  | .null => "NoneType"
  | .bool _ => "bool"
  | .integer _ => "int"
  | .decimal _ => "float"
  | .string _ => "str"
  | .array _ => "list"
  | .object _ => "dict"

/-- A raw entry; of one that is no text only the type matters. -/
def rawEntry : Json.Value → Value
  | .null => .none
  | .bool b => .bool b
  | .integer n => .integer n
  | .decimal _ => .decimal .nan
  | .string s => .text s
  | .array _ => .list []
  | .object _ => .dict []

def parse [Limits] (path : Text) (bytes : List UInt8) : Except LoadError Json.Value :=
  match Utf8.decode? bytes with
  | .error e => refuse path (.notUtf8 e)
  | .ok text =>
    match Json.parse text with
    | .ok document => .ok document
    | .error (.malformed problem remaining) =>
      let (line, column) := Json.lineColumn text (text.length - remaining)
      refuse path (.notJson problem line column)
    | .error (.repeatedName name) => refuse path (.repeatedName name)
    | .error (.tooManyDigits count) => refuse path (.tooManyDigits count)
    | .error (.tooDeep container) => .error (.fault (.jsonTooDeep container))

/-- The member that counts and the names of all others. -/
def splitMembers (members : List (Text × Json.Value)) : Option Json.Value × List Text :=
  ((members.find? fun m => m.1 = memberName).map (·.2),
    (members.filter fun m => m.1 ≠ memberName).map (·.1))

def warnUnknown (path : Text) (names : List Text) : StateM Trail Unit :=
  if names.isEmpty then pure ()
  else emit .warning "Allowlist file has unrecognised keys - ignoring"
    [("path", .string path), ("keys", .array ((Text.sorted names).map Json.Value.string))]

def rawEntries (path : Text) (document : Json.Value) : Audited LoadError (List Value) := do
  match document with
  | .object members =>
    match splitMembers members with
    | (none, _) => liftM (refuse (α := List Value) path .noMember)
    | (some found, others) =>
      warnUnknown path others
      match found with
      | .array items => return items.map rawEntry
      | other => liftM (refuse (α := List Value) path (.notAList (valueKind other)))
  | other => liftM (refuse (α := List Value) path (.notAnObject (valueKind other)))

/-! ### Reading -/

/-- The problem with a file that cannot be read; only the number tells that there is none. -/
def Problem.ofFileError (e : FileError) : Problem :=
  if e.number = FileError.notFound.number then fileNotFound else unreadable e

def readFile (fs : FileSystem) (path : Text) : Except LoadError (List UInt8) :=
  match fs.read path with
  | .error f => .error (.fault f)
  | .ok (.error e) => refuse path (.ofFileError e)
  | .ok (.ok bytes) => .ok bytes

def fileChecksum (fs : FileSystem) (path : Text) : Except LoadError Text :=
  (readFile fs path).map Sha256.hexDigest

/-- The entries of an inline text as they are written. -/
def splitInline (text : Text) : List Text :=
  if (Text.trim text).isEmpty then [] else Text.splitOn separator text

def entrySet (source : Text) (raw : List Value) : Except LoadError (List Text) :=
  match normalizeAll raw with
  | .ok entries => .ok entries
  | .error (.refused index problem) => refuse source (.entry index problem)
  | .error (.fault f) => .error (.fault f)

def recordLoaded (a : Allowlist) (rawCount : Nat) : StateM Trail Unit := do
  emit .debug "Allowlist loaded"
    [("source_kind", .string a.kind.name), ("source", .string a.location),
      ("count", .ofNat a.size), ("addresses", .ofNat a.addressCount),
      ("duplicates", .ofNat (rawCount - a.size))]
  if a.isEmpty then
    emit .warning "Allowlist is empty - every subgraph will be denied"
      [("source", .string a.location)]

/-- Loads the bytes of a file. -/
def loadBytes [Limits] (path : Text) (bytes : List UInt8) (now : Instant) :
    Audited LoadError Allowlist := do
  let document ← liftM (parse path bytes)
  let raw ← rawEntries path document
  let entries ← liftM (entrySet path raw)
  let allowlist : Allowlist := ⟨entries, .file, path, Sha256.hexDigest bytes, now⟩
  recordLoaded allowlist raw.length
  return allowlist

def loadInline (content : Value) (location : Text) (now : Instant) :
    Audited LoadError Allowlist := do
  match content with
  | .text text =>
    let raw := splitInline text
    let entries ← liftM (entrySet location (raw.map Value.text))
    match Utf8.encode? text with
    | .error e => throw (.fault (.unencodable e))
    | .ok bytes =>
      let allowlist : Allowlist := ⟨entries, .inline, location, Sha256.hexDigest bytes, now⟩
      recordLoaded allowlist raw.length
      return allowlist
  | other => liftM (refuse (α := Allowlist) location (.notText other.kind))

def load [Limits] (fs : FileSystem) (source : Source) (now : Instant) :
    Audited LoadError Allowlist := do
  match source with
  | .file path =>
    let bytes ← liftM (readFile fs path)
    loadBytes path bytes now
  | .inline content location => loadInline content location now
  | .bare value => throw (.fault (.unsupportedSource value.kind))

end Allowlist

end AdmissionControl
