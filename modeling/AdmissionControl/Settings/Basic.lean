import AdmissionControl.Allowlist.Load
import AdmissionControl.Reload.Watcher

/-!
# Settings

Settings say how reloads run and where the service listens.  They come from a mapping of raw values;
every known name has a type and a default, and unknown names are passed over.

* `Settings.ofMembers` checks a mapping and names the first member at fault.
* `Problem.message` words what is wrong with the settings.
-/

namespace AdmissionControl

structure ReloadSettings where
  enabled : Bool
  options : Reload.Options
deriving DecidableEq, Repr

structure ServerSettings where
  host : Text
  port : Int
deriving DecidableEq, Repr

structure Settings where
  version : Value
  source : Option Source
  reload : ReloadSettings
  server : ServerSettings
  /-- The file that the settings were read from, if there was one. -/
  path : Option Text
deriving Repr

namespace Settings

/-- The one version of settings files. -/
def supportedVersion : Int := 1

def default : Settings where
  version := .integer supportedVersion
  source := none
  reload := ⟨true, Reload.Options.default⟩
  server := ⟨"127.0.0.1", 8040⟩
  path := none

/-! ### Problems -/

inductive Problem
  | notASection (name kind : Text)
  | wrongType (name expected kind literal : Text)
  | notPositive (name literal : Text)
  | unreadable (e : FileError)
  | malformed (reason : Text)
  | noVersion
  | notAMapping
  | unsupportedVersion (shown : Text)
  | noSource
  | badPort (given : Text)
  | badReload (given : Text)
deriving DecidableEq, Repr

/-- Variables that the settings depend on. -/
def fileVariable : Text := "SUBGRAPH_ALLOWLIST_FILEPATH"
def inlineVariable : Text := Allowlist.inlineVariable
def configVariable : Text := "SUBGRAPH_GATE_CONFIG"
def portVariable : Text := "SUBGRAPH_GATE_PORT"
def reloadVariable : Text := "SUBGRAPH_GATE_RELOAD"

/-- The words of a problem with the settings of a file. -/
def Problem.detail (path : Text) : Problem → Text
  | notASection name kind =>
    ("'" : Text) ++ name ++ "' in " ++ path ++ " must be a mapping, got " ++ kind ++ "."
  | wrongType name expected kind literal =>
    ("'" : Text) ++ name ++ "' in " ++ path ++ " must be of type " ++ expected ++ ", got " ++
      kind ++ ": " ++ literal
  | notPositive name literal =>
    ("'" : Text) ++ name ++ "' in " ++ path ++ " must be positive, got " ++ literal ++ "."
  | unreadable e => ("Could not read " : Text) ++ path ++ ": " ++ e.describe path
  | malformed reason =>
    ("Failed to parse " : Text) ++ path ++ ": " ++ reason ++
      "\nThe gate refuses to start with an invalid config."
  | noVersion =>
    path ++ " is missing the required 'version' field.\n" ++
      "Add 'version: 1' to the top of your config file."
  | notAMapping =>
    path ++ " is not a valid YAML mapping.\n" ++
      "The config file must be a YAML dictionary at the top level."
  | unsupportedVersion shown =>
    ("Unsupported config version: " : Text) ++ shown ++ ". Supported versions: [" ++
      Text.ofInt supportedVersion ++ "]."
  | noSource =>
    ("No subgraph allowlist configured.\nSet " : Text) ++ fileVariable ++ " to a JSON file or " ++
      inlineVariable ++
      " to a comma-separated list. An empty list is allowed and denies every subgraph."
  | badPort given =>
    portVariable ++ " environment variable is not a valid integer: '" ++ given ++ "'"
  | badReload given => reloadVariable ++ " must be true or false, got '" ++ given ++ "'"

/-- Refused settings, with the file that they come from if they come from one. -/
structure Refusal where
  problem : Problem
  path : Option Text
deriving DecidableEq, Repr

def Refusal.message (r : Refusal) : Text :=
  "CONFIG ERROR: " ++ r.problem.detail (r.path.getD "None")

example : (⟨.unreadable .accessDenied, some "a"⟩ : Refusal).message =
    Text.ofString "CONFIG ERROR: Could not read a: [Errno 13] Permission denied: 'a'" := by
  decide +kernel

inductive Error
  | refused (r : Refusal)
  | fault (f : Fault)
deriving DecidableEq, Repr

def refuse {α : Type} (path : Option Text) (problem : Problem) : Except Error α :=
  .error (.refused ⟨problem, path⟩)

/-- A text for a message, whose writing may be a fault. -/
def written (text : Except Fault Text) : Except Error Text :=
  match text with
  | .ok s => .ok s
  | .error f => .error (.fault f)

/-! ### Members -/

/-- A mapping of raw values. -/
abbrev Members := List (Value × Value)

/-- The members under a name: none if it is missing or null. -/
def members (path : Option Text) (name : Text) (raw : Members) : Except Error Members :=
  match Value.member? name raw with
  | none | some .none => .ok []
  | some (.dict members) => .ok members
  | some v => refuse path (.notASection name v.kind)

/-- What a member must be: how a value is read as such, and the name of the type. -/
structure MemberType (α : Type) where
  name : Text
  ofValue? : Value → Option α

def boolType : MemberType Bool :=
  ⟨"bool", fun
    | .bool b => some b
    | _ => none⟩

/-- A truth value is no integer here. -/
def integerType : MemberType Int :=
  ⟨"int", fun
    | .integer n => some n
    | _ => none⟩

def textType : MemberType Text :=
  ⟨"str", fun
    | .text s => some s
    | _ => none⟩

/-- A member of the given type, or the default if it is missing. -/
def member [Limits] {α : Type} (path : Option Text) (type : MemberType α) (name : Text)
    (default : α) (raw : Members) : Except Error α :=
  match Value.member? name raw with
  | none => .ok default
  | some v =>
    match type.ofValue? v with
    | some a => .ok a
    | none =>
      match v.literal with
      | .ok literal => refuse path (.wrongType name type.name v.kind literal)
      | .error f => .error (.fault f)

def rescanName : Text := "rescan_interval_ms"

def reloadOfMembers [Limits] (path : Option Text) (m : Members) : Except Error ReloadSettings := do
  let standard := Settings.default.reload
  let enabled ← member path boolType "enabled" standard.enabled m
  let forcePolling ← member path boolType "force_polling" standard.options.forcePolling m
  let pollDelay ← member path integerType "poll_delay_ms" standard.options.pollDelay m
  let debounce ← member path integerType "debounce_ms" standard.options.debounce m
  let rescanInterval ← member path integerType rescanName standard.options.rescanInterval m
  if rescanInterval ≤ 0 then
    let literal ← written (Value.integerLiteral rescanInterval)
    refuse path (.notPositive rescanName literal)
  return ⟨enabled, ⟨forcePolling, pollDelay, debounce, rescanInterval⟩⟩

def serverOfMembers [Limits] (path : Option Text) (m : Members) : Except Error ServerSettings := do
  let standard := Settings.default.server
  let host ← member path textType "host" standard.host m
  let port ← member path integerType "port" standard.port m
  return ⟨host, port⟩

/-- The settings that a mapping gives; its version is taken as it is. -/
def ofMembers [Limits] (path : Option Text) (raw : Members) : Except Error Settings := do
  let reload ← reloadOfMembers path (← members path "reload" raw)
  let server ← serverOfMembers path (← members path "server" raw)
  let version := (Value.member? "version" raw).getD Settings.default.version
  return ⟨version, none, reload, server, path⟩

/-- The names that count at the top and in the two sections. -/
def topNames : List Text := ["version", "reload", "server"]

def sectionNames : List Text :=
  ["enabled", "force_polling", "poll_delay_ms", "debounce_ms", rescanName, "host", "port"]

end Settings

end AdmissionControl
