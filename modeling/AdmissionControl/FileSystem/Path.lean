import AdmissionControl.Fault

/-!
# Paths

A path is a text of segments between slashes.  The functions here are lexical: none of them looks
at a file.

* `normal` drops empty and single-dot segments and lets a double-dot segment cancel the one before.
  Exactly two slashes at the start are kept, more of them count as one.
* `absolute` is `normal` of the path joined to the working directory.
* `parent` and `baseName` split a path at its last slash.
* `Accounts.expand` replaces a leading tilde by a home directory.
* `encode?` turns a path into the bytes that name it; U+DC80 to U+DCFF stand for single bytes.
-/

namespace AdmissionControl.Path

def slash : CodePoint := '/'

def here : Text := "."

def up : Text := ".."

def isAbsolute (path : Text) : Bool := path.head? == some slash

/-- Appends a path to a directory; an absolute path replaces it. -/
def join (directory path : Text) : Text :=
  if isAbsolute path then path
  else if directory.isEmpty || directory.getLast? == some slash then directory ++ path
  else directory ++ slash :: path

/-- Number of slashes that a normal path keeps at its start. -/
def rootSlashes (path : Text) : Nat :=
  match (path.takeWhile (· = slash)).length with
  | 0 => 0
  | 2 => 2
  | _ => 1

/-- One segment more, on segments whose last one comes first. -/
def pushSegment (rooted : Bool) (done : List Text) (segment : Text) : List Text :=
  if segment.isEmpty || segment = here then done
  else if segment = up then
    match done with
    | [] => if rooted then [] else [up]
    | last :: rest => if last = up then up :: done else rest
  else segment :: done

def normalSegments (rooted : Bool) (segments : List Text) : List Text :=
  (segments.foldl (pushSegment rooted) []).reverse

def normal (path : Text) : Text :=
  let slashes := rootSlashes path
  let segments := normalSegments (slashes != 0) (Text.splitOn slash path)
  let whole := List.replicate slashes slash ++ Text.joinWith [slash] segments
  if whole.isEmpty then here else whole

def absolute (workingDirectory path : Text) : Text := normal (join workingDirectory path)

/-- The part up to and with the last slash. -/
def upToLastSlash (path : Text) : Text := (path.reverse.dropWhile (· ≠ slash)).reverse

def dropTrailingSlashes (path : Text) : Text := (path.reverse.dropWhile (· = slash)).reverse

/-- The directory of a path, without trailing slashes unless it consists of them. -/
def parent (path : Text) : Text :=
  let head := upToLastSlash path
  if head.all (· = slash) then head else dropTrailingSlashes head

/-- The part after the last slash. -/
def baseName (path : Text) : Text := (path.reverse.takeWhile (· ≠ slash)).reverse

theorem upToLastSlash_append_baseName (path : Text) :
    upToLastSlash path ++ baseName path = path := by
  simp only [upToLastSlash, baseName, ← List.reverse_append, List.takeWhile_append_dropWhile,
    List.reverse_reverse]

example : normal ("//a/./b/../../../c/" : Text) = Text.ofString "//c" := by decide

example : normal ("a/../../b" : Text) = Text.ofString "../b" := by decide

example : parent ("/work/a.json" : Text) = Text.ofString "/work" := by decide

/-! ### Bytes of a path -/

/-- The byte that a code point stands for, if it stands for one. -/
def escapedByte? (c : CodePoint) : Option UInt8 :=
  if 0xDC80 ≤ c.val ∧ c.val ≤ 0xDCFF then some (UInt8.ofNat (c.val - 0xDC00)) else none

def encodeFrom (position : Nat) : Text → Except Utf8.EncodeError (List UInt8)
  | [] => .ok []
  | c :: rest =>
    match escapedByte? c with
    | some b => (encodeFrom (position + 1) rest).map (b :: ·)
    | none =>
      if c.isSurrogate then
        .error ⟨position, position + 1 + (rest.takeWhile (·.isSurrogate)).length, c⟩
      else (encodeFrom (position + 1) rest).map (Utf8.encodeOne c ++ ·)

def encode? (path : Text) : Except Fault (List UInt8) :=
  match encodeFrom 0 path with
  | .error e => .error (.unencodable e)
  | .ok bytes => if bytes.contains 0 then .error .nullByte else .ok bytes

end Path

/-- Home directories by account name. -/
structure Accounts where
  homes : List (Text × Text)
deriving Repr, Inhabited

namespace Accounts

/-- The accounts of a table with one account a line, of which the first field between colons is the
name and the sixth the home directory. -/
def ofTable (table : Text) : Accounts :=
  ⟨(Text.splitOn '\n' table).filterMap fun line =>
    match Text.splitOn ':' line with
    | name :: _ :: _ :: _ :: _ :: home :: _ => some (name, home)
    | _ => none⟩

/-- Replaces a leading tilde by `home`, and a tilde with a name by the home directory of that
account; the path of an unknown account stays as it is. -/
def expand (accounts : Accounts) (home path : Text) : Except Fault Text :=
  match path with
  | [] => .ok []
  | tilde :: rest =>
    if tilde ≠ '~' then .ok path
    else
      let name := rest.takeWhile (· ≠ Path.slash)
      let tail := rest.dropWhile (· ≠ Path.slash)
      let expanded (home : Text) : Text :=
        let whole := Path.dropTrailingSlashes home ++ tail
        if whole.isEmpty then [Path.slash] else whole
      if name.isEmpty then .ok (expanded home)
      else match Path.encode? name with
        | .error e => .error e
        | .ok _ =>
          match accounts.homes.find? fun a => a.1 = name with
          | some account => .ok (expanded account.2)
          | none => .ok path

end Accounts

end AdmissionControl
