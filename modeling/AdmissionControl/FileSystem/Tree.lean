import AdmissionControl.FileSystem.Path
import AdmissionControl.Text.Quoted

/-!
# A tree of files

A tree maps locations, lists of byte names from the root down, to files and directories.  `walk`
follows a path segment by segment: a double dot goes to the directory above, and every segment but
the last, and the last if a slash follows it, must name a directory.  The system may refuse an
entry: a file that is there cannot be read, or a name cannot be followed.

* `FileError` is an error of the system, for any reason that it may have.
* `read` answers the content of a file or the reason why there is none, and `regular?` does so for
  what is known to be a regular file.
* `write`, `refuse`, `remove` and `rename` change a tree; directories above an entry are made.
-/

namespace AdmissionControl

abbrev Name := List UInt8

/-- Names from the root down. -/
abbrev Location := List Name

/-- An error of the system: its number and what it says. -/
structure FileError where
  number : Nat
  message : Text
  /-- Whether it came with a path, as the errors do that keep a file from being opened. -/
  tellsPath : Bool
  /-- An empty message would be taken for none. -/
  said : message ≠ []
deriving DecidableEq, Repr

namespace FileError

def notFound : FileError := ⟨2, "No such file or directory", true, by decide⟩
def inputOutput : FileError := ⟨5, "Input/output error", false, by decide⟩
def accessDenied : FileError := ⟨13, "Permission denied", true, by decide⟩
def notDirectory : FileError := ⟨20, "Not a directory", true, by decide⟩
def isDirectory : FileError := ⟨21, "Is a directory", true, by decide⟩
def nameTooLong : FileError := ⟨36, "File name too long", true, by decide⟩
def linkLoop : FileError := ⟨40, "Too many levels of symbolic links", true, by decide⟩

/-- An error in one line, with its path. -/
def describe (e : FileError) (path : Text) : Text :=
  ("[Errno " : Text) ++ Text.ofNat e.number ++ "] " ++ e.message ++
    (if e.tellsPath then ": " ++ Text.quoted path else ([] : Text))

end FileError

inductive Entry
  | file (content : List UInt8)
  | directory
  /-- A regular file that cannot be read, for want of permission or with a broken disk. -/
  | unreadable (e : FileError)
  /-- A name that cannot be followed, as that of a link to itself. -/
  | unreachable (e : FileError)
deriving DecidableEq, Repr

structure Tree where
  entries : List (Location × Entry)
deriving DecidableEq, Repr, Inhabited

namespace Tree

/-- Longest name of a file, in bytes. -/
def maxName : Nat := 255

/-- Longest path, in bytes. -/
def maxPath : Nat := 4095

def empty : Tree := ⟨[]⟩

/-- The entry at a location; the root is a directory. -/
def entryAt? (tree : Tree) (location : Location) : Option Entry :=
  if location.isEmpty then some .directory
  else (tree.entries.find? fun e => e.1 = location).map (·.2)

/-- Sets the entry at one location and leaves all others. -/
def set (tree : Tree) (location : Location) (entry : Entry) : Tree :=
  ⟨(location, entry) :: tree.entries.filter fun e => e.1 ≠ location⟩

/-! ### Walking a path -/

def dot : Name := [0x2E]

def dotDot : Name := [0x2E, 0x2E]

/-- The names between slashes, empty ones included. -/
def splitNames : List UInt8 → List Name
  | [] => [[]]
  | b :: rest =>
    if b = 0x2F then [] :: splitNames rest
    else match splitNames rest with
      | [] => [[b]]
      | name :: names => (b :: name) :: names

/-- One segment from a location, which must be that of a directory. -/
def step (tree : Tree) (location : Location) (segment : Name) : Except FileError Location :=
  match tree.entryAt? location with
  | none => .error .notFound
  | some (.file _) | some (.unreadable _) => .error .notDirectory
  | some (.unreachable e) => .error e
  | some .directory =>
    if segment = dot then .ok location
    else if segment = dotDot then .ok location.dropLast
    else if maxName < segment.length then .error .nameTooLong
    else
      let next := location ++ [segment]
      if (tree.entryAt? next).isSome then .ok next else .error .notFound

def steps (tree : Tree) (location : Location) : List Name → Except FileError Location
  | [] => .ok location
  | segment :: rest =>
    match tree.step location segment with
    | .error e => .error e
    | .ok next => tree.steps next rest

/-- The segments that a path makes the walk take.  A slash at the end asks for a directory, as a
single dot does. -/
def segments (path : List UInt8) : List Name :=
  (splitNames path).filter (·.length ≠ 0) ++ (if path.getLast? = some 0x2F then [dot] else [])

/-- The location that a path leads to from a working directory. -/
def walk (tree : Tree) (workingDirectory : Location) (path : List UInt8) :
    Except FileError Location :=
  if path.isEmpty then .error .notFound
  else if maxPath < path.length then .error .nameTooLong
  else
    tree.steps (if path.head? = some 0x2F then [] else workingDirectory) (segments path)

def contentAt (tree : Tree) (location : Location) : Except FileError (List UInt8) :=
  match tree.entryAt? location with
  | some (.file content) => .ok content
  | some (.unreadable e) | some (.unreachable e) => .error e
  | some .directory => .error .isDirectory
  | none => .error .notFound

/-- Whether a regular file stands at a location. -/
def isRegular (tree : Tree) (location : Location) : Bool :=
  match tree.entryAt? location with
  | some (.file _) | some (.unreadable _) => true
  | some .directory | some (.unreachable _) | none => false

/-! ### Changes -/

/-- The locations above a location, the root left out. -/
def ancestors (location : Location) : List Location :=
  (List.range (location.length - 1)).map fun i => location.take (i + 1)

def makeDirectory (tree : Tree) (location : Location) : Tree :=
  if (tree.entryAt? location).isSome then tree else tree.set location .directory

def makeDirectories (tree : Tree) (locations : List Location) : Tree :=
  locations.foldl makeDirectory tree

def put (tree : Tree) (location : Location) (entry : Entry) : Tree :=
  (tree.makeDirectories (ancestors location)).set location entry

def isWithin (location below : Location) : Bool := location.isPrefixOf below

/-- Removes an entry with everything under it. -/
def remove (tree : Tree) (location : Location) : Tree :=
  ⟨tree.entries.filter fun e => !isWithin location e.1⟩

/-- Moves an entry with everything under it; what stood at the target is gone. -/
def rename (tree : Tree) (source target : Location) : Tree :=
  if (tree.entryAt? source).isNone || source = target then tree
  else
    let moved := tree.entries.filter fun e => isWithin source e.1
    let rest := (tree.remove source).remove target
    ⟨moved.map (fun e => (target ++ e.1.drop source.length, e.2)) ++ rest.entries⟩

end Tree

/-- A tree of files with the directory from which relative paths start. -/
structure FileSystem where
  tree : Tree
  workingDirectory : Text
deriving Repr, Inhabited

namespace FileSystem

/-- The location of a path by its names alone; it need not exist. -/
def location (fs : FileSystem) (path : Text) : Except Fault Location := do
  let bytes ← Path.encode? (Path.absolute fs.workingDirectory path)
  return (Tree.splitNames bytes).filter (·.length ≠ 0)

/-- The location that a path leads to; the outer failure is a path that names nothing. -/
def locate (fs : FileSystem) (path : Text) : Except Fault (Except FileError Location) := do
  let bytes ← Path.encode? path
  let start ← fs.location []
  return fs.tree.walk start bytes

/-- The content of the file at a path. -/
def read (fs : FileSystem) (path : Text) : Except Fault (Except FileError (List UInt8)) := do
  let found ← fs.locate path
  return do
    let location ← found
    fs.tree.contentAt location

/-- What a regular file holds, or why it cannot be read; nothing if the path leads to none. -/
def regular? (fs : FileSystem) (path : Text) : Option (Except FileError (List UInt8)) :=
  match fs.locate path with
  | .ok (.ok location) =>
    if fs.tree.isRegular location then some (fs.tree.contentAt location) else none
  | _ => none

/-- Changes the tree at the location of a path; a path that names nothing changes nothing. -/
def change (fs : FileSystem) (path : Text) (f : Tree → Location → Tree) : FileSystem :=
  match fs.location path with
  | .ok location => { fs with tree := f fs.tree location }
  | .error _ => fs

def write (fs : FileSystem) (path : Text) (content : List UInt8) : FileSystem :=
  fs.change path fun tree location => tree.put location (.file content)

/-- A regular file that cannot be read. -/
def refuse (fs : FileSystem) (path : Text) (e : FileError) : FileSystem :=
  fs.change path fun tree location => tree.put location (.unreadable e)

def makeDirectory (fs : FileSystem) (path : Text) : FileSystem :=
  fs.change path fun tree location => tree.put location .directory

def remove (fs : FileSystem) (path : Text) : FileSystem :=
  fs.change path Tree.remove

def rename (fs : FileSystem) (source target : Text) : FileSystem :=
  match fs.location target with
  | .ok target => fs.change source fun tree source => tree.rename source target
  | .error _ => fs

/-- A file system with nothing but its working directory. -/
def new (workingDirectory : Text) : FileSystem :=
  (⟨Tree.empty, workingDirectory⟩ : FileSystem).makeDirectory workingDirectory

end FileSystem

end AdmissionControl
