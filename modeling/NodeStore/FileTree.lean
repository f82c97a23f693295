import NodeStore.Assoc
import NodeStore.FileFault
import NodeStore.Path
import NodeStore.Table.Tables
import NodeStore.Text.Utf8

/-!
# Files

The files of a machine: what stands at each place, where a place is the list of names from the
root. There are folders, files of bytes, and files that hold a database. Operations take the
place that relative paths start from, and answer with a fault or with the files afterwards.
-/

namespace NodeStore

/-- The names from the root to a file or folder. -/
abbrev Place := List String

/-- What stands at a place. -/
inductive FileEntry where
  | folder
  | file (content : Bytes)
  | database (tables : Tables)
deriving DecidableEq, Repr

/-- The files of a machine. The root itself is always a folder. -/
structure FileTree where
  entries : List (Place × FileEntry) := []

namespace FileTree

/-- What stands at a place. -/
def entry? (t : FileTree) (p : Place) : Option FileEntry :=
  if p = [] then some .folder else t.entries.lookup p

/-- Puts something at a place. -/
def put (t : FileTree) (p : Place) (e : FileEntry) : FileTree :=
  ⟨Assoc.put p e t.entries⟩

/-- Empties a place. -/
def erase (t : FileTree) (p : Place) : FileTree :=
  ⟨t.entries.filter fun e => e.1 ≠ p⟩

/-- The greatest length of a name in bytes. -/
def maxName : Nat := 255

/-- The place of a path that is followed from a folder. Every name but the last must be the name
of a folder. -/
def follow (t : FileTree) (here : Place) : List String → Except FileFault Place
  | [] => .ok here
  | name :: rest =>
    match t.entry? here with
    | none => .error .notFound
    | some .folder =>
      if maxName < (Utf8.encode name).length then .error .nameTooLong
      else if name = ".." then follow t here.dropLast rest
      else follow t (here ++ [name]) rest
    | some _ => .error .notDirectory

/-- The place of a path. -/
def resolve (t : FileTree) (workDir : Place) (p : Path) : Except FileFault Place :=
  if p.parts.any fun name => name.toList.any fun c => c.toNat == 0 then .error .embeddedNul
  else t.follow (if p.isAbsolute then [] else workDir) p.parts

/-- What stands at the place of a path. -/
def find (t : FileTree) (workDir : Place) (p : Path) : Except FileFault FileEntry := do
  let place ← t.resolve workDir p
  match t.entry? place with
  | some e => .ok e
  | none => .error .notFound

/-- What stands at the place of a path, if anything does. Only a name that is too long cannot be
asked for. -/
def find? (t : FileTree) (workDir : Place) (p : Path) : Except FileFault (Option FileEntry) :=
  match t.find workDir p with
  | .ok e => .ok (some e)
  | .error .nameTooLong => .error .nameTooLong
  | .error _ => .ok none

/-- A folder stands at the place of a path. -/
def isFolder (t : FileTree) (workDir : Place) (p : Path) : Bool :=
  match t.find workDir p with
  | .ok .folder => true
  | _ => false

/-- The first bytes of a file that holds a database. -/
def databaseMark : Bytes := Utf8.encode "SQLite format 3" ++ [0]

/-- The bytes of a file. -/
def read (t : FileTree) (workDir : Place) (p : Path) : Except FileFault Bytes := do
  match ← t.find workDir p with
  | .file b => .ok b
  | .database _ => .ok databaseMark
  | .folder => .error .isDirectory

/-- The place at which a file may be written. -/
def writable (t : FileTree) (workDir : Place) (p : Path) : Except FileFault Place := do
  let place ← t.resolve workDir p
  match t.entry? place with
  | some .folder => .error .isDirectory
  | _ =>
    match t.entry? place.dropLast with
    | some .folder => .ok place
    | some _ => .error .notDirectory
    | none => .error .notFound

/-- Writes a file. It is written whole or not at all; a disk that fails half-way is not among the
faults. -/
def write (t : FileTree) (workDir : Place) (p : Path) (content : Bytes) :
    Except FileFault FileTree :=
  (t.writable workDir p).map fun place => t.put place (.file content)

/-- Adds to a file, which may not be there yet. -/
def append (t : FileTree) (place : Place) (content : Bytes) : FileTree :=
  match t.entry? place with
  | some (.file old) => t.put place (.file (old ++ content))
  | some _ => t
  | none => t.put place (.file content)

/-- Makes a folder. -/
def makeFolder (t : FileTree) (workDir : Place) (p : Path) : Except FileFault FileTree := do
  let place ← t.resolve workDir p
  match t.entry? place, t.entry? place.dropLast with
  | some _, _ => .error .alreadyExists
  | none, some .folder => .ok (t.put place .folder)
  | none, some _ => .error .notDirectory
  | none, none => .error .notFound

/-- Makes a folder unless there is one. -/
def ensureFolder (t : FileTree) (workDir : Place) (p : Path) : Except FileFault FileTree :=
  match t.makeFolder workDir p with
  | .error fault => if t.isFolder workDir p then .ok t else .error fault
  | made => made

/-- Makes a folder and the folders that it lies in, given the names of its path from the last to
the first. Folders that were made stay even if a later one cannot be made. -/
def makeFolders (t : FileTree) (workDir : Place) (start : Path.Root) :
    (reversed : List String) → Except FileFault Unit × FileTree
  | [] =>
    match t.ensureFolder workDir ⟨start, []⟩ with
    | .ok t => (.ok (), t)
    | .error fault => (.error fault, t)
  | name :: parents =>
    let p : Path := ⟨start, (name :: parents).reverse⟩
    match t.ensureFolder workDir p with
    | .ok t => (.ok (), t)
    | .error .notFound =>
      match t.makeFolders workDir start parents with
      | (.ok (), t) =>
        match t.ensureFolder workDir p with
        | .ok t => (.ok (), t)
        | .error fault => (.error fault, t)
      | failed => failed
    | .error fault => (.error fault, t)

/-- Makes a folder and the folders that it lies in. -/
def makeAll (t : FileTree) (workDir : Place) (p : Path) : Except FileFault Unit × FileTree :=
  t.makeFolders workDir p.root p.parts.reverse

/-- Something lies below a place. -/
def hasBelow (t : FileTree) (place : Place) : Bool :=
  t.entries.any fun e => place.isPrefixOf e.1 && e.1 ≠ place

/-- Removes a file or an empty folder. -/
def remove (t : FileTree) (workDir : Place) (p : Path) : Except FileFault FileTree := do
  let place ← t.resolve workDir p
  match t.entry? place with
  | none => .error .notFound
  | some .folder => if t.hasBelow place then .error .notEmpty else .ok (t.erase place)
  | some _ => .ok (t.erase place)

/-- The relative paths of all that lies below a place; those of folders end with a slash. -/
def below (t : FileTree) (place : Place) : List String :=
  t.entries.filterMap fun (p, e) =>
    if place.isPrefixOf p && p ≠ place then
      let s := "/".intercalate (p.drop place.length)
      some (match e with | .folder => s ++ "/" | _ => s)
    else none

end FileTree

end NodeStore
