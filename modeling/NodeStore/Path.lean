import NodeStore.Text.Line

/-!
# Paths

A path is relative, or starts at the root, which is written with one slash or with exactly two.
Empty parts and parts that are a single dot are dropped when a path is read; two dots are kept.
The path without parts is written as a dot.
-/

namespace NodeStore

/-- Where a path starts. -/
inductive Path.Root where
  | relative
  | root
  | doubleRoot
deriving DecidableEq, Repr

/-- A path: where it starts, and its parts. -/
structure Path where
  root : Path.Root
  parts : List String
deriving DecidableEq, Repr

namespace Path

/-- How the start of a path is written. -/
def Root.text : Root → String
  | relative => ""
  | root => "/"
  | doubleRoot => "//"

/-- The start of a path that begins with the given characters. -/
def rootOf : List Char → Root
  | '/' :: '/' :: '/' :: _ => .root
  | '/' :: '/' :: _ => .doubleRoot
  | '/' :: _ => .root
  | _ => .relative

/-- Reads a path. -/
def ofString (s : String) : Path where
  root := rootOf s.toList
  parts := ((Text.splitOnChar '/' s.toList).map String.ofList).filter fun p => p ≠ "" ∧ p ≠ "."

/-- Writes a path. -/
def toString (p : Path) : String :=
  let s := p.root.text ++ "/".intercalate p.parts
  if s = "" then "." else s

/-- Starts at the root. -/
def isAbsolute (p : Path) : Bool :=
  p.root ≠ .relative

/-- A path seen from another: one that starts at the root replaces it. -/
def join (p q : Path) : Path :=
  if q.isAbsolute then q else ⟨p.root, p.parts ++ q.parts⟩

instance : HDiv Path String Path where
  hDiv p s := p.join (ofString s)

/-- The path without its last part. -/
def parent (p : Path) : Path :=
  ⟨p.root, p.parts.dropLast⟩

/-- The last part. -/
def name (p : Path) : String :=
  p.parts.getLast?.getD ""

/-- A path that begins with a tilde, seen from a home directory. -/
def expandHome (home : String) (p : Path) : Path :=
  match p.root, p.parts with
  | .relative, "~" :: rest => (ofString home).join ⟨.relative, rest⟩
  | _, _ => p

end Path

end NodeStore
