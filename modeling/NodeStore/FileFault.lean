import NodeStore.Text.Digit

/-!
# Faults of the file system

The faults that reading, writing, creating and removing files can end with, with their numbers
and texts. A path with a NUL is refused before the file system is asked.
-/

namespace NodeStore

/-- Why an operation on files failed. -/
inductive FileFault where
  | notFound
  | inputOutput
  | permissionDenied
  /-- A root, or a path that ends with two dots, cannot be replaced. -/
  | busy
  | alreadyExists
  | notDirectory
  | isDirectory
  | nameTooLong
  | notEmpty
  /-- The path holds a NUL. -/
  | embeddedNul
deriving DecidableEq, Repr

namespace FileFault

/-- The number of a fault and its text. -/
def description : FileFault → Nat × String
  | notFound => (2, "No such file or directory")
  | inputOutput => (5, "Input/output error")
  | permissionDenied => (13, "Permission denied")
  | busy => (16, "Device or resource busy")
  | alreadyExists => (17, "File exists")
  | notDirectory => (20, "Not a directory")
  | isDirectory => (21, "Is a directory")
  | nameTooLong => (36, "File name too long")
  | notEmpty => (39, "Directory not empty")
  | embeddedNul => (0, "embedded null byte")

/-- Reported by the file system. -/
def isSystem (f : FileFault) : Bool :=
  f ≠ embeddedNul

/-- The wording of a fault without the path. -/
def message (f : FileFault) : String :=
  let (number, text) := f.description
  if f.isSystem then "[Errno " ++ Text.decimal number ++ "] " ++ text else text

end FileFault

end NodeStore
