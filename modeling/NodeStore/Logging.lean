import NodeStore.FileTree

/-!
# Logging

Every subsystem logs under one root. A configuration of the root has a level and handlers: one
for the console, and possibly one for a file, which is appended to. A message reaches the handlers
if its level reaches the effective level of the root, which is the configured one, or that of
warnings when the configured one is zero; each handler then looks at its own level. The first use
of a logger installs the default configuration, and later configurations count only when they are
forced.
-/

namespace NodeStore

/-- A message of a subsystem. -/
structure LogLine where
  level : Int
  subsystem : String
  message : String
deriving DecidableEq, Repr

namespace LogLevel

/-- Details for those who look for a fault. -/
def debug : Int := 10

/-- What was done. -/
def info : Int := 20

/-- Something is not as it should be. -/
def warning : Int := 30

/-- Something failed. -/
def error : Int := 40

/-- The name of a level. -/
def name (level : Int) : String :=
  if level = 10 then "DEBUG"
  else if level = 20 then "INFO"
  else if level = 30 then "WARNING"
  else if level = 40 then "ERROR"
  else if level = 50 then "CRITICAL"
  else if level = 0 then "NOTSET"
  else "Level " ++ Text.decimalInt level

/-- The escape that ends a color. -/
def reset : String := "\x1b[0m"

/-- The escapes of the color of a level. -/
def color (level : Int) : String :=
  if level = 10 then "\x1b[36m"
  else if level = 20 then "\x1b[32m"
  else if level = 30 then "\x1b[33m"
  else if level = 40 then "\x1b[31m"
  else if level = 50 then "\x1b[31m\x1b[47m"
  else ""

end LogLevel

namespace LogLine

/-- The root of all loggers. -/
def rootName : String := "lnstore"

/-- The full name of a subsystem's logger. -/
def loggerName (subsystem : String) : String :=
  rootName ++ "." ++ subsystem

/-- A text with spaces up to a width. -/
def padTo (width : Nat) (s : String) : String :=
  s ++ String.ofList (List.replicate (width - s.length) ' ')

/-- Time, logger and level of a line. -/
def heading (time : String) (l : LogLine) : String :=
  time ++ " [" ++ loggerName l.subsystem ++ "] " ++ padTo 8 (LogLevel.name l.level)

/-- A line of a log file. -/
def fileText (time : String) (l : LogLine) : String :=
  l.heading time ++ " " ++ l.message ++ "\n"

/-- A line of the console, whose heading is colored. -/
def consoleText (time : String) (l : LogLine) : String :=
  let text := LogLevel.color l.level ++ l.heading time ++ LogLevel.reset ++ " " ++ l.message
  (if LogLevel.reset.toList.isSuffixOf text.toList then text else text ++ LogLevel.reset) ++ "\n"

end LogLine

/-- Where a handler writes. -/
inductive LogSink where
  | console
  | file (place : Place)
deriving DecidableEq, Repr

/-- A handler writes the lines that reach its level. -/
structure LogHandler where
  sink : LogSink
  level : Int
deriving DecidableEq, Repr

/-- The configuration of the root logger. -/
structure Logging where
  configured : Bool := false
  level : Int := 0
  handlers : List LogHandler := []
deriving DecidableEq, Repr

namespace Logging

/-- The name of the log file. -/
def fileName : String := "lnstore.log"

/-- The directory of the log file when none is given. -/
def defaultDir : String := "logs"

/-- Makes the log file ready to be appended to. -/
def openFile (files : FileTree) (workDir : Place) (dir : Path) :
    Except FileFault Place × FileTree :=
  match files.makeAll workDir dir with
  | (.error fault, files) => (.error fault, files)
  | (.ok (), files) =>
    match files.writable workDir (dir / fileName) with
    | .error fault => (.error fault, files)
    | .ok place => (.ok place, files.append place [])

/-- Installs a configuration, whether or not there is one. The file is in the given directory,
if there is to be one. -/
def install (level : Int) (file : Option Path) (files : FileTree) (workDir : Place) :
    Except FileFault Logging × FileTree :=
  let console : LogHandler := ⟨.console, level⟩
  match file with
  | none => (.ok ⟨true, level, [console]⟩, files)
  | some dir =>
    match openFile files workDir dir with
    | (.error fault, files) => (.error fault, files)
    | (.ok place, files) => (.ok ⟨true, level, [console, ⟨.file place, level⟩]⟩, files)

/-- Installs a configuration unless there is one and this one is not forced. -/
def setUp (s : Logging) (level : Int) (file : Option Path) (force : Bool) (files : FileTree)
    (workDir : Place) : Except FileFault Logging × FileTree :=
  if s.configured ∧ !force then (.ok s, files) else install level file files workDir

/-- The configuration after a logger has been asked for. -/
def used (s : Logging) : Logging :=
  if s.configured then s else ⟨true, LogLevel.info, [⟨.console, LogLevel.info⟩]⟩

/-- The level that a message has to reach. -/
def effectiveLevel (s : Logging) : Int :=
  if s.level = 0 then LogLevel.warning else s.level

/-- A message of this level reaches the handlers. A level that is not positive never does. -/
def passes (s : Logging) (level : Int) : Bool :=
  0 < level && s.effectiveLevel ≤ level

/-- The handlers that write a line. -/
def writers (s : Logging) (l : LogLine) : List LogHandler :=
  if s.passes l.level then s.handlers.filter fun h => h.level ≤ l.level else []

/-- Writes a line: what appears on the console, and the files afterwards. -/
def write (s : Logging) (time : String) (l : LogLine) (files : FileTree) : String × FileTree :=
  (s.writers l).foldl
    (fun (console, files) h =>
      match h.sink with
      | .console => (console ++ l.consoleText time, files)
      | .file place => (console, files.append place (Utf8.encode (l.fileText time))))
    ("", files)

end Logging

end NodeStore
