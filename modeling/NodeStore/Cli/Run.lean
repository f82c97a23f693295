import NodeStore.Cli.Reply

/-!
# Running a command line

A command line is read in two parts. The words up to the command's name tell how the node is
configured and logs; the configuration is loaded and the log set up before the command's own words
are read. The command then opens a node, does its work and closes the node again. Logging ends
with the command.
-/

namespace NodeStore.Cli

/-- A command line as it is called: its words, the environment, and what is typed. -/
structure Call where
  words : List String
  environment : Environment := []
  input : String := ""

/-- What came of a call: what was shown, and how it ended. -/
structure Outcome where
  shown : String
  ending : Ending
deriving DecidableEq, Repr

/-- All that the operator sees. -/
def Outcome.output (o : Outcome) : String :=
  o.shown ++ Text.withoutEscapes o.ending.text

/-- The version that is told. -/
def version : String := "0.1.0"

/-! ## Options in front of the command -/

/-- The options that stand in front of every command. -/
structure Settings where
  debug : Bool := false
  dataDir : Option String := none
  envFile : Option String := none
  logFile : Bool := false
deriving DecidableEq, Repr

namespace Settings

/-- The options by name. -/
def forms : List OptionForm :=
  [⟨"--debug", false⟩, ⟨"--data-dir", true⟩, ⟨"--env-file", true⟩, ⟨"--log-file", false⟩,
    versionOption, helpOption]

/-- The settings that were given. An empty value counts as none. -/
def ofScanned (s : Scanned) : Settings where
  debug := s.has "--debug"
  dataDir := (s.value? "--data-dir").filter (· ≠ "")
  envFile := (s.value? "--env-file").filter (· ≠ "")
  logFile := s.has "--log-file"

/-- The home directory that an environment names. -/
def home (env : Environment) : String :=
  match env.lookup "HOME" with
  | some "" | none => "/"
  | some dir => dir

/-- The values that the command line overrides. -/
def overrides (s : Settings) (env : Environment) : List (String × Json) :=
  match s.dataDir with
  | none => []
  | some dir => [("storage_dir", .str ((Path.ofString dir).expandHome (home env)).toString)]

/-- The file of environment variables, if one is named and is there. -/
def envFileBytes (s : Settings) : HostM (Option Bytes) := do
  match s.envFile with
  | none => return none
  | some name =>
    let h ← get
    match h.files.read h.workDir (Path.ofString name) with
    | .ok b => return some b
    | .error fault => if fault.isSystem then return none else throw (.file fault)

/-- The level that is logged from. -/
def logLevel (s : Settings) : Int :=
  if s.debug then LogLevel.debug else LogLevel.info

/-- Sets up the log. -/
def setUpLog (s : Settings) (config : Config) : HostM Unit := do
  let h ← get
  let file := if s.logFile then some config.logDir else none
  let (made, files) := h.logging.setUp s.logLevel file true h.files h.workDir
  match made with
  | .ok logging => set { h with files, logging }
  | .error fault =>
    set { h with files }
    throw (.file fault)

/-- The configuration. -/
def configuration (s : Settings) (env : Environment) : HostM Config := do
  let file ← s.envFileBytes
  liftM (Config.load .json EnvFile.read (s.overrides env) env file)

/-- Loads the configuration and sets up the log. -/
def apply (s : Settings) (env : Environment) : HostM Config := do
  let config ← s.configuration env
  s.setUpLog config
  return config

end Settings

/-! ## Commands -/

namespace Command

/-- Opens a node, does the work of a command and closes the node. -/
def onNode (c : Command) (config : Config) : HostM Reply := do
  let node ← if c.startsNode then Node.start config else Node.open config
  let h ← get
  let (reply, node, h) := Node.run c.work node h
  let (_, _, h) := Node.run Node.close node h
  set h
  liftM reply

/-- The outcome of a reply. -/
def outcome : Except Failure Reply → Outcome
  | .ok reply =>
    match reply.text with
    | .ok text => ⟨text, .done⟩
    | .error message => ⟨"", .refused message⟩
  | .error failure =>
    ⟨"", if failure.isStore then .refused failure.message else .crashed failure⟩

/-- Carries a command out. -/
def run (c : Command) (config : Config) (h : Host) : Outcome × Host :=
  match c.usageFault? with
  | some fault => (⟨"", .misused fault⟩, h)
  | none =>
    let (reply, h) := (ExceptT.run (c.onNode config)).run h
    (outcome reply, h)

end Command

/-- Reads the words of an entry and carries its command out. -/
def runEntry (e : Entry) (name : String) (words : List String) (input : String) (config : Config)
    (h : Host) : Outcome × Host :=
  match e.read name words input with
  | (shown, .error ending) => (⟨shown, ending⟩, h)
  | (shown, .ok command) =>
    let (outcome, h) := command.run config h
    ({ outcome with shown := shown ++ outcome.shown }, h)

/-- Runs an entry with the options that stand in front of it. Logging ends with it. -/
def runWith (settings : Settings) (e : Entry) (name : String) (words : List String) (call : Call)
    (h : Host) : Outcome × Host :=
  let (applied, h) := (ExceptT.run (settings.apply call.environment)).run h
  let (outcome, h) : Outcome × Host := match applied with
    | .error failure => (⟨"", .crashed failure⟩, h)
    | .ok config => runEntry e name words call.input config h
  (outcome, { h with logging := {} })

/-- Runs a command line. -/
def run (call : Call) (h : Host) : Outcome × Host :=
  match select Settings.forms entries call.words with
  | .error fault => (⟨"", .misused fault⟩, h)
  | .ok .version => (⟨"cli, version " ++ version ++ "\n", .done⟩, h)
  | .ok .help => (⟨"Usage: cli [OPTIONS] COMMAND [ARGS]...\n", .done⟩, h)
  | .ok (.entry options name e rest) => runWith (Settings.ofScanned options) e name rest call h

end NodeStore.Cli
