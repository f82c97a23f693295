import NodeStore.Cli.Options
import NodeStore.Cli.Prompt
import NodeStore.Failure
import NodeStore.Text.Raw

/-!
# Commands

What an operator can ask of a node, and how it is typed. A command is named by one word, or by a
topic and a word. Its words are read from left to right: options first, then the arguments it
needs, then its password if it needs one, and last it is checked that no words are left over.
-/

namespace NodeStore.Cli

/-- What an operator can ask of a node. -/
inductive Command where
  /-- Stores a phrase, or a new one if none or an empty one is given. -/
  | init (phrase : Option String) (password : RawText)
  /-- Tells whether the password opens the stored phrase. -/
  | unlock (password : RawText)
  /-- Moves a backup's sealed phrase into the secret store. -/
  | restore (password : RawText)
  | migrate
  | showSetting (key : String)
  | saveSetting (key value : String) (publishes : Bool)
  | publish
  | listPeers
  | removePeer (key : String)
  | revoke (id : String)
  | listRevoked
deriving DecidableEq, Repr

/-- A command by its name alone. -/
inductive Verb where
  | init
  | unlock
  | restore
  | migrate
  | showSetting
  | saveSetting
  | publish
  | listPeers
  | removePeer
  | revoke
  | listRevoked
deriving DecidableEq, Repr

/-- What a word that names no option stands for: a command, or a topic with its commands. -/
inductive Entry where
  | verb (verb : Verb)
  | topic (verbs : List (String × Verb))
deriving DecidableEq, Repr

/-- The commands and topics. -/
def entries : List (String × Entry) :=
  [("init", .verb .init), ("unlock", .verb .unlock), ("restore-legacy-seed", .verb .restore),
    ("migrate", .verb .migrate),
    ("config", .topic [("get", .showSetting), ("set", .saveSetting), ("sync", .publish)]),
    ("peers", .topic [("list", .listPeers), ("remove", .removePeer)]),
    ("tokens", .topic [("revoke", .revoke), ("list", .listRevoked)])]

/-- How a command ended. -/
inductive Ending where
  | done
  | misused (fault : UsageFault)
  /-- It did not succeed, for a reason that the operator is told. -/
  | refused (message : String)
  /-- The input ended before a password was known. -/
  | aborted
  /-- It failed with a failure outside the kinds that the operator is told of. -/
  | crashed (failure : Failure)
deriving DecidableEq, Repr

namespace Ending

/-- The exit code. -/
def code : Ending → Nat
  | done => 0
  | misused _ => 2
  | refused _ | aborted | crashed _ => 1

/-- What the operator is told. -/
def text : Ending → String
  | done | crashed _ => ""
  | misused fault => "Error: " ++ fault.message ++ "\n"
  | refused message => "Error: " ++ message ++ "\n"
  | aborted => "\nAborted!\n"

end Ending

/-! ## Reading -/

namespace Verb

/-- The option with a password. -/
def passwordOption : OptionForm := ⟨"--password", true⟩

/-- The option with a phrase. -/
def phraseOption : OptionForm := ⟨"--mnemonic", true⟩

/-- The option to publish a setting. -/
def syncOption : OptionForm := ⟨"--sync", false⟩

/-- The option not to publish a setting. -/
def noSyncOption : OptionForm := ⟨"--no-sync", false⟩

/-- The options of a command, besides the one that asks how it is used. -/
def ownOptions : Verb → List OptionForm
  | init => [phraseOption, passwordOption]
  | unlock | restore => [passwordOption]
  | saveSetting => [syncOption, noSyncOption]
  | _ => []

/-- All options of a command. -/
def options (v : Verb) : List OptionForm :=
  v.ownOptions ++ [helpOption]

/-- The names of the arguments. -/
def arguments : Verb → List String
  | showSetting => ["KEY"]
  | saveSetting => ["KEY", "VALUE"]
  | removePeer => ["PUBKEY"]
  | revoke => ["REVOCATION_ID"]
  | _ => []

/-- Needs a password, which is new if it is `some true`. -/
def password? : Verb → Option Bool
  | init => some true
  | unlock | restore => some false
  | _ => none

/-- Settings are published after a change unless the last of the two options says otherwise. -/
def publishes (s : Scanned) : Bool :=
  match s.options.reverse.head? with
  | some (name, _) => name ≠ noSyncOption.name
  | none => true

/-- The command with its arguments and password. -/
def command (v : Verb) (s : Scanned) (arguments : List String) (password : String) : Command :=
  let first := arguments.headD ""
  match v with
  | init => .init (s.value? phraseOption.name) password
  | unlock => .unlock password
  | restore => .restore password
  | migrate => .migrate
  | showSetting => .showSetting first
  | saveSetting => .saveSetting first ((arguments.drop 1).headD "") (publishes s)
  | publish => .publish
  | listPeers => .listPeers
  | removePeer => .removePeer first
  | revoke => .revoke first
  | listRevoked => .listRevoked

/-- The arguments that a command needs, or the first that is missing. -/
def takeArguments (names words : List String) : Except UsageFault (List String) :=
  match names.drop words.length with
  | [] => .ok (words.take names.length)
  | name :: _ => .error (.argumentMissing name)

/-- The password of a command: what is shown while it is asked for, and the password. -/
def takePassword (v : Verb) (s : Scanned) (input : String) : String × Option String :=
  match v.password?, s.value? passwordOption.name with
  | none, _ => ("", some "")
  | some _, some given => ("", some given)
  | some twice, none => Prompt.password twice input

/-- How a command is used. -/
def usage (v : Verb) (name : String) : String :=
  "Usage: cli " ++ " ".intercalate (name :: "[OPTIONS]" :: v.arguments) ++ "\n"

/-- Reads the words of a command: what is shown meanwhile, and the command unless the words end
it. -/
def read (v : Verb) (name : String) (words : List String) (input : String) :
    String × Except Ending Command :=
  match scan v.options true words with
  | .error fault => ("", .error (.misused fault))
  | .ok s =>
    if s.has helpOption.name then (v.usage name, .error .done)
    else
      match takeArguments v.arguments s.words with
      | .error fault => ("", .error (.misused fault))
      | .ok arguments =>
        match v.takePassword s input with
        | (shown, none) => (shown, .error .aborted)
        | (shown, some password) =>
          match s.words.drop v.arguments.length with
          | [] => (shown, .ok (v.command s arguments password))
          | extra => (shown, .error (.misused (.extraArguments extra)))

end Verb

namespace Entry

/-- Reads the words of an entry. -/
def read (e : Entry) (name : String) (words : List String) (input : String) :
    String × Except Ending Command :=
  match e with
  | .verb v => v.read name words input
  | .topic verbs =>
    match select [helpOption] verbs words with
    | .error fault => ("", .error (.misused fault))
    | .ok (.entry _ word v rest) => v.read (name ++ " " ++ word) rest input
    | .ok _ => ("Usage: cli " ++ name ++ " [OPTIONS] COMMAND [ARGS]...\n", .error .done)

end Entry

end NodeStore.Cli
