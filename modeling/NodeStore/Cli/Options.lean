import NodeStore.Cli.Usage
import NodeStore.Text.Likeness

/-!
# Options

A word that starts with a hyphen and is longer than it is an option. The value of an option is the
rest of its word after `=`, or else the next word, whatever that is. All words after `--` are
arguments. A group of commands takes its options in front of the command's name only; a command
takes them anywhere among its arguments.
-/

namespace NodeStore.Cli

/-- An option that a command knows. -/
structure OptionForm where
  name : String
  takesValue : Bool := false
deriving DecidableEq, Repr

/-- What the words of a command line were read as: the options with their values, in the order
in which they were given, and the other words. -/
structure Scanned where
  options : List (String × String) := []
  words : List String := []
deriving DecidableEq, Repr

namespace Scanned

/-- Adds an option in front. -/
def withOption (name value : String) (s : Scanned) : Scanned :=
  { s with options := (name, value) :: s.options }

/-- Adds a word in front. -/
def withWord (word : String) (s : Scanned) : Scanned :=
  { s with words := word :: s.words }

/-- The value of an option, which is the last one given. -/
def value? (s : Scanned) (name : String) : Option String :=
  s.options.reverse.lookup name

/-- An option is given. -/
def has (s : Scanned) (name : String) : Bool :=
  (s.value? name).isSome

end Scanned

/-- What one word is. -/
inductive WordKind where
  | argument
  /-- Ends the options. -/
  | ending
  | flag (name : String)
  | valued (name value : String)
  /-- An option whose value is the next word. -/
  | awaiting (name : String)
deriving DecidableEq, Repr

namespace WordKind

/-- What a word with two hyphens in front is. -/
def ofLong (known : List OptionForm) (word : List Char) : Except UsageFault WordKind :=
  let name := String.ofList (word.takeWhile (· != '='))
  match known.find? (fun o => o.name == name), word.dropWhile (· != '=') with
  | none, _ => .error (.unknownOption name (Text.closeWords name (known.map OptionForm.name)))
  | some o, [] => .ok (if o.takesValue then .awaiting name else .flag name)
  | some o, _ :: value =>
    if o.takesValue then .ok (.valued name (String.ofList value))
    else .error (.valueNotTaken name)

/-- What a word is. -/
def ofWord (known : List OptionForm) (word : String) : Except UsageFault WordKind :=
  match word.toList with
  | ['-', '-'] => .ok .ending
  | '-' :: '-' :: rest => ofLong known ('-' :: '-' :: rest)
  | '-' :: c :: _ => .error (.unknownOption (String.ofList ['-', c]) [])
  | _ => .ok .argument

end WordKind

/-- Reads words. Unless options may stand among the arguments, the first argument ends them. -/
def scan (known : List OptionForm) (anywhere : Bool) : List String → Except UsageFault Scanned
  | [] => .ok {}
  | word :: rest =>
    match WordKind.ofWord known word with
    | .error fault => .error fault
    | .ok .ending => .ok { words := rest }
    | .ok .argument =>
      if anywhere then (scan known anywhere rest).map (Scanned.withWord word)
      else .ok { words := word :: rest }
    | .ok (.flag name) => (scan known anywhere rest).map (Scanned.withOption name "")
    | .ok (.valued name value) =>
      (scan known anywhere rest).map (Scanned.withOption name value)
    | .ok (.awaiting name) =>
      match rest with
      | [] => .error (.valueMissing name)
      | value :: rest => (scan known anywhere rest).map (Scanned.withOption name value)

/-! ## Groups -/

/-- The option that asks how a command is used. -/
def helpOption : OptionForm := ⟨"--help", false⟩

/-- The option that asks for the version. -/
def versionOption : OptionForm := ⟨"--version", false⟩

/-- What the words of a group are: a question that is answered at once, or the entry that is
named, after the group's options and before its own words. -/
inductive Selection (α : Type) where
  | help
  | version
  | entry (options : Scanned) (name : String) (entry : α) (rest : List String)

namespace Scanned

/-- The first question that is answered at once. -/
def question? {α : Type} (s : Scanned) : Option (Selection α) :=
  s.options.findSome? fun (name, _) =>
    if name = helpOption.name then some .help
    else if name = versionOption.name then some .version
    else none

end Scanned

/-- Selects an entry of a group. A name that no entry has is read as an option once more, if it
looks like one. -/
def select {α : Type} (known : List OptionForm) (entries : List (String × α))
    (words : List String) : Except UsageFault (Selection α) := do
  let s ← scan known false words
  match s.question?, s.words with
  | some q, _ => return q
  | none, [] => throw .noCommand
  | none, name :: rest =>
    match entries.lookup name with
    | some e => return .entry s name e rest
    | none =>
      let again ← scan known false s.words
      match again.question? with
      | some q => return q
      | none => throw (.unknownCommand name (Text.closeWords name (entries.map Prod.fst)))

end NodeStore.Cli
