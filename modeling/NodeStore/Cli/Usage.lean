import NodeStore.Text.Quoted

/-!
# Usage faults

Why the words of a command line do not make a command. Words that are close to the one that was
not understood are suggested.
-/

namespace NodeStore.Cli

/-- Why words do not make a command. -/
inductive UsageFault where
  | unknownOption (name : String) (alike : List String)
  | unknownCommand (name : String) (alike : List String)
  | noCommand
  | valueMissing (option : String)
  | valueNotTaken (option : String)
  | argumentMissing (name : String)
  | extraArguments (words : List String)
  | notHex (argument what : String)
deriving DecidableEq, Repr

namespace UsageFault

/-- What is suggested instead of a word. -/
def suggestion (alike : List String) : String :=
  match (alike.mergeSort fun a b => a ≤ b).map Text.quoted with
  | [] => ""
  | [one] => " Did you mean " ++ one ++ "?"
  | several => " (Did you mean one of: " ++ ", ".intercalate several ++ "?)"

/-- The wording of a fault. -/
def message : UsageFault → String
  | unknownOption name alike => "No such option " ++ Text.quoted name ++ "." ++ suggestion alike
  | unknownCommand name alike =>
    "No such command " ++ Text.quoted name ++ "." ++ suggestion alike
  | noCommand => "Missing command."
  | valueMissing option => "Option " ++ Text.quoted option ++ " requires an argument."
  | valueNotTaken option => "Option " ++ Text.quoted option ++ " does not take a value."
  | argumentMissing name => "Missing argument '" ++ name ++ "'."
  | extraArguments words =>
    (if words.length = 1 then "Got unexpected extra argument ("
      else "Got unexpected extra arguments (") ++ " ".intercalate words ++ ")"
  | notHex argument what => "Invalid value for " ++ argument ++ ": " ++ what ++ " must be hex"

end UsageFault

end NodeStore.Cli
