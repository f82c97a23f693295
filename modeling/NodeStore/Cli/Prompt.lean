import NodeStore.Text.Line

/-!
# Password prompts

A password that was not given with the command is asked for, and what is typed is not shown. An
empty line is asked for again. A new password is typed twice, and both asked for again when they
differ. If the input ends before a password is known, there is none.
-/

namespace NodeStore.Cli.Prompt

/-- Asks for a password. -/
def question : String := "Password: \n"

/-- Asks for the password again. -/
def repetition : String := "Repeat for confirmation: \n"

/-- Tells that two passwords differ. -/
def mismatch : String := "Error: The two entered values do not match.\n"

/-- What is shown while lines are typed, and the password. `first` is a password that is still to
be typed again. -/
def ask (twice : Bool) : (first : Option String) → List String → String × Option String
  | none, [] => (question, none)
  | some _, [] => (repetition, none)
  | none, line :: rest =>
    if line = "" then
      let (shown, password) := ask twice none rest
      (question ++ shown, password)
    else if twice then
      let (shown, password) := ask twice (some line) rest
      (question ++ shown, password)
    else (question, some line)
  | some first, line :: rest =>
    if line = "" then
      let (shown, password) := ask twice (some first) rest
      (repetition ++ shown, password)
    else if line = first then (repetition, some first)
    else
      let (shown, password) := ask twice none rest
      (repetition ++ mismatch ++ shown, password)

/-- What is shown while a password is asked for, and the password. -/
def password (twice : Bool) (input : String) : String × Option String :=
  ask twice none (Text.lines input)

end NodeStore.Cli.Prompt
