import NodeStore.Assoc
import NodeStore.Failure
import NodeStore.Text.Blank
import NodeStore.Text.Line

/-!
# Files of environment variables

A file of statements `name = value`, one to a line. A statement may start with `export`; a name
may stand between single quotes; a value between single or double quotes may contain escapes and
line feeds; a comment starts with `#`. A name without `=` binds nothing. A line that is no
statement is skipped from the place where reading stopped.

In every value `${name}` and `${name:-default}` are replaced: a variable of the environment wins
over a binding of the file, and only earlier bindings are seen. The bindings are then added to the
environment, where they never replace a variable.

How a file is read is one thing (`Reader`, and `read` for the files above), and what becomes of its
bindings another (`load`).
-/

namespace NodeStore

/-- The variables of an environment. -/
abbrev Environment := List (String × String)

namespace EnvFile

/-- A blank that does not end a line. -/
def isInlineBlank (c : Char) : Bool :=
  Text.isBlank c && c != '\n' && c != '\r'

/-- Drops the blanks of a line. -/
def skipInline (cs : List Char) : List Char :=
  cs.dropWhile isInlineBlank

/-- What follows the word `export` and a blank, if they come first. -/
def skipExport (cs : List Char) : List Char :=
  match cs with
  | 'e' :: 'x' :: 'p' :: 'o' :: 'r' :: 't' :: c :: rest =>
    if isInlineBlank c then skipInline rest else cs
  | _ => cs

/-- The outcome of reading a piece: what was read and what follows, or the place where reading
stopped. -/
abbrev Read (α : Type) := Except (List Char) (α × List Char)

/-- A name without quotes. -/
def isNameChar (c : Char) : Bool :=
  !(Text.isBlank c || c == '=' || c == '#')

/-- A name; a comment has none. -/
def readName (cs : List Char) : Read (Option String) :=
  match cs with
  | '#' :: _ => .ok (none, cs)
  | '\'' :: rest =>
    let name := rest.takeWhile (· != '\'')
    match rest.dropWhile (· != '\'') with
    | _ :: after => if name.isEmpty then .error cs else .ok (some (String.ofList name), after)
    | [] => .error cs
  | cs =>
    let name := cs.takeWhile isNameChar
    if name.isEmpty then .error cs
    else .ok (some (String.ofList name), cs.dropWhile isNameChar)

/-- The body of a quoted value and what follows its closing quote. A quote after a backslash
closes only if no other quote does. -/
def readQuoted (quote : Char) : (escaped : Bool) → List Char → Option (List Char × List Char)
  | _, [] => none
  | escaped, c :: cs =>
    if c = quote then
      if escaped then
        match readQuoted quote false cs with
        | some (body, rest) => some (c :: body, rest)
        | none => some ([], cs)
      else some ([], cs)
    else
      match readQuoted quote (c = '\\') cs with
      | some (body, rest) => some (c :: body, rest)
      | none => none

/-- Replaces the escapes of a quoted value; a backslash that starts none stays. -/
def unescape (escapes : List (Char × Char)) : List Char → List Char
  | '\\' :: c :: cs =>
    match escapes.lookup c with
    | some d => d :: unescape escapes cs
    | none => '\\' :: unescape escapes (c :: cs)
  | c :: cs => c :: unescape escapes cs
  | [] => []
termination_by cs => cs.length

/-- The escapes between single quotes. -/
def singleEscapes : List (Char × Char) :=
  [('\\', '\\'), ('\'', '\'')]

/-- The escapes between double quotes. -/
def doubleEscapes : List (Char × Char) :=
  [('\\', '\\'), ('\'', '\''), ('"', '"'), ('a', Char.ofNat 7), ('b', Char.ofNat 8),
    ('f', Char.ofNat 12), ('n', '\n'), ('r', '\r'), ('t', '\t'), ('v', Char.ofNat 11)]

/-- The text before the first comment, which starts with a blank and `#`. -/
def dropComment (afterBlank : Bool) : List Char → List Char
  | [] => []
  | c :: cs =>
    if afterBlank ∧ c = '#' then [] else c :: dropComment (Text.isBlank c) cs

/-- A value after its `=` and the blanks that follow it, of which there may be none. -/
def readValue (afterBlank : Bool) (cs : List Char) : Read String :=
  match cs with
  | '\'' :: rest =>
    match readQuoted '\'' false rest with
    | some (body, after) => .ok (String.ofList (unescape singleEscapes body), after)
    | none => .error cs
  | '"' :: rest =>
    match readQuoted '"' false rest with
    | some (body, after) => .ok (String.ofList (unescape doubleEscapes body), after)
    | none => .error cs
  | cs =>
    let line := cs.takeWhile fun c => c != '\n' && c != '\r'
    let rest := cs.dropWhile fun c => c != '\n' && c != '\r'
    .ok (String.ofList ((dropComment afterBlank line).reverse.dropWhile Text.isBlank).reverse, rest)

/-- The end of a statement: blanks, a comment, and the end of the line. -/
def readEnd (cs : List Char) : Except (List Char) (List Char) :=
  let rest := match skipInline cs with
    | '#' :: comment => comment.dropWhile fun c => c != '\n' && c != '\r'
    | _ => cs
  match skipInline rest with
  | [] => .ok []
  | '\r' :: '\n' :: rest => .ok rest
  | c :: after => if c = '\n' ∨ c = '\r' then .ok after else .error rest

/-- One statement, which has been reached over blanks. -/
def readStatement (cs : List Char) :
    Except (List Char) (Option (String × Option String) × List Char) := do
  let (name, rest) ← readName (skipExport cs)
  let (value, rest) ← match skipInline rest with
    | '=' :: more =>
      let after := skipInline more
      let (v, rest) ← readValue (after.length < more.length) after
      .ok (some v, rest)
    | rest => .ok (none, rest)
  let rest ← readEnd rest
  return (name.map fun n => (n, value), rest)

/-- What follows the end of the line. -/
def skipLine (cs : List Char) : List Char :=
  (cs.dropWhile fun c => c != '\n' && c != '\r').drop 1

/-- The bindings of a text, in order. The fuel is the number of statements at most. -/
def statements : (fuel : Nat) → List Char → List (String × Option String)
  | 0, _ => []
  | fuel + 1, cs =>
    match cs.dropWhile Text.isBlank with
    | [] => []
    | cs =>
      match readStatement cs with
      | .ok (some binding, rest) => binding :: statements fuel rest
      | .ok (none, rest) => statements fuel rest
      | .error rest => statements fuel (skipLine rest)

/-- The bindings of a file. A byte order mark in front does not count. -/
def parse (text : String) : List (String × Option String) :=
  let cs := Text.unifyNewlines text.toList
  let cs := if cs.head? = some (Char.ofNat 0xfeff) then cs.drop 1 else cs
  statements (cs.length + 1) cs

/-! ## Replacement -/

/-- A reference after `${`: its name, its default, and what follows its brace. -/
def readReference (cs : List Char) : Option (String × String × List Char) :=
  let name := cs.takeWhile fun c => c != '\x7d' && c != ':'
  match cs.dropWhile fun c => c != '\x7d' && c != ':' with
  | '\x7d' :: rest => some (String.ofList name, "", rest)
  | ':' :: '-' :: more =>
    match more.dropWhile (· != '\x7d') with
    | _ :: rest => some (String.ofList name, String.ofList (more.takeWhile (· != '\x7d')), rest)
    | [] => none
  | _ => none

/-- Replaces the references of a value. The fuel is the number of characters at most. -/
def expand (value? : String → Option String) : (fuel : Nat) → List Char → List Char
  | 0, cs => cs
  | _, [] => []
  | fuel + 1, '$' :: '\x7b' :: cs =>
    match readReference cs with
    | some (name, default, rest) =>
      ((value? name).getD default).toList ++ expand value? fuel rest
    | none => '$' :: '\x7b' :: expand value? fuel cs
  | fuel + 1, c :: cs => c :: expand value? fuel cs

/-- What a reference stands for: a variable, or else a binding before it; a name that binds
nothing is empty. -/
def valueOf (env : Environment) (earlier : List (String × Option String)) (name : String) :
    Option String :=
  match env.lookup name with
  | some v => some v
  | none => (earlier.lookup name).map fun v => v.getD ""

/-- The bindings with their references replaced. A name keeps its first place and its last
value. -/
def resolve (env : Environment) (bindings : List (String × Option String)) :
    List (String × Option String) :=
  bindings.foldl
    (fun earlier (name, value) =>
      let value := value.map fun v =>
        String.ofList (expand (valueOf env earlier) v.length v.toList)
      Assoc.put name value earlier)
    []

/-- How the bytes of a file are read in an environment: its bindings, or why there are none. -/
abbrev Reader := Environment → Bytes → Except Failure (List (String × Option String))

/-- Reads a file of statements, which is text. -/
def read : Reader := fun env b =>
  match Utf8.decode b with
  | .ok text => .ok (resolve env (parse text))
  | .error fault => .error (.notText fault)

/-! ## Bindings in an environment -/

/-- A text with a NUL. -/
def hasNul (s : String) : Bool :=
  s.toList.any fun c => c.toNat == 0

/-- Adds a binding to an environment, which keeps what it has. -/
def addBinding (env : Environment) (name : String) (value : Option String) :
    Except Failure Environment :=
  match env.lookup name, value with
  | some _, _ => .ok env
  | none, none => .ok env
  | none, some v =>
    if hasNul name ∨ hasNul v then .error (.argument (.variableName true))
    else if name.toList.contains '=' then .error (.argument (.variableName false))
    else .ok (env ++ [(name, v)])

/-- Adds bindings to an environment, one after the other. -/
def addAll (env : Environment) (bindings : List (String × Option String)) :
    Except Failure Environment :=
  bindings.foldlM (fun env (name, value) => addBinding env name value) env

/-- The environment after the bindings of a file have been added. A name that the file binds more
than once has its last value. -/
def load (read : Reader) (env : Environment) (b : Bytes) : Except Failure Environment := do
  addAll env (Assoc.ofList (← read env b))

end EnvFile

end NodeStore
