/-!
# Lines

Text that is read from a file has one line ending: a carriage return, alone or before a line
feed, becomes a line feed. Input typed by an operator is cut into lines at the same endings.
-/

namespace NodeStore.Text

/-- Every line ending as a line feed. -/
def unifyNewlines : List Char → List Char
  | [] => []
  | '\r' :: '\n' :: cs => '\n' :: unifyNewlines cs
  | c :: cs => (if c = '\r' then '\n' else c) :: unifyNewlines cs

/-- The text of a file whose line endings are line feeds. -/
def withLineFeeds (s : String) : String :=
  String.ofList (unifyNewlines s.toList)

/-- Cuts at every occurrence of a character; there is one piece more than cuts. -/
def splitOnChar (sep : Char) : List Char → List (List Char)
  | [] => [[]]
  | c :: cs =>
    match splitOnChar sep cs with
    | [] => [[c]]
    | piece :: pieces => if c = sep then [] :: piece :: pieces else (c :: piece) :: pieces

/-- The lines of a text; what follows the last line ending counts as one unless it is empty. -/
def lines (s : String) : List String :=
  let pieces := splitOnChar '\n' (unifyNewlines s.toList)
  let pieces := if pieces.getLast? = some [] then pieces.dropLast else pieces
  pieces.map String.ofList

/-- The first line of a text. -/
def firstLine (s : String) : String :=
  String.ofList (s.toList.takeWhile (· != '\n'))

end NodeStore.Text
