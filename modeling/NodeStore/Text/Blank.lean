/-!
# Blank characters

Three classes of blank characters and what is cut with them. `isSpace` is Unicode's
`White_Space` property. `isBlank` adds the four information separators, and is the class that
text from files and operators is trimmed with. `isAsciiBlank` is the part of it that may stand
between the digit pairs of a hex string.
-/

namespace NodeStore.Text

/-- Unicode `White_Space`. -/
def isSpace (c : Char) : Bool :=
  let n := c.toNat
  (9 ≤ n && n ≤ 13) || n == 0x20 || n == 0x85 || n == 0xa0 || n == 0x1680 ||
    (0x2000 ≤ n && n ≤ 0x200a) || n == 0x2028 || n == 0x2029 || n == 0x202f || n == 0x205f ||
    n == 0x3000

/-- `White_Space` and the information separators U+001C to U+001F. -/
def isBlank (c : Char) : Bool :=
  isSpace c || (0x1c ≤ c.toNat && c.toNat ≤ 0x1f)

/-- Space, tab, line feed, vertical tab, form feed and carriage return. -/
def isAsciiBlank (c : Char) : Bool :=
  c.toNat == 0x20 || (9 ≤ c.toNat && c.toNat ≤ 13)

/-- Removes what belongs to a class from both ends. -/
def trimChars {α : Type} (p : α → Bool) (cs : List α) : List α :=
  ((cs.dropWhile p).reverse.dropWhile p).reverse

/-- A text without the blanks at its ends. -/
def strip (s : String) : String :=
  String.ofList (trimChars isBlank s.toList)

/-- The maximal runs of characters outside a class, in order. -/
def runs (p : Char → Bool) : List Char → List (List Char)
  | [] => []
  | c :: cs =>
    if p c then runs p cs
    else match cs with
      | [] => [[c]]
      | d :: _ =>
        if p d then [c] :: runs p cs
        else match runs p cs with
          | [] => [[c]]
          | w :: ws => (c :: w) :: ws

/-- The words of a text: what stands between its blanks. -/
def words (s : String) : List String :=
  (runs isBlank s.toList).map String.ofList

end NodeStore.Text
