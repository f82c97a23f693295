import NodeStore.Text.Unprintable

/-!
# Quoted text

A text in a message is put between quotes, with what cannot be printed written as an escape. The
single quote is used unless the text has one and has no double quote. A backslash and the quote
that is used are escaped; line feed, carriage return and tab have short escapes, and any other
character that cannot be printed is written by its code point in two, four or eight hex digits.
-/

namespace NodeStore.Text

/-- Cannot be shown as itself. -/
def isUnprintable (c : Char) : Bool :=
  unprintable.any fun (lo, hi) => lo ≤ c.toNat && c.toNat ≤ hi

/-- A number in hex, with zeros in front up to a width. -/
def hexPadded (width n : Nat) : List Char :=
  let ds := Nat.toDigits 16 n
  List.replicate (width - ds.length) '0' ++ ds

/-- One character of a quoted text. -/
def quotedChar (quote c : Char) : List Char :=
  if c = quote ∨ c = '\\' then ['\\', c]
  else if c = '\n' then ['\\', 'n']
  else if c = '\r' then ['\\', 'r']
  else if c = '\t' then ['\\', 't']
  else if isUnprintable c then
    let n := c.toNat
    if n < 0x100 then '\\' :: 'x' :: hexPadded 2 n
    else if n < 0x10000 then '\\' :: 'u' :: hexPadded 4 n
    else '\\' :: 'U' :: hexPadded 8 n
  else [c]

/-- The quote that a text is put between. -/
def quoteFor (cs : List Char) : Char :=
  if cs.contains '\'' && !cs.contains '"' then '"' else '\''

/-- A text between quotes. -/
def quoted (s : String) : String :=
  let quote := quoteFor s.toList
  String.ofList (quote :: s.toList.flatMap (quotedChar quote) ++ [quote])

end NodeStore.Text
