import NodeStore.Binary64
import NodeStore.Text.Blank
import NodeStore.Text.Digit

/-!
# Numerals in settings

Numbers may be written as text. An integer may have a sign, zeros in front, single underscores
between its digits, and a point followed by zeros only. A float has the usual form with an
exponent, or is one of the words for infinity and not-a-number, and single underscores inside it
are dropped before it is read. Blanks around an integer do not count, nor those around a float that
has no underscores.
-/

namespace NodeStore.Text

/-- The greatest number of characters of an integer that is read, a minus included. -/
def maxNumeral : Nat := 4300

/-- Splits off a sign; true for a minus. -/
def splitSign : List Char → Bool × List Char
  | '-' :: cs => (true, cs)
  | '+' :: cs => (false, cs)
  | cs => (false, cs)

/-- The digits in front of a text, and what follows them. -/
def spanDigits (cs : List Char) : List Nat × List Char :=
  ((cs.takeWhile isAsciiDigit).filterMap asciiDigit?, cs.dropWhile isAsciiDigit)

/-- An integer with its sign. -/
def signed (negative : Bool) (n : Nat) : Int :=
  if negative then -n else n

/-- Drops the underscores of a text in which none stands first, last or beside another. -/
def dropUnderscores (cs : List Char) : List Char :=
  let beside := (cs.zip (cs.drop 1)).any fun (a, b) => a == '_' && b == '_'
  if cs.head? = some '_' ∨ cs.getLast? = some '_' ∨ beside then cs
  else cs.filter (· != '_')

/-! ## Integers -/

/-- The outcome of reading an integer. -/
inductive IntNumeral where
  | value (n : Int)
  | tooLong
  | malformed
deriving DecidableEq, Repr

/-- Reads an integer of nothing but a minus, which may be left out, and digits, which start with a
zero only if that is all. What follows the digits is looked at after their number. -/
def readPlainInt (cs : List Char) : IntNumeral :=
  let (negative, cs) := match cs with
    | '-' :: cs => (true, cs)
    | cs => (false, cs)
  match spanDigits cs with
  | ([], _) => .malformed
  | ([0], []) => .value 0
  | (0 :: _, _) => .malformed
  | (ds, rest) =>
    if maxNumeral < ds.length + negative.toNat then .tooLong
    else if rest.isEmpty then .value (signed negative (natOfDigits ds))
    else .malformed

/-- What follows the zeros in front of a number and the underscores beside them. A minus may follow
them. The last of them stays before a point, or if nothing follows. -/
def skipZeros (last : Char) : List Char → Option (List Char)
  | [] => some [last]
  | c :: cs =>
    if c = '0' ∨ c = '_' then skipZeros c cs
    else if isAsciiDigit c ∨ c = '-' then some (c :: cs)
    else if c = '.' then some (last :: c :: cs)
    else none

/-- A number without zeros in front. -/
def dropLeadingZeros : List Char → Option (List Char)
  | [] => none
  | c :: cs =>
    if c = '0' then skipZeros c cs
    else if isAsciiDigit c then some (c :: cs)
    else none

/-- The part before the first point, if zeros follow it and nothing else. -/
def dropZeroFraction (cs : List Char) : List Char :=
  let zeros := (cs.dropWhile (· != '.')).drop 1
  if !zeros.isEmpty && zeros.all (· == '0') then cs.takeWhile (· != '.') else cs

/-- Reads an integer: as it stands, or else without all that may be written around its digits. Only
the first reading tells that it is too long. -/
def readInt (s : String) : IntNumeral :=
  match readPlainInt s.toList with
  | .malformed =>
    let (negative, cs) := splitSign (trimChars isSpace s.toList)
    match dropLeadingZeros cs with
    | none => .malformed
    | some cs =>
      let cs := dropZeroFraction cs
      match readPlainInt (dropUnderscores (if negative then '-' :: cs else cs)) with
      | .value n => .value n
      | _ => .malformed
  | read => read

/-! ## Floats -/

/-- The small letter of an ASCII capital. -/
def asciiLower (c : Char) : Char :=
  if 'A' ≤ c ∧ c ≤ 'Z' then Char.ofNat (c.toNat + 32) else c

/-- The exponent that ends a float, or zero if there is none. -/
def readExponent (cs : List Char) : Option Int :=
  match cs with
  | [] => some 0
  | c :: cs =>
    if c = 'e' ∨ c = 'E' then
      let (negative, cs) := splitSign cs
      match spanDigits cs with
      | ([], _) => none
      | (ds, []) => some (signed negative (natOfDigits ds))
      | _ => none
    else none

/-- Reads a float after its sign and without underscores. -/
def readMagnitude (negative : Bool) (cs : List Char) : Option Binary64 :=
  let word := String.ofList (cs.map asciiLower)
  if word = "inf" ∨ word = "infinity" then some (.infinite negative)
  else if word = "nan" then some .nan
  else
    let (whole, rest) := spanDigits cs
    let (fraction, rest) := match rest with
      | '.' :: rest => spanDigits rest
      | rest => ([], rest)
    if whole.isEmpty ∧ fraction.isEmpty then none
    else
      (readExponent rest).map fun e =>
        Binary64.ofDecimal negative (natOfDigits (whole ++ fraction)) (e - fraction.length)

/-- Reads a float without blanks or underscores. -/
def readPlainFloat (cs : List Char) : Option Binary64 :=
  let (negative, cs) := splitSign cs
  readMagnitude negative cs

/-- Reads a float: without the blanks around it, or else without the underscores in it. -/
def readFloat (s : String) : Option Binary64 :=
  (readPlainFloat (trimChars isSpace s.toList)).or (readPlainFloat (dropUnderscores s.toList))

end NodeStore.Text
