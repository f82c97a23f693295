import NodeStore.Binary64
import NodeStore.Text.Digit

/-!
# JSON

Values, a compact printer and a strict parser. The grammar is the standard one with three
additions, the numbers `NaN`, `Infinity` and `-Infinity`. Integers are unbounded up to
`maxDigits` characters; a number with a point or an exponent is a 64-bit float. Objects keep
their members in document order, repeated keys included. At most `maxDepth` containers that hold
something may be open at once.

The parser takes an amount of fuel that no document needs more of than it has characters.
-/

namespace NodeStore

/-- A JSON value. -/
inductive Json where
  | null
  | bool (b : Bool)
  | int (n : Int)
  | float (x : Binary64)
  | str (s : String)
  | arr (items : List Json)
  | obj (members : List (String × Json))
deriving Repr

namespace Json

/-- The greatest number of characters of an integer, its sign included. -/
def maxDigits : Nat := 4300

/-- The greatest number of open containers that hold something. -/
def maxDepth : Nat := 200

/-! ## Printing -/

/-- One character of a string. Quotes, backslashes and control characters are escaped. -/
def escapeChar (c : Char) : List Char :=
  if c = '"' then ['\\', '"']
  else if c = '\\' then ['\\', '\\']
  else if c = '\n' then ['\\', 'n']
  else if c = '\r' then ['\\', 'r']
  else if c = '\t' then ['\\', 't']
  else if c.toNat = 8 then ['\\', 'b']
  else if c.toNat = 12 then ['\\', 'f']
  else if c.toNat < 32 then
    ['\\', 'u', '0', '0', Nat.digitChar (c.toNat / 16), Nat.digitChar (c.toNat % 16)]
  else [c]

/-- A string between its quotes. -/
def printString (s : String) : List Char :=
  '"' :: s.toList.flatMap escapeChar ++ ['"']

/-- An integer. -/
def printInt (n : Int) : List Char :=
  (Text.decimalInt n).toList

/-- The pieces with a comma between each two. -/
def joinCommas : List (List Char) → List Char
  | [] => []
  | [p] => p
  | p :: ps => p ++ ',' :: joinCommas ps

mutual

/-- The compact text of a value. A float is written as `null`: no record holds one. -/
def print : Json → List Char
  | null => "null".toList
  | bool true => "true".toList
  | bool false => "false".toList
  | int n => printInt n
  | float _ => "null".toList
  | str s => printString s
  | arr items => '[' :: joinCommas (printItems items) ++ [']']
  | obj members => '\x7b' :: joinCommas (printMembers members) ++ ['\x7d']

/-- The texts of the items of an array. -/
def printItems : List Json → List (List Char)
  | [] => []
  | v :: vs => print v :: printItems vs

/-- The texts of the members of an object. -/
def printMembers : List (String × Json) → List (List Char)
  | [] => []
  | (k, v) :: rest => (printString k ++ ':' :: print v) :: printMembers rest

end

/-! ## Parsing -/

/-- Blanks between tokens. -/
def isGap (c : Char) : Bool :=
  c = ' ' || c = '\t' || c = '\n' || c = '\r'

/-- Drops the blanks in front. -/
def skipGap (cs : List Char) : List Char :=
  cs.dropWhile isGap

/-- The value of a hex digit. -/
def hexValue? (c : Char) : Option Nat :=
  if '0' ≤ c ∧ c ≤ '9' then some (c.toNat - 48)
  else if 'a' ≤ c ∧ c ≤ 'f' then some (c.toNat - 87)
  else if 'A' ≤ c ∧ c ≤ 'F' then some (c.toNat - 55)
  else none

/-- The number of four hex digits. -/
def hex4? (a b c d : Char) : Option Nat := do
  return (← hexValue? a) * 4096 + (← hexValue? b) * 256 + (← hexValue? c) * 16 + (← hexValue? d)

/-- The character of a one-letter escape. -/
def simpleEscape? (c : Char) : Option Char :=
  if c = '"' ∨ c = '\\' ∨ c = '/' then some c
  else if c = 'b' then some (Char.ofNat 8)
  else if c = 'f' then some (Char.ofNat 12)
  else if c = 'n' then some '\n'
  else if c = 'r' then some '\r'
  else if c = 't' then some '\t'
  else none

/-- The rest of a string after its opening quote. Code points above the basic plane are escaped
as a high and a low surrogate; a surrogate alone stands for nothing. -/
def stringBody : List Char → Option (List Char × List Char)
  | [] => none
  | '"' :: rest => some ([], rest)
  | '\\' :: 'u' :: a :: b :: c :: d :: rest => do
    let n ← hex4? a b c d
    if 0xd800 ≤ n ∧ n < 0xdc00 then
      match rest with
      | '\\' :: 'u' :: e :: f :: g :: h :: rest =>
        let low ← hex4? e f g h
        if 0xdc00 ≤ low ∧ low < 0xe000 then
          let (body, rest) ← stringBody rest
          return (Char.ofNat (0x10000 + (n - 0xd800) * 0x400 + (low - 0xdc00)) :: body, rest)
        else none
      | _ => none
    else if 0xdc00 ≤ n ∧ n < 0xe000 then none
    else
      let (body, rest) ← stringBody rest
      return (Char.ofNat n :: body, rest)
  | '\\' :: c :: rest => do
    let e ← simpleEscape? c
    let (body, rest) ← stringBody rest
    return (e :: body, rest)
  | c :: rest =>
    if c.toNat < 32 ∨ c = '\\' then none
    else do
      let (body, rest) ← stringBody rest
      return (c :: body, rest)

/-- The values of the digits in front, and what follows them. -/
def takeDigits (cs : List Char) : List Nat × List Char :=
  ((cs.takeWhile Text.isAsciiDigit).filterMap Text.asciiDigit?, cs.dropWhile Text.isAsciiDigit)

/-- An exponent after its letter: a sign and at least one digit. -/
def exponent? (cs : List Char) : Option (Int × List Char) :=
  let (negative, cs) := match cs with
    | '-' :: cs => (true, cs)
    | '+' :: cs => (false, cs)
    | cs => (false, cs)
  match takeDigits cs with
  | ([], _) => none
  | (ds, rest) =>
    let n : Int := Text.natOfDigits ds
    some (if negative then -n else n, rest)

/-- A number after its sign. The integer part has no leading zero. -/
def number? (negative : Bool) (cs : List Char) : Option (Json × List Char) := do
  let (whole, rest) := takeDigits cs
  guard !whole.isEmpty
  guard (whole.length = 1 ∨ whole.head? ≠ some 0)
  guard (whole.length + negative.toNat ≤ maxDigits)
  let (fraction, rest, isFloat) ← match rest with
    | '.' :: rest => match takeDigits rest with
      | ([], _) => none
      | (ds, rest) => some (ds, rest, true)
    | rest => some ([], rest, false)
  let (exponent, rest, isFloat) ← match rest with
    | c :: more =>
      if c = 'e' ∨ c = 'E' then do
        let (e, rest) ← exponent? more
        some (e, rest, true)
      else some ((0 : Int), rest, isFloat)
    | [] => some (0, [], isFloat)
  if isFloat then
    let digits := Text.natOfDigits (whole ++ fraction)
    return (.float (Binary64.ofDecimal negative digits (exponent - fraction.length)), rest)
  else
    let n : Int := Text.natOfDigits whole
    return (.int (if negative then -n else n), rest)

/-- What follows a given text. -/
def afterText? (text cs : List Char) : Option (List Char) :=
  if text.isPrefixOf cs then some (cs.drop text.length) else none

/-- A value that is neither a string nor a container. -/
def atom? (cs : List Char) : Option (Json × List Char) :=
  match cs with
  | 'n' :: _ => (afterText? "null".toList cs).map (null, ·)
  | 't' :: _ => (afterText? "true".toList cs).map (bool true, ·)
  | 'f' :: _ => (afterText? "false".toList cs).map (bool false, ·)
  | 'N' :: _ => (afterText? "NaN".toList cs).map (float .nan, ·)
  | 'I' :: _ => (afterText? "Infinity".toList cs).map (float (.infinite false), ·)
  | '-' :: 'I' :: _ => (afterText? "-Infinity".toList cs).map (float (.infinite true), ·)
  | '-' :: rest => number? true rest
  | cs => number? false cs

mutual

/-- A value, with blanks in front of it. `depth` more containers may be opened. -/
def parseValue : (fuel depth : Nat) → List Char → Option (Json × List Char)
  | 0, _, _ => none
  | fuel + 1, depth, cs =>
    match skipGap cs with
    | '"' :: rest => (stringBody rest).map fun (s, rest) => (.str (String.ofList s), rest)
    | '[' :: rest =>
      match skipGap rest with
      | ']' :: rest => some (.arr [], rest)
      | rest =>
        match depth with
        | 0 => none
        | depth + 1 => (parseItems fuel depth rest).map fun (vs, rest) => (.arr vs, rest)
    | '\x7b' :: rest =>
      match skipGap rest with
      | '\x7d' :: rest => some (.obj [], rest)
      | rest =>
        match depth with
        | 0 => none
        | depth + 1 => (parseMembers fuel depth rest).map fun (ms, rest) => (.obj ms, rest)
    | cs => atom? cs

/-- One or more items and the bracket that closes them. -/
def parseItems : (fuel depth : Nat) → List Char → Option (List Json × List Char)
  | 0, _, _ => none
  | fuel + 1, depth, cs => do
    let (v, rest) ← parseValue fuel depth cs
    match skipGap rest with
    | ',' :: rest =>
      let (vs, rest) ← parseItems fuel depth rest
      return (v :: vs, rest)
    | ']' :: rest => return ([v], rest)
    | _ => none

/-- One or more members and the brace that closes them. -/
def parseMembers : (fuel depth : Nat) → List Char → Option (List (String × Json) × List Char)
  | 0, _, _ => none
  | fuel + 1, depth, cs => do
    match skipGap cs with
    | '"' :: rest =>
      let (k, rest) ← stringBody rest
      match skipGap rest with
      | ':' :: rest =>
        let (v, rest) ← parseValue fuel depth rest
        match skipGap rest with
        | ',' :: rest =>
          let (ms, rest) ← parseMembers fuel depth rest
          return ((String.ofList k, v) :: ms, rest)
        | '\x7d' :: rest => return ([(String.ofList k, v)], rest)
        | _ => none
      | _ => none
    | _ => none

end

/-- The value of a document: one value with nothing but blanks around it. -/
def parseChars (cs : List Char) : Option Json :=
  match parseValue (cs.length + 1) maxDepth cs with
  | some (v, rest) => if (skipGap rest).isEmpty then some v else none
  | none => none

/-- The value of a document. -/
def parse (s : String) : Option Json :=
  parseChars s.toList

/-- The last value that an object gives a key. -/
def member? (key : String) (members : List (String × Json)) : Option Json :=
  members.reverse.lookup key

end Json

end NodeStore
